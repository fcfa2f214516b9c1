import CipherVault.Key.Material
/-!
# Log records

Operations report what they did as values: an operation yields an outcome together with the events
on the way, in order.  The text of an event is fixed here and nowhere else, so what reaches a log
can be read off the event alone.
-/

namespace CipherVault

inductive LogLevel where
  | debug
  | info
  | warn
deriving DecidableEq, Repr

def LogLevel.name : LogLevel → String
  | debug => "DEBUG"
  | info => "INFO"
  | warn => "WARN"

inductive LogEvent where
  | keystoreLoaded (identity : String) (count : Nat) (deprecated : Bool)
  /-- A key was unlocked; the fingerprint stands for its encoding. -/
  | keyUnlocked (identity keyAlias : String) (kind : KeyKind) (fingerprint : String)
  /-- Settings are configured for an alias that the image does not hold. -/
  | keyNotInImage (identity keyAlias : String)
  | repositoryReady (count : Nat) (default : String)
  | providerBound (identity : String)
  | dispatched (operation provider : String)
  | deprecatedKeyUsed (keyAlias algorithm : String)
  | cryptoFailed (operation message : String)
deriving DecidableEq, Repr

namespace LogEvent

def level : LogEvent → LogLevel
  | keystoreLoaded .. => .info
  | deprecatedKeyUsed .. => .warn
  | keyUnlocked .. | keyNotInImage .. | repositoryReady .. | providerBound .. | dispatched ..
  | cryptoFailed .. => .debug

def message : LogEvent → String
  | keystoreLoaded identity count deprecated =>
    "Keystore loaded: " ++ identity ++ " (" ++ toString count ++
      (if deprecated then " keys, deprecated)" else " keys)")
  | keyUnlocked identity keyAlias kind fingerprint =>
    "Keystore " ++ identity ++ ": key '" ++ keyAlias ++ "' (" ++ kind.name ++ ", " ++ fingerprint ++
      ")"
  | keyNotInImage identity keyAlias =>
    "Keystore " ++ identity ++ ": configured key '" ++ keyAlias ++ "' is not in the image"
  | repositoryReady count default =>
    "Keystore repository: " ++ toString count ++ " keystores, default " ++ default
  | providerBound identity => "v2c provider reads keys from keystore " ++ identity
  | dispatched operation provider => operation ++ ": dispatched to provider " ++ provider
  | deprecatedKeyUsed keyAlias algorithm =>
    "Deprecated key '" ++ keyAlias ++ "' used to encrypt with " ++ algorithm
  | cryptoFailed operation message =>
    "Cryptographic operation failed: " ++ operation ++ ": " ++ message

/-- The line of an event: its level and message. -/
def line (event : LogEvent) : String :=
  event.level.name ++ ": " ++ event.message

end LogEvent

/-- The outcome of an operation and what it reported, failed or not. -/
structure Traced (ε α : Type) where
  outcome : Except ε α
  events : List LogEvent

namespace Traced

variable {ε α β : Type}

def ofExcept (outcome : Except ε α) : Traced ε α :=
  ⟨outcome, []⟩

/-- Report an event. -/
def report (event : LogEvent) : Traced ε Unit :=
  ⟨.ok (), [event]⟩

/-- Report events in order. -/
def reportAll (events : List LogEvent) : Traced ε Unit :=
  ⟨.ok (), events⟩

/-- A failure ends the run; the events before it remain. -/
protected def bind (x : Traced ε α) (f : α → Traced ε β) : Traced ε β :=
  match x.outcome with
  | .ok a => ⟨(f a).outcome, x.events ++ (f a).events⟩
  | .error e => ⟨.error e, x.events⟩

instance : Monad (Traced ε) where
  pure a := ⟨.ok a, []⟩
  bind := Traced.bind

instance : MonadExceptOf ε (Traced ε) where
  throw e := ⟨.error e, []⟩
  tryCatch x handle := match x.outcome with
    | .ok _ => x
    | .error e => ⟨(handle e).outcome, x.events ++ (handle e).events⟩

instance : MonadLift (Except ε) (Traced ε) where
  monadLift := ofExcept

/-- The outcome, with an event reported if it is a failure. -/
def reportFailure (outcome : Except ε α) (event : ε → LogEvent) : Traced ε α :=
  match outcome with
  | .ok a => ⟨.ok a, []⟩
  | .error e => ⟨.error e, [event e]⟩

/-- The same run with its failure put in other terms. -/
def mapError {ε' : Type} (f : ε → ε') (x : Traced ε α) : Traced ε' α :=
  ⟨x.outcome.mapError f, x.events⟩

end Traced

end CipherVault
