import CipherVault.Text
/-!
# Passwords and the protection of stored keys

An empty password is no password, and no description of a value shows one.  A stored key may be
protected by a password of its own, and a password may be configured for it.  Both or neither is
right; the other two combinations are told apart.
-/

namespace CipherVault

/-- The password of a keystore or of one of its keys. -/
structure Password where
  text : String
deriving DecidableEq, Inhabited

namespace Password

def none : Password := ⟨""⟩

def bytes (password : Password) : Bytes :=
  Utf8.encode password.text

def isEmpty (password : Password) : Bool :=
  password.text.isEmpty

/-- The password, unless it is missing or empty. -/
def nonEmpty (password : Option Password) : Option Password :=
  password.filter fun p => !p.isEmpty

def describe (_ : Password) : String :=
  "Password(REDACTED)"

end Password

/-- Why a configured password does not fit a stored key. -/
inductive PasswordMismatch where
  | wrongPassword
  | passwordMissing
  | keyNotProtected
deriving DecidableEq, Repr

def PasswordMismatch.message : PasswordMismatch → String
  | wrongPassword => "configured password does not match the protected key"
  | passwordMissing => "key is password protected but no password is configured"
  | keyNotProtected => "password configured for a key that is not protected"

inductive ProtectionState where
  /-- The password has yet to open the key. -/
  | protectedWithPassword
  | protectedWithoutPassword
  | unprotectedWithPassword
  | unprotected
deriving DecidableEq, Repr

namespace ProtectionState

/-- An empty password counts as none. -/
def classify (isProtected : Bool) (password : Option Password) : ProtectionState :=
  match isProtected, Password.nonEmpty password with
  | true, some _ => protectedWithPassword
  | true, none => protectedWithoutPassword
  | false, some _ => unprotectedWithPassword
  | false, none => unprotected

/-- The mismatch that shows before the password is tried. -/
def mismatch : ProtectionState → Option PasswordMismatch
  | protectedWithoutPassword => some .passwordMissing
  | unprotectedWithPassword => some .keyNotProtected
  | protectedWithPassword | unprotected => none

end ProtectionState

end CipherVault
