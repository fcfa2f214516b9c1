import CipherVault.Proofs.Outcome
/-!
# Two runs side by side

Two runs are alike if they report the same events and end with related results or with one error.
Steps that are alike compose to runs that are alike.  Of runs that are only alike as long as both
succeed or both fail, the last step may differ in which of the two it does.
-/

namespace CipherVault

namespace Outcome

variable {ε ε' α β γ δ : Type} {R : α → β → Prop} {S : γ → δ → Prop}

/-- Related results, or the same error. -/
inductive Alike (R : α → β → Prop) : Except ε α → Except ε β → Prop
  | ok {a : α} {b : β} (h : R a b) : Alike R (.ok a) (.ok b)
  | error (e : ε) : Alike R (.error e) (.error e)

namespace Alike

theorem of_eq {x y : Except ε α} (h : x = y) : Alike Eq x y := by
  subst h
  cases x with
  | ok a => exact .ok rfl
  | error e => exact .error e

theorem bind {x : Except ε α} {y : Except ε β} {f : α → Except ε γ} {g : β → Except ε δ}
    (h : Alike R x y) (hrest : ∀ a b, R a b → Alike S (f a) (g b)) :
    Alike S (x >>= f) (y >>= g) := by
  cases h with
  | ok h => exact hrest _ _ h
  | error e => exact .error e

theorem map {x : Except ε α} {y : Except ε β} {f : α → γ} {g : β → δ} (h : Alike R x y)
    (hresult : ∀ a b, R a b → S (f a) (g b)) : Alike S (x.map f) (y.map g) := by
  cases h with
  | ok h => exact .ok (hresult _ _ h)
  | error e => exact .error e

theorem mapError {x : Except ε α} {y : Except ε β} (h : Alike R x y) (f : ε → ε') :
    Alike R (x.mapError f) (y.mapError f) := by
  cases h with
  | ok h => exact .ok h
  | error e => exact .error (f e)

end Alike

end Outcome

namespace Traced

variable {ε α β γ δ : Type} {R : α → β → Prop} {S : γ → δ → Prop}

/-- The same events, and related results or the same error. -/
structure Alike (R : α → β → Prop) (x : Traced ε α) (y : Traced ε β) : Prop where
  outcome : Outcome.Alike R x.outcome y.outcome
  events : x.events = y.events

namespace Alike

theorem ofExcept {x : Except ε α} {y : Except ε β} (h : Outcome.Alike R x y) :
    Alike R (Traced.ofExcept x) (Traced.ofExcept y) :=
  ⟨h, rfl⟩

theorem pure {a : α} {b : β} (h : R a b) :
    Alike R (Pure.pure a : Traced ε α) (Pure.pure b : Traced ε β) :=
  ⟨.ok h, rfl⟩

theorem report (event : LogEvent) :
    Alike Eq (Traced.report event : Traced ε Unit) (Traced.report event) :=
  ⟨.ok rfl, rfl⟩

theorem reportAll {events other : List LogEvent} (h : events = other) :
    Alike Eq (Traced.reportAll events : Traced ε Unit) (Traced.reportAll other) :=
  ⟨.ok rfl, h⟩

theorem reportFailure {x : Except ε α} {y : Except ε β} (h : Outcome.Alike R x y)
    (event : ε → LogEvent) :
    Alike R (Traced.reportFailure x event) (Traced.reportFailure y event) := by
  cases h with
  | ok h => exact ⟨.ok h, rfl⟩
  | error e => exact ⟨.error e, rfl⟩

theorem bind {x : Traced ε α} {y : Traced ε β} {f : α → Traced ε γ} {g : β → Traced ε δ}
    (h : Alike R x y) (hrest : ∀ a b, R a b → Alike S (f a) (g b)) :
    Alike S (x >>= f) (y >>= g) := by
  obtain ⟨outcome, events⟩ := x
  obtain ⟨outcome', events'⟩ := y
  obtain ⟨houtcome, hevents⟩ := h
  subst hevents
  cases houtcome with
  | ok h =>
    have hnext := hrest _ _ h
    exact ⟨hnext.outcome, congrArg (events ++ ·) hnext.events⟩
  | error e => exact ⟨.error e, rfl⟩

end Alike

/-- The same events if both runs succeed, and the same events and the same error if both fail. -/
structure AlikeByVerdict (x : Traced ε α) (y : Traced ε β) : Prop where
  success : ∀ a b, x.outcome = .ok a → y.outcome = .ok b → x.events = y.events
  failure : ∀ e e', x.outcome = .error e → y.outcome = .error e' → e = e' ∧ x.events = y.events

namespace AlikeByVerdict

theorem reportFailure {x : Except ε α} {y : Except ε β}
    (h : ∀ e e', x = .error e → y = .error e' → e = e') (event : ε → LogEvent) :
    AlikeByVerdict (Traced.reportFailure x event) (Traced.reportFailure y event) := by
  cases x with
  | ok a =>
    cases y with
    | ok b => exact ⟨fun _ _ _ _ => rfl, nofun⟩
    | error e => exact ⟨nofun, nofun⟩
  | error e =>
    cases y with
    | ok b => exact ⟨nofun, nofun⟩
    | error e' =>
      obtain rfl := h e e' rfl rfl
      refine ⟨nofun, ?_⟩
      rintro _ _ ⟨rfl⟩ ⟨rfl⟩
      exact ⟨rfl, rfl⟩

/-- Putting the results in other terms changes nothing. -/
theorem andReturn {x : Traced ε α} {y : Traced ε β} (h : AlikeByVerdict x y) (f : α → γ)
    (g : β → δ) :
    AlikeByVerdict (x >>= fun a => Pure.pure (f a)) (y >>= fun b => Pure.pure (g b)) := by
  obtain ⟨outcome, events⟩ := x
  obtain ⟨outcome', events'⟩ := y
  cases outcome with
  | ok a =>
    cases outcome' with
    | ok b =>
      refine ⟨fun _ _ _ _ => ?_, nofun⟩
      exact congrArg (· ++ []) (h.success a b rfl rfl)
    | error e => exact ⟨nofun, nofun⟩
  | error e =>
    cases outcome' with
    | ok b => exact ⟨nofun, nofun⟩
    | error e' =>
      refine ⟨nofun, ?_⟩
      rintro _ _ ⟨rfl⟩ ⟨rfl⟩
      exact h.failure e e' rfl rfl

/-- What is alike up to its last step is alike as far as the last step is. -/
theorem bind {x : Traced ε α} {y : Traced ε β} {f : α → Traced ε γ} {g : β → Traced ε δ}
    (h : Alike R x y) (hrest : ∀ a b, R a b → AlikeByVerdict (f a) (g b)) :
    AlikeByVerdict (x >>= f) (y >>= g) := by
  obtain ⟨outcome, events⟩ := x
  obtain ⟨outcome', events'⟩ := y
  obtain ⟨houtcome, hevents⟩ := h
  subst hevents
  cases houtcome with
  | ok h =>
    have hnext := hrest _ _ h
    constructor
    · intro a b ha hb
      exact congrArg (events ++ ·) (hnext.success a b ha hb)
    · intro e e' he he'
      obtain ⟨hsame, hevents⟩ := hnext.failure e e' he he'
      exact ⟨hsame, congrArg (events ++ ·) hevents⟩
  | error e =>
    refine ⟨nofun, ?_⟩
    rintro _ _ ⟨rfl⟩ ⟨rfl⟩
    exact ⟨rfl, rfl⟩

end AlikeByVerdict

end Traced

end CipherVault
