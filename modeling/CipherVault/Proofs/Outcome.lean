import CipherVault.Log
/-!
# Outcomes of composed runs

When a composition of fallible steps succeeds, each step does; and the outcome of a traced run is
the composition of the outcomes of its steps, whatever the steps report.  What holds of every error
of the steps, or of every event that they report, holds of the errors and events of the composition.
-/

namespace CipherVault

namespace Outcome

variable {ε ε' α β : Type}

@[simp]
theorem ok_bind (a : α) (f : α → Except ε β) : (Except.ok a >>= f) = f a := rfl

@[simp]
theorem error_bind (e : ε) (f : α → Except ε β) : (Except.error e >>= f) = .error e := rfl

theorem bind_ok (x : Except ε α) : (x >>= fun a => .ok a) = x := by
  cases x with
  | ok a => rfl
  | error e => rfl

theorem bind_eq_ok {x : Except ε α} {f : α → Except ε β} {b : β} :
    (x >>= f) = .ok b ↔ ∃ a, x = .ok a ∧ f a = .ok b := by
  cases x with
  | ok a => simp
  | error e => simp

theorem bind_eq_error {x : Except ε α} {f : α → Except ε β} {e : ε} :
    (x >>= f) = .error e ↔ x = .error e ∨ ∃ a, x = .ok a ∧ f a = .error e := by
  cases x with
  | ok a => simp
  | error e => simp

theorem map_eq_ok {x : Except ε α} {f : α → β} {b : β} :
    x.map f = .ok b ↔ ∃ a, x = .ok a ∧ f a = b := by
  cases x with
  | ok a => simp [Except.map]
  | error e => simp [Except.map]

@[simp]
theorem mapError_ok (f : ε → ε') (a : α) : (Except.ok a).mapError f = .ok a := rfl

@[simp]
theorem mapError_error (f : ε → ε') (e : ε) :
    (Except.error e : Except ε α).mapError f = .error (f e) := rfl

@[simp]
theorem mapError_eq_ok {x : Except ε α} {f : ε → ε'} {a : α} :
    x.mapError f = .ok a ↔ x = .ok a := by
  cases x with
  | ok a => simp
  | error e => simp

theorem mapError_eq_error {x : Except ε α} {f : ε → ε'} {e : ε'} :
    x.mapError f = .error e ↔ ∃ cause, x = .error cause ∧ f cause = e := by
  cases x with
  | ok a => simp
  | error e => simp

theorem toOption_eq_some {x : Except ε α} {a : α} : x.toOption = some a ↔ x = .ok a := by
  cases x with
  | ok a => simp [Except.toOption]
  | error e => simp [Except.toOption]

theorem toOption_eq_none {x : Except ε α} : x.toOption = none ↔ ∃ e, x = .error e := by
  cases x with
  | ok a => simp [Except.toOption]
  | error e => simp [Except.toOption]

/-- Every error of an outcome is of a certain kind. -/
def FailsOnly (P : ε → Prop) (x : Except ε α) : Prop :=
  ∀ e, x = .error e → P e

namespace FailsOnly

variable {P : ε → Prop}

theorem ok (a : α) : FailsOnly P (Except.ok a : Except ε α) := nofun

theorem error {e : ε} (h : P e) : FailsOnly P (Except.error e : Except ε α) := by
  rintro _ ⟨rfl⟩
  exact h

theorem bind {x : Except ε α} {f : α → Except ε β} (hx : FailsOnly P x)
    (hf : ∀ a, x = .ok a → FailsOnly P (f a)) : FailsOnly P (x >>= f) := by
  intro e h
  rcases bind_eq_error.mp h with hfirst | ⟨a, hok, hrest⟩
  · exact hx e hfirst
  · exact hf a hok e hrest

theorem map {x : Except ε α} (hx : FailsOnly P x) (f : α → β) : FailsOnly P (x.map f) := by
  cases x with
  | ok a => exact .ok _
  | error e => exact .error (hx e rfl)

theorem mapError {x : Except ε' α} {f : ε' → ε} (h : ∀ e, P (f e)) :
    FailsOnly P (x.mapError f) := by
  intro e hfailed
  obtain ⟨cause, -, rfl⟩ := mapError_eq_error.mp hfailed
  exact h cause

theorem imp {Q : ε → Prop} {x : Except ε α} (hx : FailsOnly P x) (h : ∀ e, P e → Q e) :
    FailsOnly Q x :=
  fun e hfailed => h e (hx e hfailed)

end FailsOnly

end Outcome

namespace Traced

variable {ε α β : Type}

@[simp]
theorem outcome_bind (x : Traced ε α) (f : α → Traced ε β) :
    (x >>= f).outcome = x.outcome >>= fun a => (f a).outcome := by
  change (Traced.bind x f).outcome = _
  unfold Traced.bind
  cases x.outcome with
  | ok a => rfl
  | error e => rfl

@[simp]
theorem outcome_pure (a : α) : (pure a : Traced ε α).outcome = .ok a := rfl

@[simp]
theorem outcome_ofExcept (x : Except ε α) : (ofExcept x).outcome = x := rfl

@[simp]
theorem outcome_report (event : LogEvent) : (report event : Traced ε Unit).outcome = .ok () := rfl

@[simp]
theorem outcome_reportAll (events : List LogEvent) :
    (reportAll events : Traced ε Unit).outcome = .ok () := rfl

@[simp]
theorem outcome_reportFailure (x : Except ε α) (event : ε → LogEvent) :
    (reportFailure x event).outcome = x := by
  cases x with
  | ok a => rfl
  | error e => rfl

theorem ofExcept_ok_bind (a : α) (f : α → Traced ε β) : (ofExcept (.ok a) >>= f) = f a := rfl

theorem reportFailure_ok_bind (a : α) (event : ε → LogEvent) (f : α → Traced ε β) :
    (reportFailure (.ok a) event >>= f) = f a := rfl

theorem reportAll_bind (events : List LogEvent) (f : Unit → Traced ε β) :
    (reportAll events >>= f) = ⟨(f ()).outcome, events ++ (f ()).events⟩ := rfl

/-- Every event that a run reports is of a certain kind. -/
def ReportsOnly (P : LogEvent → Prop) (x : Traced ε α) : Prop :=
  ∀ event ∈ x.events, P event

namespace ReportsOnly

variable {P : LogEvent → Prop}

theorem ofExcept (x : Except ε α) : ReportsOnly P (Traced.ofExcept x) := nofun

theorem pure (a : α) : ReportsOnly P (Pure.pure a : Traced ε α) := nofun

theorem reportAll {events : List LogEvent} (h : ∀ event ∈ events, P event) :
    ReportsOnly P (Traced.reportAll events : Traced ε Unit) := h

theorem reportFailure {x : Except ε α} {event : ε → LogEvent} (h : ∀ e, P (event e)) :
    ReportsOnly P (Traced.reportFailure x event) := by
  cases x with
  | ok a => nofun
  | error e =>
    intro reported hmem
    rw [List.mem_singleton.mp hmem]
    exact h e

theorem bind {x : Traced ε α} {f : α → Traced ε β} (hx : ReportsOnly P x)
    (hf : ∀ a, x.outcome = .ok a → ReportsOnly P (f a)) : ReportsOnly P (x >>= f) := by
  change ReportsOnly P (Traced.bind x f)
  rw [Traced.bind]
  split
  · next a ha =>
    intro event hmem
    rcases List.mem_append.mp hmem with hfirst | hrest
    · exact hx event hfirst
    · exact hf a ha event hrest
  · exact hx

end ReportsOnly

end Traced

end CipherVault
