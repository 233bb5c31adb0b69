import Mathlib

/-!
# What results come from

A result that went through several steps is a value exactly if each step gave one. What is known of its value or of its fault is put
together from what is known of the steps (`Yields`): each step may count on what the steps before it gave, and a fault is that of one
of the steps.
-/

namespace VesselTraffic

variable {α β ε ε' ε'' : Type}

/-- A step behind another one gives a value exactly if the first one gives something that the second one makes the value of. -/
theorem bind_eq_ok_iff {x : Except ε α} {f : α → Except ε β} {b : β} : x.bind f = .ok b ↔ ∃ a, x = .ok a ∧ f a = .ok b := by
  cases x <;> simp [Except.bind]

/-- A value of a result that was mapped is what a value was mapped to. -/
theorem map_eq_ok_iff {x : Except ε α} {f : α → β} {b : β} : x.map f = .ok b ↔ ∃ a, x = .ok a ∧ f a = b := by
  cases x <;> simp [Except.map]

/-- A result that was mapped has the fault that it had before. -/
theorem map_eq_error_iff {x : Except ε α} {f : α → β} {e : ε} : x.map f = .error e ↔ x = .error e := by
  cases x <;> simp [Except.map]

/-- Putting the fault of a result in other words changes no value. -/
theorem mapError_eq_ok_iff {x : Except ε α} {f : ε → ε'} {a : α} : x.mapError f = .ok a ↔ x = .ok a := by
  cases x <;> simp [Except.mapError]

/-- Putting the fault of a result in other words makes no fault and takes none away. -/
theorem exists_mapError_eq_error_iff {x : Except ε α} {f : ε → ε'} : (∃ e, x.mapError f = .error e) ↔ ∃ e, x = .error e := by
  cases x <;> simp [Except.mapError]

/-- A fault that is put in other words twice. -/
theorem mapError_mapError (x : Except ε α) (f : ε → ε') (g : ε' → ε'') : (x.mapError f).mapError g = x.mapError fun e => g (f e) := by
  cases x <;> rfl

/-- A result that is not a fault has a value. -/
theorem isOk_iff {x : Except ε α} : x.isOk = true ↔ ∃ a, x = .ok a := by
  cases x <;> simp [Except.isOk, Except.toBool]

/-- A result that is a value with one property or a fault with another one. -/
def Yields (value : α → Prop) (fault : ε → Prop) : Except ε α → Prop
  | .ok a => value a
  | .error e => fault e

namespace Yields

variable {V V' : α → Prop} {W : β → Prop} {F F' : ε → Prop} {G : ε' → Prop}

/-- What is known of a value. -/
theorem of_ok {x : Except ε α} (h : Yields V F x) {a : α} (hx : x = .ok a) : V a := by
  rw [hx] at h
  exact h

/-- What is known of a fault. -/
theorem of_error {x : Except ε α} (h : Yields V F x) {e : ε} (hx : x = .error e) : F e := by
  rw [hx] at h
  exact h

/-- Less may be known of a result. -/
theorem mono {x : Except ε α} (h : Yields V F x) (hv : ∀ a, V a → V' a) (hf : ∀ e, F e → F' e) : Yields V' F' x := by
  cases x with
  | ok a => exact hv a h
  | error e => exact hf e h

/-- A step behind another one. -/
theorem bind {x : Except ε α} {f : α → Except ε β} (h : Yields V F x) (hf : ∀ a, V a → Yields W F (f a)) :
    Yields W F (x >>= f) := by
  cases x with
  | ok a => exact hf a h
  | error e => exact h

/-- A value of a result that was mapped. -/
theorem map {x : Except ε α} {f : α → β} (h : Yields (fun a => W (f a)) F x) : Yields W F (x.map f) := by
  cases x with
  | ok a => exact h
  | error e => exact h

/-- A fault of a result that was put in other words. -/
theorem mapError {x : Except ε α} {g : ε → ε'} (h : Yields V (fun e => G (g e)) x) : Yields V G (x.mapError g) := by
  cases x with
  | ok a => exact h
  | error e => exact h

end Yields

end VesselTraffic
