import VesselTraffic.Proofs.Number.DoubleRange
import VesselTraffic.Proofs.Number.IntegerText
import VesselTraffic.Proofs.Result
import VesselTraffic.Record.Cell

/-!
# Faults of reading cells

A plain cell holds nothing, a truth value, a number or a text. Reading one as an integer, a double, tenths or a time may fail, and the
fault is a bad type or a bad value unless the cell is boundless: its number is infinite, itself or in tenths, or lies beyond the doubles,
or its date lies beyond the nanosecond clock. Tenths that were read are never too large to be made a double again (`yields_toTenths`).
-/

namespace VesselTraffic

namespace Double

/-- An infinite double. -/
def IsInfinite (x : Float) : Prop := ∃ negative, DoubleParts.ofDouble x = .infinite negative

/-- A double that is infinite itself or in tenths. -/
def Boundless (x : Float) : Prop := IsInfinite x ∨ IsInfinite (x * 10)

/-- A double is made an integer, rounded or without its fraction, unless it is infinite or not a number. -/
theorem yields_map_toDyadic (f : Dyadic → Int) (x : Float) :
    Yields (fun n => (toDyadic x).map f = .ok n) (fun e => e.category = .badValue ∨ e.category = .outOfRange ∧ IsInfinite x)
      ((toDyadic x).map f) := by
  unfold toDyadic
  split
  · exact Or.inl rfl
  · exact Or.inr ⟨rfl, _, by assumption⟩
  · rfl

end Double

namespace Cell

/-- A cell that holds nothing, a truth value, a number or a text. -/
def Plain : Cell → Prop
  | null | flag _ | whole _ | real _ | text _ => True
  | time _ | list _ | record _ => False

/-- A cell that holds a number with no finite double near it or near its tenfold, or a date that the nanosecond clock cannot hold. -/
def Boundless : Cell → Prop
  | whole n => ∀ x, Double.ofInt n = .ok x → Double.Boundless x
  | real x => Double.Boundless x
  | text t => (∃ x, Number.readDecimal t = .ok x ∧ Double.Boundless x) ∨ Millis.ofText t = .error .beyondNanoseconds
  | _ => False

/-- The categories of the faults that reading a plain cell can have: out of range is only what is read from a boundless one. -/
def Explains (c : Cell) (k : Category) : Prop := k = .badType ∨ k = .badValue ∨ k = .outOfRange ∧ c.Boundless

/-- A cell that is no list is missing or not. -/
theorem isMissing_of_ne_list {c : Cell} (h : ∀ cells, c ≠ list cells) : c.isMissing = .ok c.isAbsent := by
  cases c with
  | list cells => exact absurd rfl (h cells)
  | null | flag _ | whole _ | real _ | text _ | time _ | record _ => rfl

/-- A plain cell is missing or not. -/
theorem isMissing_of_plain {c : Cell} (h : c.Plain) : c.isMissing = .ok c.isAbsent :=
  isMissing_of_ne_list fun _ hlist => by
    rw [hlist] at h
    exact h

/-- A text that spells no integer is a bad value. -/
theorem yields_readInteger (t : Text) : Yields (fun _ => True) (fun e => e.category = .badValue) (Number.readInteger t) := by
  unfold Number.readInteger
  simp only
  split
  · rfl
  · split
    · rfl
    · split
      · rfl
      · trivial

/-- A text that spells no decimal is a bad value. -/
theorem yields_readDecimal (t : Text) :
    Yields (fun x => Number.readDecimal t = .ok x) (fun e => e.category = .badValue) (Number.readDecimal t) := by
  cases h : Number.readDecimal t with
  | ok x => rfl
  | error e =>
    unfold Number.readDecimal at h
    simp only at h
    split at h
    · cases h
    · cases h
      rfl

/-- Why a plain cell is not read as an integer. -/
theorem yields_toInteger {c : Cell} (h : c.Plain) : Yields (fun _ => True) (fun e => c.Explains e.category) c.toInteger := by
  cases c with
  | null => exact Or.inl rfl
  | flag b => trivial
  | whole n => trivial
  | real x =>
    refine Yields.mapError ((Double.yields_map_toDyadic Dyadic.trunc x).mono (fun _ _ => trivial) fun e he => ?_)
    exact Or.inr (he.imp_right fun hi => ⟨hi.1, Or.inl hi.2⟩)
  | text t => exact Yields.mapError ((yields_readInteger t).mono (fun _ _ => trivial) fun e he => Or.inr (Or.inl he))
  | time t => exact h.elim
  | list cells => exact h.elim
  | record fields => exact h.elim

/-- Why a plain cell is not read as a double; and one that is read as a double of infinite size is boundless. -/
theorem yields_toDouble {c : Cell} (h : c.Plain) :
    Yields (fun x => Double.IsInfinite (x * 10) → c.Boundless) (fun e => c.Explains e.category) c.toDouble := by
  cases c with
  | null => exact Or.inl rfl
  | flag b =>
    intro hi
    have hfinite : ∀ b : Bool, Double.round ((if b then 1 else 0) * 10) = .ok (if b then 10 else 0) := by decide +kernel
    obtain ⟨negative, hn⟩ := hi
    have hround := hfinite b
    rw [Double.round, Double.toDyadic, hn] at hround
    cases hround
  | whole n =>
    refine Yields.mapError ?_
    cases hx : Double.ofInt n with
    | ok x =>
      intro hi y hy
      cases hx.symm.trans hy
      exact Or.inr hi
    | error e =>
      have he : e = .integerTooLarge := by
        unfold Double.ofInt at hx
        split at hx <;> cases hx
        rfl
      rw [he]
      refine Or.inr (Or.inr ⟨rfl, fun y hy => ?_⟩)
      cases hx.symm.trans hy
  | real x => exact fun hi => Or.inr hi
  | text t =>
    exact Yields.mapError ((yields_readDecimal t).mono (fun x hx hi => Or.inl ⟨x, hx, Or.inr hi⟩) fun e he => Or.inr (Or.inl he))
  | time t => exact h.elim
  | list cells => exact h.elim
  | record fields => exact h.elim

/-- Why a plain cell is not read in whole tenths; and tenths that are read can be made a double again. -/
theorem yields_toTenths {c : Cell} (h : c.Plain) :
    Yields (fun n => ∃ x, Double.ofInt n = .ok x) (fun e => c.Explains e.category) c.toTenths := by
  refine Yields.bind (yields_toDouble h) fun x hx => Yields.mapError ?_
  refine (Double.yields_map_toDyadic Dyadic.round (x * 10)).mono (fun n hn => Double.exists_ofInt_of_round hn) fun e he => ?_
  exact Or.inr (he.imp_right fun hi => ⟨hi.1, hx hi.2⟩)

/-- A text that is no time is a bad value, or its date is beyond the nanosecond clock. -/
theorem category_of_ofText {t : Text} {e : TimeFault} (h : Millis.ofText t = .error e) :
    e.category = .badValue ∨ e = .beyondNanoseconds := by
  unfold Millis.ofText at h
  split at h
  · cases h
    exact Or.inl rfl
  · split at h
    · cases h
      exact Or.inl rfl
    · split at h
      · unfold Millis.ofFineStamp at h
        simp only at h
        split at h
        · cases h
          exact Or.inl rfl
        · split at h
          · cases h
            exact Or.inl rfl
          · cases h
      · unfold Millis.ofDateTime at h
        split at h
        · cases h
        · cases h
          exact Or.inr rfl

/-- Why a plain cell is not read as a time. -/
theorem yields_toMillis {c : Cell} (h : c.Plain) : Yields (fun _ => True) (fun e => c.Explains e.category) c.toMillis := by
  cases c with
  | null => exact Or.inr (Or.inl rfl)
  | flag b => exact Or.inl rfl
  | whole n => trivial
  | real x =>
    refine Yields.mapError ((Double.yields_map_toDyadic Dyadic.round x).mono (fun _ _ => trivial) fun e he => ?_)
    exact Or.inr (he.imp_right fun hi => ⟨hi.1, Or.inl hi.2⟩)
  | text t =>
    show Yields _ _ (Millis.ofText t)
    cases ht : Millis.ofText t with
    | ok ms => trivial
    | error e =>
      rcases category_of_ofText ht with he | rfl
      · exact Or.inr (Or.inl he)
      · exact Or.inr (Or.inr ⟨rfl, Or.inr ht⟩)
  | time t => exact h.elim
  | list cells => exact h.elim
  | record fields => exact h.elim

/-- An integer that cannot be written. -/
def Unwritable : Cell → Prop
  | whole n => ¬Number.Readable n
  | _ => False

/-- A plain cell is spelled inside a record, unless it is an integer that cannot be written. -/
theorem yields_literal {c : Cell} (h : c.Plain) :
    Yields (fun _ => True) (fun e => e = .tooLongToWrite ∧ c.Unwritable) c.literal := by
  cases c with
  | null | flag b | real x | text t =>
    rw [literal]
    exact trivial
  | whole n =>
    rw [literal]
    by_cases hn : Number.Readable n
    · rw [Number.writeInteger_of_readable hn]
      exact True.intro
    · rw [Number.writeInteger_of_not_readable hn]
      exact ⟨rfl, hn⟩
  | time _ | list _ | record _ => exact h.elim

/-- A plain cell is spelled alone, unless it is an integer that cannot be written. -/
theorem yields_display {c : Cell} (h : c.Plain) :
    Yields (fun _ => True) (fun e => e = .tooLongToWrite ∧ c.Unwritable) c.display := by
  cases c with
  | text t => exact trivial
  | null | flag b | real x | whole n => exact yields_literal h
  | time _ | list _ | record _ => exact h.elim

/-- Plain cells are spelled as the fields of a record, unless there is an integer among them that cannot be written. -/
theorem yields_fieldLiterals {fields : List (Text × Cell)} (h : ∀ e ∈ fields, e.2.Plain) :
    Yields (fun _ => True) (fun e => e = .tooLongToWrite ∧ ∃ f ∈ fields, f.2.Unwritable) (fieldLiterals fields) := by
  induction fields with
  | nil =>
    rw [fieldLiterals]
    trivial
  | cons f rest ih =>
    obtain ⟨hf, hrest⟩ := List.forall_mem_cons.1 h
    rw [fieldLiterals]
    refine Yields.bind ((yields_literal hf).mono (fun _ hv => hv) fun e he => ?_) fun shown _ => ?_
    · exact he.imp_right fun hu => ⟨f, List.mem_cons_self, hu⟩
    · refine Yields.map ((ih hrest).mono (fun _ _ => trivial) fun e he => ?_)
      exact he.imp_right fun ⟨g, hg, hu⟩ => ⟨g, List.mem_cons_of_mem f hg, hu⟩

/-- What a plain cell holds by a way of reading, or the default. -/
theorem yields_orDefault {α : Type} {V : α → Prop} {F : CellFault → Prop} {c : Cell} (h : c.Plain) {default : α}
    {read : Cell → Except CellFault α} (hd : V default) (hr : Yields V F (read c)) : Yields V F (c.orDefault default read) := by
  have hdefault : c.orDefault default read = if c.isAbsent then .ok default else read c := by
    rw [orDefault, isMissing_of_plain h]
    rfl
  rw [hdefault]
  split
  · exact hd
  · exact hr

end Cell
end VesselTraffic
