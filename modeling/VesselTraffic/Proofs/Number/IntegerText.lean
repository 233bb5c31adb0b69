import Mathlib.Data.List.Basic
import VesselTraffic.Number.Reader

/-!
# Reading written integers

An integer is written with ASCII digits alone, behind a minus sign if it is negative, so nothing of its text is dropped as a margin and
the reader takes the digits as they stand. It reads the integer back as long as there are not too many of them (`readInteger_ofInt`),
and it is written at all under the same condition (`writeInteger_eq`). Whatever text it reads an integer from, that integer has not too
many digits either (`readable_of_readInteger`), so it can be written.
-/

namespace VesselTraffic

namespace Text

/-- An integer is written with digits and a minus sign. -/
theorem isDigit_or_minus_of_mem_ofInt {n : Int} {c : Char} (h : c ∈ ofInt n) : c.isDigit = true ∨ c = '-' := by
  cases n with
  | ofNat n => exact Or.inl (Nat.isDigit_of_mem_toDigits (by decide) (by decide) h)
  | negSucc n =>
    rcases List.mem_cons.1 h with h | h
    · exact Or.inr h
    · exact Or.inl (Nat.isDigit_of_mem_toDigits (by decide) (by decide) h)

/-- A character that is neither a digit nor a minus sign does not occur in the text of an integer. -/
theorem not_mem_ofInt {c : Char} (hd : c.isDigit = false) (hm : c ≠ '-') (n : Int) : c ∉ ofInt n := by
  intro h
  rcases isDigit_or_minus_of_mem_ofInt h with hc | hc
  · rw [hd] at hc
    cases hc
  · exact hm hc

/-- The code points of the ASCII digits. -/
theorem toNat_of_isDigit {c : Char} (h : c.isDigit = true) : 48 ≤ c.toNat ∧ c.toNat ≤ 57 := by
  rw [Char.isDigit, Bool.and_eq_true, decide_eq_true_iff, decide_eq_true_iff] at h
  exact h

/-- The value of an ASCII digit is its distance from zero. -/
theorem digitValue?_of_isDigit {c : Char} (h : c.isDigit = true) : digitValue? c = some (c.toNat - '0'.toNat) := by
  obtain ⟨hlow, hhigh⟩ := toNat_of_isDigit h
  exact if_pos ⟨hlow, hhigh⟩

/-- The value of a digit of any script is less than ten. -/
theorem digitValue?_lt {c : Char} {v : Nat} (h : digitValue? c = some v) : v < 10 := by
  unfold digitValue? at h
  split at h
  · rename_i hc
    have hhigh : c.toNat ≤ 57 := hc.2
    have hzero : '0'.toNat = 48 := rfl
    have hv := Option.some.inj h
    omega
  · split at h
    · cases h
    · obtain ⟨z, hz, rfl⟩ := Option.map_eq_some_iff.1 h
      have hin := List.find?_some hz
      simp only [decide_eq_true_eq] at hin
      omega

end Text

namespace Number

/-- Neither a digit nor a minus sign is a margin. -/
theorem isMargin_eq_false {c : Char} (h : c.isDigit = true ∨ c = '-') : isMargin c = false := by
  have hrange : ∀ k < 58, 45 ≤ k → Text.blanks.contains k = false := by decide
  have hblank : Text.isBlank c = false := by
    rcases h with h | rfl
    · obtain ⟨hlow, hhigh⟩ := Text.toNat_of_isDigit h
      exact hrange c.toNat (by omega) (by omega)
    · decide
  rw [isMargin, hblank]
  rfl

/-- A text without margin characters has no margins. -/
theorem dropMargins_of_forall {t : Text} (h : ∀ c ∈ t, isMargin c = false) : dropMargins t = t := by
  have hkeep : ∀ u : Text, (∀ c ∈ u, isMargin c = false) → u.dropWhile isMargin = u := by
    intro u hu
    cases u with
    | nil => rfl
    | cons c rest => exact List.dropWhile_cons_of_neg (by simp [hu c List.mem_cons_self])
  rw [dropMargins, hkeep t h, hkeep t.reverse fun c hc => h c (List.mem_reverse.1 hc), List.reverse_reverse]

/-- ASCII digits go on to the end of their text. -/
theorem moreDigits_of_isDigit {t : Text} (h : ∀ c ∈ t, c.isDigit = true) :
    moreDigits t = (t.map fun c => c.toNat - '0'.toNat, []) := by
  induction t with
  | nil => rfl
  | cons c rest ih =>
    obtain ⟨hc, hrest⟩ := List.forall_mem_cons.1 h
    rw [moreDigits.eq_def]
    simp only [Text.digitValue?_of_isDigit hc, ih hrest]
    rfl

/-- A text of ASCII digits is taken whole. -/
theorem takeDigits_of_isDigit {t : Text} (h : ∀ c ∈ t, c.isDigit = true) :
    takeDigits t = (t.map fun c => c.toNat - '0'.toNat, []) := by
  cases t with
  | nil => rfl
  | cons c rest =>
    obtain ⟨hc, hrest⟩ := List.forall_mem_cons.1 h
    rw [takeDigits, Text.digitValue?_of_isDigit hc, moreDigits_of_isDigit hrest]
    rfl

/-- The digits that a natural number is written with spell it. -/
theorem ofDigits_ofNat (n : Nat) : ofDigits ((Text.ofNat n).map fun c => c.toNat - '0'.toNat) = n := by
  rw [ofDigits, List.foldl_map]
  exact Nat.ofDigitChars_toDigits (by decide) (by decide)

/-- A natural number is written with at most some digits exactly if it is below the power of ten for their count. -/
theorem length_ofNat_le_iff {n k : Nat} (hk : 0 < k) : (Text.ofNat n).length ≤ k ↔ n < pow10 k :=
  Nat.length_toDigits_le_iff (by decide) hk

/-- An integer with at most as many digits as may be read or written. -/
def Readable (n : Int) : Prop := n.natAbs < pow10 digitLimit

instance (n : Int) : Decidable (Readable n) := inferInstanceAs (Decidable (_ < _))

/-- An integer has too many digits exactly if it is not readable. -/
theorem digitLimit_lt_length_iff {n : Int} : digitLimit < (Text.ofNat n.natAbs).length ↔ ¬Readable n := by
  rw [← Nat.not_le, length_ofNat_le_iff (by decide), Readable]

/-- An integer is written as its text, unless it has too many digits. -/
theorem writeInteger_eq (n : Int) : writeInteger n = if Readable n then .ok (Text.ofInt n) else .error .tooLongToWrite := by
  rw [writeInteger]
  simp only [digitLimit_lt_length_iff, ite_not]

/-- A readable integer is written as its text. -/
theorem writeInteger_of_readable {n : Int} (h : Readable n) : writeInteger n = .ok (Text.ofInt n) := by
  rw [writeInteger_eq, if_pos h]

/-- An integer with too many digits is not written. -/
theorem writeInteger_of_not_readable {n : Int} (h : ¬Readable n) : writeInteger n = .error .tooLongToWrite := by
  rw [writeInteger_eq, if_neg h]

/-- The text of an integer has no sign that is taken but its minus sign, and digits behind it. -/
theorem takeSign_ofInt (n : Int) : takeSign (Text.ofInt n) = (decide (n < 0), Text.ofNat n.natAbs) := by
  cases n with
  | ofNat n =>
    have hdigits : ∀ c ∈ Text.ofNat n, c.isDigit = true := fun c hc => Nat.isDigit_of_mem_toDigits (by decide) (by decide) hc
    have hne : ∀ (d : Char) (rest : Text), d.isDigit = false → Text.ofNat n ≠ d :: rest := by
      intro d rest hd e
      have hmem : d ∈ Text.ofNat n := e ▸ List.mem_cons_self
      rw [hdigits d hmem] at hd
      cases hd
    have hsign : takeSign (Text.ofNat n) = (false, Text.ofNat n) := by
      unfold takeSign
      split
      · rename_i rest e
        exact absurd e (hne _ rest rfl)
      · rename_i rest e
        exact absurd e (hne _ rest rfl)
      · rfl
    rw [Text.ofInt, hsign]
    rfl
  | negSucc n =>
    have hminus : Int.negSucc n < 0 := Int.negSucc_lt_zero n
    rw [Text.ofInt, decide_eq_true hminus]
    rfl

/-- An integer is read back from its text, unless it has too many digits. -/
theorem readInteger_ofInt (n : Int) :
    readInteger (Text.ofInt n) =
      if Readable n then .ok n else .error (.tooManyDigits (Text.ofNat n.natAbs).length) := by
  have hmargins : dropMargins (Text.ofInt n) = Text.ofInt n :=
    dropMargins_of_forall fun c hc => isMargin_eq_false (Text.isDigit_or_minus_of_mem_ofInt hc)
  have hrun : takeDigits (Text.ofNat n.natAbs) = ((Text.ofNat n.natAbs).map fun c => c.toNat - '0'.toNat, []) :=
    takeDigits_of_isDigit fun c hc => Nat.isDigit_of_mem_toDigits (by decide) (by decide) hc
  have hne : (Text.ofNat n.natAbs).map (fun c => c.toNat - '0'.toNat) ≠ [] := fun e => Nat.toDigits_ne_nil (List.map_eq_nil_iff.1 e)
  have hsign : (if n < 0 then -(n.natAbs : Int) else n.natAbs) = n := by split <;> omega
  unfold readInteger
  simp only [hmargins, takeSign_ofInt, hrun, ofDigits_ofNat, List.length_map, digitLimit_lt_length_iff, decide_eq_true_eq, hsign]
  rw [if_neg (by simpa using hne), ite_not]
  rfl

/-- More digits have a greater power of ten. -/
theorem pow10_le {j k : Nat} (h : j ≤ k) : pow10 j ≤ pow10 k := Nat.pow_le_pow_right (by decide) h

/-- Digits spell a number below the power of ten for their count. -/
theorem ofDigits_lt {digits : List Nat} (h : ∀ d ∈ digits, d < 10) : ofDigits digits < pow10 digits.length := by
  have from_front : ∀ (ds : List Nat) (n : Nat), (∀ d ∈ ds, d < 10) →
      ds.foldl (fun n d => 10 * n + d) n < (n + 1) * pow10 ds.length := by
    intro ds
    induction ds with
    | nil =>
      intro n _
      have hone : pow10 0 = 1 := rfl
      rw [List.foldl_nil, List.length_nil, hone]
      omega
    | cons d ds ih =>
      intro n hds
      obtain ⟨hd, hrest⟩ := List.forall_mem_cons.1 hds
      have hstep := ih (10 * n + d) hrest
      have hten : pow10 (ds.length + 1) = 10 * pow10 ds.length := by
        rw [pow10_add, Nat.mul_comm]
        rfl
      rw [List.foldl_cons, List.length_cons, hten]
      refine Nat.lt_of_lt_of_le hstep ?_
      rw [← Nat.mul_assoc]
      exact Nat.mul_le_mul_right _ (by omega)
  have hall := from_front digits 0 h
  rwa [Nat.zero_add, Nat.one_mul] at hall

/-- The digits that go on have values below ten. -/
theorem lt_ten_of_mem_moreDigits (t : Text) : ∀ d ∈ (moreDigits t).1, d < 10 := by
  fun_induction moreDigits t with
  | case1 => exact fun d hd => absurd hd List.not_mem_nil
  | case2 c rest v hv run ih =>
    intro d hd
    rcases List.mem_cons.1 hd with rfl | hd
    · exact Text.digitValue?_lt hv
    · exact ih d hd
  | case3 => exact fun d hd => absurd hd List.not_mem_nil
  | case4 d more v hv run _ ih =>
    intro e he
    rcases List.mem_cons.1 he with rfl | he
    · exact Text.digitValue?_lt hv
    · exact ih e he
  | case5 => exact fun d hd => absurd hd List.not_mem_nil
  | case6 => exact fun d hd => absurd hd List.not_mem_nil

/-- The digits at the front of a text have values below ten. -/
theorem lt_ten_of_mem_takeDigits (t : Text) : ∀ d ∈ (takeDigits t).1, d < 10 := by
  unfold takeDigits
  split
  · exact fun d hd => absurd hd List.not_mem_nil
  · split
    · rename_i v hv
      intro d hd
      rcases List.mem_cons.1 hd with rfl | hd
      · exact Text.digitValue?_lt hv
      · exact lt_ten_of_mem_moreDigits _ d hd
    · exact fun d hd => absurd hd List.not_mem_nil

/-- An integer that was read has not too many digits. -/
theorem readable_of_readInteger {t : Text} {n : Int} (h : readInteger t = .ok n) : Readable n := by
  unfold readInteger at h
  simp only at h
  split at h
  · cases h
  · split at h
    · cases h
    · rename_i hlength
      split at h
      · cases h
      · have hlt := ofDigits_lt (lt_ten_of_mem_takeDigits (takeSign (dropMargins t)).2)
        have hle := pow10_le (Nat.le_of_not_lt hlength)
        have hn := Except.ok.inj h
        have habs : n.natAbs = ofDigits (takeDigits (takeSign (dropMargins t)).2).1 := by
          rw [← hn]
          split
          · exact Int.natAbs_neg _
          · rfl
        rw [Readable, habs]
        exact Nat.lt_of_lt_of_le hlt hle

end Number
end VesselTraffic
