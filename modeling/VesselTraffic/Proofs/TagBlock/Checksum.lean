import VesselTraffic.TagBlock.Encode
import VesselTraffic.Text.UpperCase

/-!
# The characters of a checksum

A checksum is written in upper-case hexadecimal digits, so none of the marks of a block can occur in it, and putting it in upper
case changes nothing: the reader, who compares in upper case, takes every checksum that the writer wrote.
-/

namespace VesselTraffic

namespace Text

/-- The upper-case hexadecimal digits. -/
def upperHexDigits : List Char := ['0', '1', '2', '3', '4', '5', '6', '7', '8', '9', 'A', 'B', 'C', 'D', 'E', 'F']

/-- The digit of a number below sixteen is an upper-case hexadecimal digit once it is put in upper case. -/
theorem toUpper_digitChar_mem {d : Nat} (h : d < 16) : d.digitChar.toUpper ∈ upperHexDigits := by
  have all : ∀ i < 16, (Nat.digitChar i).toUpper ∈ upperHexDigits := by decide
  exact all d h

/-- Every digit of a number in base sixteen is an upper-case hexadecimal digit once it is put in upper case. -/
theorem toUpper_mem_of_mem_toDigits (n : Nat) : ∀ c ∈ Nat.toDigits 16 n, c.toUpper ∈ upperHexDigits := by
  induction n using Nat.strongRecOn with
  | ind n ih =>
    intro c hc
    rw [Nat.toDigits_eq_if (by decide)] at hc
    split at hc
    · rename_i hn
      rw [List.mem_singleton.1 hc]
      exact toUpper_digitChar_mem hn
    · rcases List.mem_append.1 hc with hc | hc
      · exact ih (n / 16) (by omega) c hc
      · rw [List.mem_singleton.1 hc]
        exact toUpper_digitChar_mem (Nat.mod_lt n (by decide))

/-- Hexadecimal numbers are written in upper-case hexadecimal digits. -/
theorem mem_upperHex {width n : Nat} {c : Char} (h : c ∈ upperHex width n) : c ∈ upperHexDigits := by
  rcases List.mem_append.1 h with h | h
  · rw [List.eq_of_mem_replicate h]
    decide
  · obtain ⟨d, hd, rfl⟩ := List.mem_map.1 h
    exact toUpper_mem_of_mem_toDigits n d hd

/-- An upper-case hexadecimal digit is its own upper case. -/
theorem upperChar_of_mem {c : Char} (h : c ∈ upperHexDigits) : upperChar c = [c] := by
  simp only [upperHexDigits, List.mem_cons, List.not_mem_nil, or_false] at h
  rcases h with rfl | rfl | rfl | rfl | rfl | rfl | rfl | rfl | rfl | rfl | rfl | rfl | rfl | rfl | rfl | rfl <;> rfl

/-- A text of upper-case hexadecimal digits is its own upper case. -/
theorem upper_of_upperHexDigits {t : Text} (h : ∀ c ∈ t, c ∈ upperHexDigits) : t.upper = t := by
  induction t with
  | nil => rfl
  | cons c rest ih =>
    rw [upper, List.flatMap_cons, upperChar_of_mem (h c List.mem_cons_self)]
    exact congrArg (c :: ·) (ih fun d hd => h d (List.mem_cons_of_mem c hd))

end Text

/-- A checksum consists of upper-case hexadecimal digits. -/
theorem mem_checksum {t : Text} {c : Char} (h : c ∈ checksum t) : c ∈ Text.upperHexDigits := Text.mem_upperHex h

/-- A character that is no upper-case hexadecimal digit does not occur in a checksum. -/
theorem not_mem_checksum {c : Char} (h : c ∉ Text.upperHexDigits) (t : Text) : c ∉ checksum t := fun hc => h (mem_checksum hc)

/-- A checksum is its own upper case. -/
theorem upper_checksum (t : Text) : (checksum t).upper = checksum t := Text.upper_of_upperHexDigits fun _ => mem_checksum

end VesselTraffic
