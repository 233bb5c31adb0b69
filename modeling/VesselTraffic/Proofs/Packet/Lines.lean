import VesselTraffic.Packet.Basic
import VesselTraffic.Packet.Crop

/-!
# Lines of packets

Breaking a text into lines undoes joining lines by line breaks: a written line break ends a line and starts the next whatever stands
on either side of it, carriage returns included (`breakLines_append_lineBreak`). Lines without line feeds and without empty ones
among them are the lines of the packet that they are joined to (`lines_join`).
-/

namespace VesselTraffic.Packet

/-- There is always a first line. -/
theorem breakLines_ne_nil (t : Text) : breakLines t ≠ [] := by
  induction t with
  | nil => exact List.cons_ne_nil _ _
  | cons c rest ih =>
    rw [breakLines]
    split
    · exact List.cons_ne_nil _ _
    · split
      · exact ih
      · intro h
        obtain ⟨l, ls, e⟩ := List.exists_cons_of_ne_nil ih
        rw [e] at h
        cases h

/-- The lines of a text have no line feeds. -/
theorem lineFeed_not_mem_of_mem_breakLines {t line : Text} (h : line ∈ breakLines t) : '\n' ∉ line := by
  induction t generalizing line with
  | nil =>
    rw [List.mem_singleton.1 h]
    exact List.not_mem_nil
  | cons c rest ih =>
    rw [breakLines] at h
    split at h
    · rcases List.mem_cons.1 h with rfl | h
      · exact List.not_mem_nil
      · exact ih h
    · rename_i hc
      split at h
      · exact ih h
      · obtain ⟨l, ls, e⟩ := List.exists_cons_of_ne_nil (breakLines_ne_nil rest)
        rw [e, List.modifyHead_cons] at h
        rcases List.mem_cons.1 h with rfl | h
        · rw [List.mem_cons, not_or]
          exact ⟨Ne.symm hc, ih (by rw [e]; exact List.mem_cons_self)⟩
        · exact ih (by rw [e]; exact List.mem_cons_of_mem _ h)

/-- A text without line feeds is one line. -/
theorem breakLines_of_not_mem {t : Text} (h : '\n' ∉ t) : breakLines t = [t] := by
  induction t with
  | nil => rfl
  | cons c rest ih =>
    obtain ⟨hc, hrest⟩ := List.ne_and_not_mem_of_not_mem_cons h
    have hhead : rest.head? ≠ some '\n' := fun e => hrest (List.mem_of_mem_head? e)
    rw [breakLines, if_neg (Ne.symm hc), if_neg (fun e => hhead e.2), ih hrest]
    rfl

/-- A written line break ends a line and starts the next one. -/
theorem breakLines_append_lineBreak (a b : Text) :
    breakLines (a ++ Sentence.lineBreak ++ b) = breakLines a ++ breakLines b := by
  induction a with
  | nil => rfl
  | cons c rest ih =>
    rw [List.cons_append, List.cons_append, breakLines, breakLines, ih]
    have hhead : (rest ++ Sentence.lineBreak ++ b).head? = some '\n' ↔ rest.head? = some '\n' := by
      cases rest <;> simp [Sentence.lineBreak]
    simp only [hhead]
    split
    · rfl
    · split
      · rfl
      · obtain ⟨l, ls, e⟩ := List.exists_cons_of_ne_nil (breakLines_ne_nil rest)
        rw [e]
        rfl

/-- What stands before the first line feed of a text starts with its first line. -/
theorem exists_first_line {a : Text} (h : '\n' ∉ a) (b : Text) :
    ∃ line, line <+: a ∧ breakLines (a ++ '\n' :: b) = line :: breakLines b := by
  induction a with
  | nil => exact ⟨[], List.nil_prefix, rfl⟩
  | cons c rest ih =>
    obtain ⟨hc, hrest⟩ := List.ne_and_not_mem_of_not_mem_cons h
    obtain ⟨line, hline, e⟩ := ih hrest
    rw [List.cons_append, breakLines, if_neg (Ne.symm hc)]
    split
    · rename_i hcr
      have hnil : rest = [] := by
        cases rest with
        | nil => rfl
        | cons d rest => exact absurd (Option.some.inj hcr.2) (fun hd => hrest (hd ▸ List.mem_cons_self))
      subst hnil
      exact ⟨[], List.nil_prefix, rfl⟩
    · rw [e]
      exact ⟨c :: line, List.cons_prefix_cons.2 ⟨rfl, hline⟩, rfl⟩

/-- The lines of a packet have no line feeds. -/
theorem lineFeed_not_mem_of_mem_lines {p : Packet} {line : Text} (h : line ∈ p.lines) : '\n' ∉ line :=
  lineFeed_not_mem_of_mem_breakLines (List.mem_filter.1 h).1

/-- Breaking lines undoes joining them. -/
theorem breakLines_join {ls : List Text} (hne : ls ≠ []) (h : ∀ l ∈ ls, '\n' ∉ l) :
    breakLines (Sentence.join ls) = ls := by
  induction ls with
  | nil => exact absurd rfl hne
  | cons l rest ih =>
    have hl := breakLines_of_not_mem (h l List.mem_cons_self)
    cases rest with
    | nil => simpa [Sentence.join] using hl
    | cons l' rest =>
      have e : Sentence.join (l :: l' :: rest) = l ++ Sentence.lineBreak ++ Sentence.join (l' :: rest) :=
        List.intercalate_cons_cons
      rw [e, breakLines_append_lineBreak, hl, ih (List.cons_ne_nil _ _) fun x hx => h x (List.mem_cons_of_mem _ hx)]
      rfl

/-- Lines that are not empty and have no line feeds are the lines of the packet that they are joined to. -/
theorem lines_join {ls : List Text} (h : ∀ l ∈ ls, l ≠ [] ∧ '\n' ∉ l) (received : Int) :
    (Packet.mk (Sentence.join ls) received).lines = ls := by
  have hf : ls.filter (· ≠ []) = ls := List.filter_eq_self.2 fun l hl => decide_eq_true (h l hl).1
  cases ls with
  | nil => rfl
  | cons l rest =>
    rw [lines, breakLines_join (List.cons_ne_nil _ _) fun x hx => (h x hx).2, hf]

/-- A line put in front of a packet's text comes before the lines of the packet. -/
theorem lines_cons {line : Text} (h : line ≠ []) (hf : '\n' ∉ line) (t : Text) (received : Int) :
    (Packet.mk (line ++ Sentence.lineBreak ++ t) received).lines = line :: (Packet.mk t received).lines := by
  have hp : decide (line ≠ []) = true := decide_eq_true h
  rw [lines, breakLines_append_lineBreak, breakLines_of_not_mem hf, List.singleton_append, List.filter_cons, if_pos hp]
  rfl

end VesselTraffic.Packet
