import VesselTraffic.Proofs.Retagging.Blocks

/-!
# Fixed points of lines and sentences

What was taken out of a packet once is taken out unchanged when it is put together again: lines are not broken any further, and neither
the search for sentences nor cropping shortens a sentence (`lines_and_sentences_fixed`). On the way the search is said without the
scanner: it finds the leftmost sentence of a line (`find?_eq_some_iff`), and a packet with a frame has the leftmost sentences of those
lines that have one, in the order of the lines (`FoundIn`).
-/

namespace VesselTraffic

namespace Sentence

/-- The leftmost sentence of a line: no other one starts further left. -/
structure Leftmost (line s : Text) : Prop where
  isSentence : IsSentence s
  place : ∃ before after, line = before ++ s ++ after ∧
    ∀ before' s' after', IsSentence s' → line = before' ++ s' ++ after' → before.length ≤ before'.length

/-- The leftmost sentences of lines in their order; a line without a sentence contributes none. -/
inductive FoundIn : (lines sentences : List Text) → Prop where
  | nil : FoundIn [] []
  | found {line s : Text} {lines sentences : List Text} (leftmost : Leftmost line s) (others : FoundIn lines sentences) :
    FoundIn (line :: lines) (s :: sentences)
  | lacking {line : Text} {lines sentences : List Text} (without : ∀ s, IsSentence s → ¬s <:+: line)
      (others : FoundIn lines sentences) : FoundIn (line :: lines) sentences

/-- What the scanner finds is the leftmost sentence. -/
theorem leftmost_of_find? {line s : Text} (h : find? line = some s) : Leftmost line s := by
  refine ⟨(isSentence_of_find? h).1, ?_⟩
  induction line with
  | nil => cases h
  | cons c rest ih =>
    rw [find?] at h
    split at h
    · rename_i s' hat
      cases h
      obtain ⟨-, after, e⟩ := atStart?_eq_some_iff.1 hat
      exact ⟨[], after, e.symm, fun _ _ _ _ _ => Nat.zero_le _⟩
    · rename_i hat
      obtain ⟨before, after, rfl, hleft⟩ := ih h
      refine ⟨c :: before, after, rfl, fun before' s' after' hs' e => ?_⟩
      cases before' with
      | nil =>
        -- A sentence at the start of the line would have been found there.
        have hstart := atStart?_eq_some_iff.2 ⟨hs', after', e.symm⟩
        rw [hat] at hstart
        cases hstart
      | cons d before' =>
        exact Nat.succ_le_succ (hleft before' s' after' hs' (List.cons.inj e).2)

/-- A line has only one leftmost sentence. -/
theorem Leftmost.unique {line s s' : Text} (h : Leftmost line s) (h' : Leftmost line s') : s = s' := by
  obtain ⟨hs, before, after, rfl, hleft⟩ := h
  obtain ⟨hs', before', after', e, hleft'⟩ := h'
  have hlength : before.length = before'.length := Nat.le_antisymm (hleft before' s' after' hs' e) (hleft' before s after hs rfl)
  simp only [List.append_assoc] at e
  obtain ⟨-, hbehind⟩ := List.append_inj e hlength
  -- From one place there is at most one sentence.
  have hat := atStart?_eq_some_iff.2 ⟨hs, after, rfl⟩
  have hat' := atStart?_eq_some_iff.2 ⟨hs', after', rfl⟩
  rw [hbehind, hat'] at hat
  exact (Option.some.inj hat).symm

/-- The scanner finds exactly the leftmost sentence. -/
theorem find?_eq_some_iff {line s : Text} : find? line = some s ↔ Leftmost line s := by
  refine ⟨leftmost_of_find?, fun h => ?_⟩
  obtain ⟨before, after, e, -⟩ := h.place
  obtain ⟨s', hs'⟩ := Option.ne_none_iff_exists'.1 (find?_ne_none h.isSentence ⟨before, after, e.symm⟩)
  rw [hs', h.unique (leftmost_of_find? hs')]

/-- The scanner finds the leftmost sentences of lines. -/
theorem foundIn_filterMap (lines : List Text) : FoundIn lines (lines.filterMap find?) := by
  induction lines with
  | nil => exact .nil
  | cons line rest ih =>
    rw [List.filterMap_cons]
    cases hs : find? line with
    | none => exact .lacking (find?_eq_none_iff.1 hs) ih
    | some s => exact .found (leftmost_of_find? hs) ih

/-- A sentence is found in itself. -/
theorem IsSentence.find?_self {s : Text} (h : IsSentence s) : find? s = some s :=
  find?_eq_some_iff.2 ⟨h, [], [], (List.append_nil s).symm, fun _ _ _ _ _ => Nat.zero_le _⟩

/-- A sentence is cropped to itself. -/
theorem IsSentence.cropLine_self {s : Text} (h : IsSentence s) (dropProprietary : Bool) : cropLine dropProprietary s = some s := by
  obtain ⟨front, x, y, rfl, hstar⟩ := h.split
  refine cropLine_eq_some_iff.2 ⟨'!' :: front, x, y, [], ?_, hstar, rfl⟩
  rw [fromMark_of_mem (by simp)]
  exact Text.fromFirst_cons_self _ _

/-- A sentence is not empty and starts no group. -/
theorem IsSentence.starts {s : Text} (h : IsSentence s) : s ≠ [] ∧ s.head? ≠ some '\\' := by
  obtain ⟨front, x, y, rfl, -⟩ := h.split
  exact ⟨List.cons_ne_nil _ _, by simp⟩

end Sentence

namespace Packet

open Sentence

/-- The sentences of a packet are sentences without line feeds. -/
theorem isSentence_of_mem_sentences {p : Packet} {s : Text} (h : s ∈ p.sentences) : IsSentence s ∧ '\n' ∉ s := by
  obtain ⟨line, hline, hs⟩ := List.mem_filterMap.1 h
  obtain ⟨hform, hin⟩ := isSentence_of_find? hs
  exact ⟨hform, fun hm => lineFeed_not_mem_of_mem_lines hline (hin.subset hm)⟩

/-- Sentences without line feeds that are joined make a packet of these sentences, without a block. -/
theorem frame?_join {sentences : List Text} (hne : sentences ≠ []) (h : ∀ s ∈ sentences, IsSentence s ∧ '\n' ∉ s) (received : Int) :
    (Packet.mk (join sentences) received).frame? = some ⟨sentences, none⟩ := by
  have hlines : (Packet.mk (join sentences) received).lines = sentences :=
    lines_join (fun s hs => ⟨(h s hs).1.starts.1, (h s hs).2⟩) received
  have hfound : (Packet.mk (join sentences) received).sentences = sentences := by
    rw [Packet.sentences, hlines, List.filterMap_congr fun s hs => (h s hs).1.find?_self, List.filterMap_some]
  have hparse : TagMap.parse (Packet.mk (join sentences) received).lines = .ok none := by
    rw [hlines, TagMap.parse_eq_ok_none_iff]
    exact TagMap.flatMap_groups_eq_nil fun s hs => (h s hs).1.starts.2
  exact frame?_eq_some_iff.2 ⟨hfound.symm, by rwa [hfound], hparse⟩

/-- What is taken out of a packet is taken out unchanged when it is joined to a packet again.

* Its lines are not empty and have no line feeds, and the packet that they are joined to has the same lines, whatever carriage returns
  they hold.
* If it has a frame, the sentences of the frame are the leftmost ones of its lines, and lines without a sentence contribute none. The
  packet that the sentences are joined to has a frame with the same sentences and no block, and cropping leaves them as they are. -/
theorem lines_and_sentences_fixed (p : Packet) (received : Int) :
    (∀ line ∈ p.lines, line ≠ [] ∧ '\n' ∉ line) ∧ (Packet.mk (join p.lines) received).lines = p.lines ∧
      ∀ f, p.frame? = some f →
        FoundIn p.lines f.sentences ∧ (Packet.mk (join f.sentences) received).frame? = some ⟨f.sentences, none⟩ ∧
          ∀ dropProprietary, crop dropProprietary f.sentences = f.sentences := by
  have hlines : ∀ line ∈ p.lines, line ≠ [] ∧ '\n' ∉ line := fun line hl =>
    ⟨of_decide_eq_true (List.mem_filter.1 hl).2, lineFeed_not_mem_of_mem_lines hl⟩
  refine ⟨hlines, lines_join hlines received, fun f hf => ?_⟩
  obtain ⟨hsentences, hne, -⟩ := frame?_eq_some_iff.1 hf
  rw [hsentences]
  refine ⟨foundIn_filterMap p.lines, frame?_join hne (fun s => isSentence_of_mem_sentences) received, fun dropProprietary => ?_⟩
  rw [crop, List.filterMap_congr fun s hs => (isSentence_of_mem_sentences hs).1.cropLine_self dropProprietary, List.filterMap_some]

/-- A packet with a block, a carriage return at the end of a line and a second sentence in it. -/
theorem lines_and_sentences_fixed_stray_return :
    let raw := "\\x:1*73\\!AI!AIVDM,1,\r!,A,0*26*00\r\r\nno sentence*26\n\r\n!BSVDO,*aF!AIVDM,*00".toList
    let sentences := ["!AIVDM,1,\r!,A,0*26".toList, "!BSVDO,*aF".toList]
    (Packet.mk raw 5).frame? = some ⟨sentences, some (TagMap.empty.insert ['x'] ['1'])⟩ ∧
      (Packet.mk (join (Packet.mk raw 5).lines) 0).lines = (Packet.mk raw 5).lines ∧
        (Packet.mk (join sentences) 0).frame? = some ⟨sentences, none⟩ ∧ crop true sentences = sentences := by
  intro raw sentences
  have hframe : (Packet.mk raw 5).frame? = some ⟨sentences, some (TagMap.empty.insert ['x'] ['1'])⟩ := by decide +kernel
  obtain ⟨-, hlines, hfixed⟩ := lines_and_sentences_fixed ⟨raw, 5⟩ 0
  obtain ⟨-, hjoined, hcrop⟩ := hfixed _ hframe
  exact ⟨hframe, hlines, hjoined, hcrop true⟩

end Packet
end VesselTraffic
