import VesselTraffic.Proofs.Result
import VesselTraffic.Proofs.Retagging.Blocks
import VesselTraffic.Retagging.Retagger

/-!
# What retagging does to the sentences of a packet

Retagging is meant for the tags of a packet and not for its sentences, but it does not always keep them. A tag with a line feed
breaks the block and costs the packet its frame, tags that spell a sentence add it, and where lines are cropped a tag of the packet
with an exclamation mark and a star hides the sentence behind it. `transform_keeps_sentences_iff` says that nothing else goes wrong;
it is exact, down to a sentence that the tags spell in place of a hidden one. `transform_keeps_sentences_false` is a packet that loses
its only sentence.
-/

namespace VesselTraffic

namespace TagMap

/-- Tags alone, without a map that they are written into, can be told apart in a block. -/
theorem legible_of_toTags {t : Tagging} {m : TagMap} (h : t.toTags = .ok m) : m.Legible := legible_empty.addAll h

/-- Extra tags leave a map legible. -/
theorem Legible.addExtras {m m' : TagMap} (hm : m.Legible) {present : Option TagMap} {extras : TagMap}
    (h : Retagging.addExtras m present extras = .ok m') : m'.Legible :=
  hm.addAll h

end TagMap

namespace Retagging

open TagMap Packet

/-- The packet that is left of a packet; nothing if the policy does not apply. -/
def packet? (p : Packet) : Retagging → Option Packet
  | inapplicable => none
  | unchanged => some p
  | retagged q => some q

/-- The tags that a policy writes for a packet with a frame; nothing is written if there are none. -/
def blockOf (policy : Policy) (p : Packet) (template : Tagging) (extras : TagMap) : Except TagFault TagMap :=
  match policy with
  | .prependMissing => lacking p template extras
  | .replace => replacement p template extras
  | .mergeOverride => merged true p.tags? template extras
  | .mergePreserve => merged false p.tags? template extras

/-- What a policy makes of a packet and the tags that it writes. -/
def written (policy : Policy) (p : Packet) (m : TagMap) : Retagging :=
  match policy with
  | .prependMissing =>
    if m.isEmpty then .unchanged else .retagged { p with raw := m.encode ++ Sentence.lineBreak ++ p.raw }
  | .replace => .retagged { p with raw := withBlock m (Sentence.crop true p.lines) }
  | .mergeOverride | .mergePreserve => .retagged { p with raw := withBlock m (Sentence.crop false p.lines) }

/-- The tags that can be written without harm to the sentences of a packet. They have no line feed. Prepended, they spell no
sentence; written in front of cropped lines they spell none and no line hides its sentence, or they spell the one that is lacking. -/
def KeepsSentences (policy : Policy) (p : Packet) (m : TagMap) : Prop :=
  '\n' ∉ m.encode ∧
    match policy with
    | .prependMissing => Sentence.find? m.encode = none
    | .replace | .mergeOverride | .mergePreserve =>
      (Sentence.find? m.encode = none ∧ ∀ line ∈ p.lines, Sentence.Exposed line) ∨
        ∃ s, Sentence.find? m.encode = some s ∧ p.sentences = s :: shownSentences p

/-- Retagging a packet with a frame finds the tags to write and writes them. -/
theorem retag_eq {p : Packet} {f : Frame} (h : p.frame? = some f) (policy : Policy) (template : Tagging) (extras : TagMap) :
    policy.retag p template extras = (blockOf policy p template extras).map (written policy p) := by
  cases policy with
  | prependMissing => rfl
  | replace => rfl
  | mergeOverride =>
    rw [Policy.retag, merge, h, blockOf, tags?_of_frame? h]
    rfl
  | mergePreserve =>
    rw [Policy.retag, merge, h, blockOf, tags?_of_frame? h]
    rfl

/-- The tags that a policy writes can be told apart in a block. -/
theorem legible_blockOf {p : Packet} {f : Frame} (h : p.frame? = some f) {policy : Policy} {template : Tagging}
    {extras m : TagMap} (hb : blockOf policy p template extras = .ok m) : m.Legible := by
  have hmerged : ∀ override, merged override p.tags? template extras = .ok m → m.Legible := by
    intro override hm
    obtain ⟨m₁, h₁, h₂⟩ := bind_eq_ok_iff.1 hm
    refine Legible.addExtras ?_ h₂
    rw [tags?_of_frame? h] at h₁
    cases override with
    | true => exact (legible_own h).addAll h₁
    | false => exact (legible_own h).addMissing template.nodup_keys_tags h₁
  cases policy with
  | prependMissing =>
    obtain ⟨m₁, h₁, h₂⟩ := bind_eq_ok_iff.1 hb
    exact (legible_of_toTags h₁).addExtras h₂
  | replace =>
    obtain ⟨m₁, h₁, h₂⟩ := bind_eq_ok_iff.1 hb
    exact (legible_of_toTags h₁).addExtras h₂
  | mergeOverride => exact hmerged true hb
  | mergePreserve => exact hmerged false hb

/-- A frame of sentences has given ones exactly if they are those and there is one. -/
theorem exists_frameOf_iff {found wanted : List Text} {tags : Option TagMap} :
    (∃ g, frameOf found tags = some g ∧ g.sentences = wanted) ↔ found = wanted ∧ wanted ≠ [] := by
  unfold frameOf
  constructor
  · rintro ⟨g, hg, rfl⟩
    split at hg
    · cases hg
    · rename_i hne
      cases hg
      exact ⟨rfl, hne⟩
  · rintro ⟨rfl, hne⟩
    exact ⟨⟨found, tags⟩, if_neg hne, rfl⟩

/-- A sentence more makes a list of sentences a different one. -/
theorem toList_append_eq_iff {s : Option Text} {l : List Text} : s.toList ++ l = l ↔ s = none := by
  cases s with
  | none => simp
  | some t =>
    constructor
    · intro h
      have := congrArg List.length h
      simp at this
    · intro h
      cases h

/-- Cropped lines behind a block have the sentences of the packet exactly if the block is whole and spells none or the missing one. -/
theorem withBlock_keeps_iff {p : Packet} {f : Frame} (h : p.frame? = some f) {m : TagMap} (hm : m.Legible)
    (dropProprietary : Bool) :
    (∃ g, (Packet.mk (withBlock m (Sentence.crop dropProprietary p.lines)) p.received).frame? = some g ∧
        g.sentences = f.sentences) ↔
      '\n' ∉ m.encode ∧ ((Sentence.find? m.encode = none ∧ ∀ line ∈ p.lines, Sentence.Exposed line) ∨
        ∃ s, Sentence.find? m.encode = some s ∧ p.sentences = s :: shownSentences p) := by
  obtain ⟨hsentences, hne, -⟩ := frame?_eq_some_iff.1 h
  rw [frame?_withBlock hm, hsentences]
  by_cases hf : '\n' ∈ m.encode
  · simp [hf]
  · rw [if_neg hf, exists_frameOf_iff, and_iff_left hne, and_iff_right hf, ← shownSentences_eq_iff]
    cases Sentence.find? m.encode with
    | none => simp
    | some s => simp [eq_comm]

/-- A packet behind a block has its sentences exactly if the block is whole and spells none. -/
theorem prepend_keeps_iff {p : Packet} {f : Frame} (h : p.frame? = some f) {m : TagMap} (hm : m.Legible) :
    (∃ g, (Packet.mk (m.encode ++ Sentence.lineBreak ++ p.raw) p.received).frame? = some g ∧ g.sentences = f.sentences) ↔
      '\n' ∉ m.encode ∧ Sentence.find? m.encode = none := by
  obtain ⟨hsentences, hne, hparse⟩ := frame?_eq_some_iff.1 h
  by_cases hf : '\n' ∈ m.encode
  · rw [List.append_assoc, frame?_lineFeed hm hf]
    simp [hf]
  · obtain ⟨tags, htags⟩ := exists_tags_of_parse hparse
    have hgroups : m.readGroups ((Packet.mk p.raw p.received).lines.flatMap groups) = .ok (m.insertAll tags) := htags m
    have hfound : (Packet.mk p.raw p.received).sentences = p.sentences := rfl
    rw [frame?_encode hm hf, hgroups, hfound]
    simp only
    rw [exists_frameOf_iff, hsentences, and_iff_left hne, and_iff_right hf, toList_append_eq_iff]

/-- A packet that a policy makes of one with a frame has the same sentences exactly if the tags that are written are harmless. -/
theorem transform_keeps_sentences_iff {policy : Policy} {template : Tagging} {standing : TagMap} {i : Intake}
    {given : Option TagMap} {f : Frame} {r : Retagging} (hf : i.packet.frame? = some f)
    (h : (Retagger.transform ⟨.policy policy, template, standing⟩ i given).result = .ok r) :
    ∃ m, blockOf policy i.packet template (given.getD standing) = .ok m ∧
      ((∃ g, (r.packet? i.packet).bind Packet.frame? = some g ∧ g.sentences = f.sentences) ↔
        KeepsSentences policy i.packet m) := by
  have hresult : (policy.retag i.packet template (given.getD standing)).mapError Fault.tag = .ok r := h
  rw [retag_eq hf] at hresult
  cases hb : blockOf policy i.packet template (given.getD standing) with
  | error e =>
    rw [hb] at hresult
    cases hresult
  | ok m =>
    rw [hb] at hresult
    have hm := legible_blockOf hf hb
    refine ⟨m, rfl, ?_⟩
    rw [← Except.ok.inj hresult]
    cases policy with
    | prependMissing =>
      by_cases he : m.isEmpty = true
      · rw [written, if_pos he, isEmpty_eq_true_iff.1 he]
        exact ⟨fun _ => encode_empty, fun _ => ⟨f, hf, rfl⟩⟩
      · rw [written, if_neg he]
        exact prepend_keeps_iff hf hm
    | replace => exact withBlock_keeps_iff hf hm true
    | mergeOverride => exact withBlock_keeps_iff hf hm false
    | mergePreserve => exact withBlock_keeps_iff hf hm false

/-- The tag `x:ab` of a packet hides nothing: merging nothing into it leaves the packet with its tags and its sentence. -/
theorem transform_keeps_sentences_plain :
    ∃ m, blockOf .mergePreserve ⟨"\\x:ab*41\\!AIVDM,1,1,,A,0,0*26".toList, 0⟩ Tagging.empty TagMap.empty = .ok m ∧
      ((∃ g, (Packet.mk "\\x:ab*41\\\r\n!AIVDM,1,1,,A,0,0*26".toList 0).frame? = some g ∧
          g.sentences = ["!AIVDM,1,1,,A,0,0*26".toList]) ↔
        KeepsSentences .mergePreserve ⟨"\\x:ab*41\\!AIVDM,1,1,,A,0,0*26".toList, 0⟩ m) :=
  @transform_keeps_sentences_iff .mergePreserve Tagging.empty TagMap.empty
    (.fresh ⟨"\\x:ab*41\\!AIVDM,1,1,,A,0,0*26".toList, 0⟩) none
    ⟨["!AIVDM,1,1,,A,0,0*26".toList], some (TagMap.empty.insert ['x'] ['a', 'b'])⟩
    (.retagged ⟨"\\x:ab*41\\\r\n!AIVDM,1,1,,A,0,0*26".toList, 0⟩) (by decide +kernel) (by cbv)

/-- Retagging does not always keep the sentences: the tag `x:a!b` of a packet hides the sentence behind its block. -/
theorem transform_keeps_sentences_false :
    ¬∀ (policy : Policy) (template : Tagging) (standing : TagMap) (i : Intake) (given : Option TagMap) (f : Frame) (r : Retagging),
      i.packet.frame? = some f →
        (Retagger.transform ⟨.policy policy, template, standing⟩ i given).result = .ok r →
          ∃ g, (r.packet? i.packet).bind Packet.frame? = some g ∧ g.sentences = f.sentences := by
  intro h
  obtain ⟨g, hg, -⟩ := h .mergePreserve Tagging.empty TagMap.empty
    (.fresh ⟨"\\x:a!b*60\\!AIVDM,1,1,,A,0,0*26".toList, 0⟩) none
    ⟨["!AIVDM,1,1,,A,0,0*26".toList], some (TagMap.empty.insert ['x'] ['a', '!', 'b'])⟩
    (.retagged ⟨"\\x:a!b*60\\\r\n!b*60".toList, 0⟩) (by decide +kernel) (by cbv)
  have hnone : (Packet.mk "\\x:a!b*60\\\r\n!b*60".toList 0).frame? = none := by decide +kernel
  exact absurd (hg.symm.trans hnone) (Option.some_ne_none g)

end Retagging
end VesselTraffic
