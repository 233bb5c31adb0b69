import VesselTraffic.Proofs.Retagging.Blocks
import VesselTraffic.Retagging.Retagger

/-!
# What merging writes

Merging adds tags to a packet's own in two goes, those of the template first, and which of the extra tags are left out in the second
go depends on what the first one wrote. Both goes are one writing of a list that can be told beforehand (`writtenTags`), and merging is
refused exactly if a tag of that list is not valid or an integer of the template cannot be written, which is tried also for a tag that
is left out then (`mergeRefusal`). The tags that a reader finds in the rewritten packet are given key by key (`mergedValue`): overriding
reads extra, template, own; preserving reads own, template, extra, and without an own block extra, template.
-/

namespace VesselTraffic

namespace TagMap

/-- The keys of a map that tags were inserted into where it lacked them are its own and those of the tags. -/
theorem contains_insertAll_missing (m : TagMap) {tags : List (Text × Text)} (h : (tags.map Prod.fst).Nodup) (k : Text) :
    (m.insertAll (tags.filter fun t => !m.contains t.1)).contains k = (m.contains k || (tags.lookup k).isSome) := by
  rw [contains_eq, find?_insertAll_missing m h, Option.isSome_or, contains_eq]

/-- A map that is left out if it is empty is the empty one in its stead. -/
theorem getD_ite_isEmpty (m : TagMap) : (if m.isEmpty then none else some m).getD empty = m := by
  split
  · rename_i he
    exact (isEmpty_eq_true_iff.1 he).symm
  · rfl

end TagMap

namespace Retagging

open TagMap

/-- The policy that merges, over the own tags or beside them. -/
def mergePolicy (override : Bool) : Policy := if override then .mergeOverride else .mergePreserve

/-- The value of a key after merging the tags of a packet, of a template and of a map of extra tags. -/
def mergedValue (override : Bool) (own : Option TagMap) (template : Tagging) (extras : TagMap) (key : Text) : Option Text :=
  match override, own with
  | true, own => (extras.find? key).or ((template.spelled.lookup key).or (own.bind (·.find? key)))
  | false, some m => (m.find? key).or ((template.spelled.lookup key).or (extras.find? key))
  | false, none => (extras.find? key).or (template.spelled.lookup key)

/-- The extra tags that are left to be written beside the tags of a packet and those of a template. -/
def extrasBeside (m : TagMap) (template : Tagging) (extras : TagMap) : List (Text × Text) :=
  extras.entries.filter fun t => !(m.contains t.1 || (template.spelled.lookup t.1).isSome)

/-- The tags that merging writes into the own ones, in order. -/
def writtenTags (override : Bool) (own : Option TagMap) (template : Tagging) (extras : TagMap) : List (Text × Text) :=
  match override, own with
  | false, some m => template.spelled.filter (fun t => !m.contains t.1) ++ extrasBeside m template extras
  | _, _ => template.spelled ++ extras.entries

/-- The fault that merging is refused with, if it is: that of the first tag of the template that is refused, or else that of the first
extra tag. -/
def mergeRefusal (override : Bool) (own : Option TagMap) (template : Tagging) (extras : TagMap) : Option TagFault :=
  match override, own with
  | false, some m =>
    (template.tags.findSome? (refusalBeside m)).or ((extrasBeside m template extras).findSome? refusalOf)
  | _, _ => (template.tags.findSome? refusal).or (extras.entries.findSome? refusalOf)

/-- The tags of a packet that was merged, as they are read back: every key has its value, a block is there if a key is, and the
own keys come first in their order. -/
structure ReadsAsMerge (override : Bool) (own : Option TagMap) (template : Tagging) (extras : TagMap)
    (read : Option TagMap) : Prop where
  value : ∀ key, read.bind (·.find? key) = mergedValue override own template extras key
  block : read = none ↔ ∀ key, mergedValue override own template extras key = none
  order : ∀ m, own = some m → m.keys <+: (read.getD TagMap.empty).keys

/-- Extra tags that are all added. -/
theorem addExtras_none (m extras : TagMap) : addExtras m none extras = (m.addAll extras.given).complete := by
  have e : extras.given.filter (fun _ => true) = extras.given := List.filter_eq_self.2 fun _ _ => rfl
  simp only [addExtras, e]

/-- Merging is not refused exactly if every integer of the template can be written and the tags that are written are valid. -/
theorem mergeRefusal_eq_none_iff {override : Bool} {own : Option TagMap} {template : Tagging} {extras : TagMap} :
    mergeRefusal override own template extras = none ↔
      (∀ t ∈ template.tags, t.2.Writable) ∧ ∀ t ∈ writtenTags override own template extras, Valid t := by
  have hall : (template.tags.findSome? refusal).or (extras.entries.findSome? refusalOf) = none ↔
      (∀ t ∈ template.tags, t.2.Writable) ∧ ∀ t ∈ template.spelled ++ extras.entries, Valid t := by
    rw [Option.or_eq_none_iff, findSome?_refusal_eq_none_iff, ← findSome?_refusal_ofTexts, findSome?_refusal_eq_none_iff,
      forall_mem_ofTexts_iff, List.forall_mem_append, Tagging.spelled, List.forall_mem_map, ← and_assoc, ← forall₂_and]
    exact and_congr_left' (forall₂_congr fun t _ => ⟨fun h => ⟨h.writable, h.valid⟩, fun h => ⟨h.1, h.2⟩⟩)
  cases override with
  | true => cases own <;> exact hall
  | false =>
    cases own with
    | none => exact hall
    | some m =>
      rw [mergeRefusal, writtenTags, Option.or_eq_none_iff, ← findSome?_refusal_ofTexts, findSome?_refusal_eq_none_iff,
        forall_mem_ofTexts_iff, List.forall_mem_append, Tagging.spelled, ← map_spell_filter fun k => !m.contains k,
        List.forall_mem_map, ← and_assoc, List.findSome?_eq_none_iff]
      refine and_congr_left' ?_
      simp only [refusalBeside_eq_none_iff, List.mem_filter, Bool.not_eq_true']
      exact ⟨fun h => ⟨fun t ht => (h t ht).1, fun t ht => (h t ht.1).2 ht.2⟩, fun h t ht => ⟨h.1 t ht, fun hc => h.2 t ⟨ht, hc⟩⟩⟩

/-- Merging is one writing of tags into the own ones, or it is refused. -/
theorem merged_eq (override : Bool) (own : Option TagMap) (template : Tagging) (extras : TagMap) :
    merged override own template extras = match mergeRefusal override own template extras with
      | some e => .error e
      | none => .ok ((own.getD TagMap.empty).insertAll (writtenTags override own template extras)) := by
  have hall : ∀ m : TagMap, ((m.addAll template.tags).complete.bind fun m' => addExtras m' none extras) =
      match (template.tags.findSome? refusal).or (extras.entries.findSome? refusalOf) with
      | some e => .error e
      | none => .ok (m.insertAll (template.spelled ++ extras.entries)) := by
    intro m
    simp only [addExtras_none]
    rewrite [← complete_addAll_append, complete_addAll, List.findSome?_append, Tagging.map_spell_append_given, given_eq,
      findSome?_refusal_ofTexts]
    rfl
  cases override with
  | true => cases own <;> exact hall _
  | false =>
    cases own with
    | none =>
      have hempty : (template.writeMissing TagMap.empty).complete = (TagMap.empty.addAll template.tags).complete :=
        complete_addMissing_empty template.nodup_keys_tags
      have hstart : (none : Option TagMap).getD TagMap.empty = TagMap.empty := rfl
      simp only [merged, hstart, Bool.false_eq_true, if_false, hempty]
      exact hall _
    | some m =>
      have hstart : (some m).getD TagMap.empty = m := rfl
      simp only [merged, hstart, Bool.false_eq_true, if_false, Tagging.writeMissing, mergeRefusal, Option.map_some, writtenTags]
      rw [complete_addMissing m template.nodup_keys_tags, map_spell_filter fun k => !m.contains k, insertAll_append]
      cases template.tags.findSome? (refusalBeside m) with
      | some e => rfl
      | none =>
        -- What counts as present in the second go is what the map has after the first one.
        have hspelled : template.tags.map spell = template.spelled := rfl
        simp only [Except.bind, Option.none_or, addExtras, hspelled, contains_insertAll_missing m template.nodup_keys_spelled]
        rw [given_eq, filter_ofTexts fun k => !(m.contains k || (template.spelled.lookup k).isSome), complete_addAll,
          findSome?_refusal_ofTexts, map_spell_ofTexts]
        rfl

/-- The values of a merged map. -/
theorem find?_insertAll_writtenTags (override : Bool) (own : Option TagMap) (template : Tagging) (extras : TagMap) (key : Text) :
    ((own.getD TagMap.empty).insertAll (writtenTags override own template extras)).find? key =
      mergedValue override own template extras key := by
  have htemplate := template.nodup_keys_spelled
  have hover : ∀ m : TagMap, (m.insertAll (template.spelled ++ extras.entries)).find? key =
      (extras.find? key).or ((template.spelled.lookup key).or (m.find? key)) := by
    intro m
    rw [insertAll_append, find?_insertAll _ extras.nodup, find?_insertAll _ htemplate]
    rfl
  cases override with
  | true =>
    cases own with
    | none => exact hover TagMap.empty
    | some m => exact hover m
  | false =>
    cases own with
    | none =>
      have e := hover TagMap.empty
      rw [find?_empty, Option.or_none] at e
      exact e
    | some m =>
      have hstart : (some m).getD TagMap.empty = m := rfl
      simp only [hstart, writtenTags, extrasBeside, mergedValue]
      rw [insertAll_append, ← Option.or_assoc, ← find?_insertAll_missing m htemplate]
      have hskip : (fun t : Text × Text => !(m.contains t.1 || (template.spelled.lookup t.1).isSome)) =
          fun t => !(m.insertAll (template.spelled.filter fun t => !m.contains t.1)).contains t.1 :=
        funext fun t => by rw [contains_insertAll_missing m htemplate]
      rw [hskip]
      exact find?_insertAll_missing _ extras.nodup key

/-- A merged map reads as the merge, whether it is written as a block or left out because it is empty. -/
theorem readsAsMerge_insertAll (override : Bool) (own : Option TagMap) (template : Tagging) (extras : TagMap) {m : TagMap}
    (h : m = (own.getD TagMap.empty).insertAll (writtenTags override own template extras)) :
    ReadsAsMerge override own template extras (if m.isEmpty then none else some m) := by
  have hvalue : ∀ key, m.find? key = mergedValue override own template extras key := by
    intro key
    rw [h, find?_insertAll_writtenTags]
  refine ⟨?_, ?_, ?_⟩
  · intro key
    rw [← hvalue]
    split
    · rename_i he
      rw [isEmpty_eq_true_iff.1 he]
      rfl
    · rfl
  · have hempty : m.isEmpty = true ↔ ∀ key, mergedValue override own template extras key = none := by
      rw [isEmpty_eq_true_iff, eq_empty_iff]
      exact forall_congr' fun key => by rw [hvalue]
    rw [← hempty]
    cases m.isEmpty <;> simp
  · intro m₀ hm₀
    rw [getD_ite_isEmpty, h, hm₀]
    exact keys_prefix_insertAll m₀ _

/-- A packet with a frame is rewritten with the tags that have to be written, unless merging is refused. -/
theorem merge_of_frame {p : Packet} {f : Frame} (h : p.frame? = some f) (override : Bool) (template : Tagging) (extras : TagMap) :
    merge override p template extras = match mergeRefusal override f.tags template extras with
      | some e => .error e
      | none =>
        let m := (f.tags.getD TagMap.empty).insertAll (writtenTags override f.tags template extras)
        .ok (.retagged ⟨withBlock m (Sentence.crop false p.lines), p.received⟩) := by
  rw [merge, h]
  simp only [merged_eq]
  cases mergeRefusal override f.tags template extras with
  | some e => rfl
  | none => rfl

/-- What becomes of a packet that tags are merged into. Merging does not apply exactly to the packets without a frame. On any other
packet it fails if it is refused, with the fault of the first tag that is: one that it has to write and that is not valid, or one of the
template that it has to write or to leave out and whose integer has too many digits. Otherwise the packet is rewritten, keeps its time of
reception, and if it still has a frame its tags read as the merge. -/
theorem transform_merge (override : Bool) (template : Tagging) (standing : TagMap) (i : Intake) (given : Option TagMap) :
    let result := (Retagger.transform ⟨.policy (mergePolicy override), template, standing⟩ i given).result
    let extras := given.getD standing
    (result = .ok .inapplicable ↔ i.packet.frame? = none) ∧
      ∀ f, i.packet.frame? = some f →
        (∀ e, mergeRefusal override f.tags template extras = some e → result = .error (.tag e)) ∧
          ((∀ t ∈ template.tags, t.2.Writable) → (∀ t ∈ writtenTags override f.tags template extras, Valid t) →
            ∃ out, result = .ok (.retagged out) ∧ out.received = i.packet.received ∧
              ∀ g, out.frame? = some g → ReadsAsMerge override f.tags template extras g.tags) := by
  intro result extras
  have hresult : result = (merge override i.packet template extras).mapError .tag := by cases override <;> rfl
  rw [hresult]
  cases hframe : i.packet.frame? with
  | none =>
    rw [merge, hframe]
    refine ⟨⟨fun _ => rfl, fun _ => rfl⟩, ?_⟩
    intro f hf
    cases hf
  | some f =>
    rw [merge_of_frame hframe]
    refine ⟨⟨?_, fun h => by cases h⟩, ?_⟩
    · intro h
      cases hrefused : mergeRefusal override f.tags template extras <;> rw [hrefused] at h <;> cases h
    · intro f' hf'
      cases hf'
      refine ⟨?_, ?_⟩
      · intro e he
        rw [he]
        rfl
      · intro hwritable hvalid
        rw [mergeRefusal_eq_none_iff.2 ⟨hwritable, hvalid⟩]
        refine ⟨_, rfl, rfl, ?_⟩
        intro g hg
        have hlegible := (legible_own hframe).insertAll_of_valid hvalid
        rw [tags_of_frame?_withBlock hlegible hg]
        exact readsAsMerge_insertAll override f.tags template extras rfl

end Retagging
end VesselTraffic
