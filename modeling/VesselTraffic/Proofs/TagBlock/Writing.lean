import VesselTraffic.Packet.Tagging
import VesselTraffic.Proofs.KeyedList
import VesselTraffic.Proofs.Number.IntegerText

/-!
# Writing tags into a map

Adding tags in order ends in one of two ways: a tag is refused, because its value is an integer that cannot be written or because its
key or its value is not valid (`refusal`), or all are inserted as they are spelled (`complete_addAll`). Adding the tags whose keys a map
lacks is the same for those tags, but the value of a tag that is left out has to be written too (`complete_addMissing`). What a reader
finds after the insertion is stated for the two ways of merging: tags written over those of the map win, tags written beside them lose.
Either way the keys of the map keep their order in front of the new ones.
-/

namespace VesselTraffic

namespace TagValue

/-- The text of a value, also of one that cannot be written. -/
def spelled : TagValue → Text
  | text t => t
  | integer n => Text.ofInt n

/-- A value that can be written. -/
def Writable : TagValue → Prop
  | text _ => True
  | integer n => Number.Readable n

instance (v : TagValue) : Decidable v.Writable :=
  match v with
  | text _ => isTrue trivial
  | integer n => inferInstanceAs (Decidable (Number.Readable n))

/-- A value is written as its text, unless it has too many digits. -/
theorem write_eq (v : TagValue) : v.write = if v.Writable then .ok v.spelled else .error (.number .tooLongToWrite) := by
  cases v with
  | text t => exact (if_pos trivial).symm
  | integer n =>
    rw [write, Number.writeInteger_eq]
    by_cases h : Number.Readable n
    · rw [if_pos h, if_pos (show (integer n).Writable from h)]
      rfl
    · rw [if_neg h, if_neg (show ¬(integer n).Writable from h)]
      rfl

end TagValue

namespace TagMap

/-- A tag whose value is spelled. -/
def spell (t : Text × TagValue) : Text × Text := (t.1, t.2.spelled)

/-- Spelling the values of tags keeps the keys. -/
theorem map_fst_spell (tags : List (Text × TagValue)) : (tags.map spell).map Prod.fst = tags.map Prod.fst := by
  rw [List.map_map]
  rfl

/-- The value of a key among spelled tags is spelled. -/
theorem lookup_map_spell (tags : List (Text × TagValue)) (k : Text) :
    (tags.map spell).lookup k = (tags.lookup k).map TagValue.spelled := by
  induction tags with
  | nil => rfl
  | cons t rest ih =>
    obtain ⟨a, v⟩ := t
    rw [List.map_cons, spell]
    by_cases hk : k = a
    · rw [hk, KeyedList.lookup_cons_self, KeyedList.lookup_cons_self]
      rfl
    · rw [KeyedList.lookup_cons_ne hk, KeyedList.lookup_cons_ne hk, ih]

/-- Spelling the values of tags goes with choosing tags by their keys. -/
theorem map_spell_filter (p : Text → Bool) (tags : List (Text × TagValue)) :
    (tags.filter fun t => p t.1).map spell = (tags.map spell).filter fun t => p t.1 := by
  rw [List.filter_map]
  rfl

/-- Tags whose values are texts. -/
def ofTexts (tags : List (Text × Text)) : List (Text × TagValue) := tags.map fun t => (t.1, .text t.2)

/-- Texts are spelled as they are. -/
theorem map_spell_ofTexts (tags : List (Text × Text)) : (ofTexts tags).map spell = tags := by
  rw [ofTexts, List.map_map]
  exact List.map_id tags

/-- Choosing tags by their keys goes with taking their values for texts. -/
theorem filter_ofTexts (p : Text → Bool) (tags : List (Text × Text)) :
    ((ofTexts tags).filter fun t => p t.1) = ofTexts (tags.filter fun t => p t.1) := by
  rw [ofTexts, List.filter_map]
  rfl

/-- A map gives its tags with texts for values. -/
theorem given_eq (m : TagMap) : m.given = ofTexts m.entries := rfl

/-- A spelled tag that can be added: its key and its value are valid. -/
def Valid (t : Text × Text) : Prop := validKey t.1 = true ∧ validValue t.2 = true

instance (t : Text × Text) : Decidable (Valid t) := inferInstanceAs (Decidable (_ ∧ _))

/-- A tag that is added: its value can be written, and its key and its value are valid. -/
structure Accepted (t : Text × TagValue) : Prop where
  writable : t.2.Writable
  valid : Valid (spell t)

instance (t : Text × TagValue) : Decidable (Accepted t) :=
  decidable_of_iff (t.2.Writable ∧ Valid (spell t)) ⟨fun h => ⟨h.1, h.2⟩, fun h => ⟨h.writable, h.valid⟩⟩

/-- The fault that a spelled tag is refused with, if it is. -/
def refusalOf (t : Text × Text) : Option TagFault :=
  if !validKey t.1 then some (.invalidKey (some t.1))
  else if !validValue t.2 then some (.invalidValue t.2 t.1)
  else none

/-- The fault that a tag is refused with, if it is. -/
def refusal (t : Text × TagValue) : Option TagFault :=
  if t.2.Writable then refusalOf (spell t) else some (.number .tooLongToWrite)

/-- The fault that a tag is refused with which is left out if a map has its key. -/
def refusalBeside (m : TagMap) (t : Text × TagValue) : Option TagFault :=
  if t.2.Writable then if m.contains t.1 then none else refusalOf (spell t) else some (.number .tooLongToWrite)

/-- The map with tags inserted in order. -/
def insertAll (m : TagMap) (tags : List (Text × Text)) : TagMap := tags.foldl (fun m t => m.insert t.1 t.2) m

/-- The spelled tags that are not refused are the valid ones. -/
theorem refusalOf_eq_none_iff {t : Text × Text} : refusalOf t = none ↔ Valid t := by
  unfold refusalOf Valid
  cases validKey t.1 <;> cases validValue t.2 <;> simp

/-- A spelled tag is refused for what a tag block must not have. -/
theorem category_of_refusalOf {t : Text × Text} {e : TagFault} (h : refusalOf t = some e) : e.category = .tagBlock := by
  unfold refusalOf at h
  split_ifs at h <;> cases h <;> rfl

/-- The tags that are not refused are the accepted ones. -/
theorem refusal_eq_none_iff {t : Text × TagValue} : refusal t = none ↔ Accepted t := by
  unfold refusal
  split
  · rename_i hw
    exact refusalOf_eq_none_iff.trans ⟨fun h => ⟨hw, h⟩, Accepted.valid⟩
  · rename_i hw
    exact iff_of_false (Option.some_ne_none _) fun h => hw h.writable

/-- A tag that may be left out is not refused if it can be written, and is left out or valid. -/
theorem refusalBeside_eq_none_iff {m : TagMap} {t : Text × TagValue} :
    refusalBeside m t = none ↔ t.2.Writable ∧ (m.contains t.1 = false → Valid (spell t)) := by
  unfold refusalBeside
  by_cases hw : t.2.Writable
  · cases hc : m.contains t.1 <;> simp [hw, refusalOf_eq_none_iff]
  · simp [hw]

/-- A tag whose key the map lacks is refused as it is alone. -/
theorem refusalBeside_of_not_contains {m : TagMap} {t : Text × TagValue} (h : m.contains t.1 = false) :
    refusalBeside m t = refusal t := by
  rw [refusalBeside, refusal, h]
  rfl

/-- Adding a spelled tag refuses or inserts it. -/
theorem add_eq (m : TagMap) (t : Text × Text) :
    m.add t.1 t.2 = match refusalOf t with
      | some e => .error e
      | none => .ok (m.insert t.1 t.2) := by
  unfold add refusalOf
  cases validKey t.1 <;> cases validValue t.2 <;> rfl

/-- Adding a tag refuses it or inserts it as it is spelled. -/
theorem addValue_eq (m : TagMap) (t : Text × TagValue) :
    m.addValue t.1 t.2 = match refusal t with
      | some e => .error e
      | none => .ok (m.insert t.1 t.2.spelled) := by
  rw [addValue, TagValue.write_eq, refusal]
  split
  · exact m.add_eq (spell t)
  · rfl

/-- Adding tags ends at the first one that is refused. -/
theorem refusal_addAll (m : TagMap) (tags : List (Text × TagValue)) : (m.addAll tags).refusal = tags.findSome? refusal := by
  induction tags generalizing m with
  | nil => rfl
  | cons t rest ih =>
    rw [addAll, addValue_eq, List.findSome?_cons]
    cases refusal t with
    | some e => rfl
    | none => exact ih _

/-- Tags that are all accepted are all inserted. -/
theorem map_addAll {m : TagMap} {tags : List (Text × TagValue)} (h : tags.findSome? refusal = none) :
    (m.addAll tags).map = m.insertAll (tags.map spell) := by
  induction tags generalizing m with
  | nil => rfl
  | cons t rest ih =>
    rw [List.findSome?_cons] at h
    rw [addAll, addValue_eq]
    cases ht : refusal t with
    | some e =>
      rw [ht] at h
      cases h
    | none =>
      rw [ht] at h
      exact ih h

/-- Adding tags fails with the fault of the first one that is refused, or inserts them all. -/
theorem complete_addAll (m : TagMap) (tags : List (Text × TagValue)) :
    (m.addAll tags).complete = match tags.findSome? refusal with
      | some e => .error e
      | none => .ok (m.insertAll (tags.map spell)) := by
  unfold Written.complete
  rw [refusal_addAll]
  cases h : tags.findSome? refusal with
  | some e => rfl
  | none => exact congrArg Except.ok (map_addAll h)

/-- No tag is refused exactly if all are accepted. -/
theorem findSome?_refusal_eq_none_iff {tags : List (Text × TagValue)} :
    tags.findSome? refusal = none ↔ ∀ t ∈ tags, Accepted t := by
  rw [List.findSome?_eq_none_iff]
  exact forall₂_congr fun _ _ => refusal_eq_none_iff

/-- Adding tags succeeds exactly if all are accepted, and inserts them. -/
theorem complete_addAll_eq_ok_iff {m m' : TagMap} {tags : List (Text × TagValue)} :
    (m.addAll tags).complete = .ok m' ↔ (∀ t ∈ tags, Accepted t) ∧ m' = m.insertAll (tags.map spell) := by
  rw [complete_addAll, ← findSome?_refusal_eq_none_iff]
  cases tags.findSome? refusal with
  | some e => simp
  | none => simp [eq_comm]

/-- Tags whose values are texts are accepted if they are valid. -/
theorem forall_mem_ofTexts_iff {tags : List (Text × Text)} : (∀ t ∈ ofTexts tags, Accepted t) ↔ ∀ t ∈ tags, Valid t := by
  rw [ofTexts, List.forall_mem_map]
  exact forall₂_congr fun t _ => ⟨Accepted.valid, fun h => ⟨trivial, h⟩⟩

/-- Tags whose values are texts are refused as they are spelled. -/
theorem findSome?_refusal_ofTexts (tags : List (Text × Text)) : (ofTexts tags).findSome? refusal = tags.findSome? refusalOf := by
  rw [ofTexts, List.findSome?_map]
  rfl

/-! ## What a reader finds -/

/-- A map contains the keys that have a value. -/
theorem contains_eq (m : TagMap) (k : Text) : m.contains k = (m.find? k).isSome := rfl

/-- A map without keys is the empty one. -/
theorem isEmpty_eq_true_iff {m : TagMap} : m.isEmpty = true ↔ m = empty := by
  obtain ⟨entries, h⟩ := m
  rw [isEmpty, List.isEmpty_iff]
  constructor
  · rintro rfl
    rfl
  · intro e
    exact congrArg TagMap.entries e

/-- A map is empty exactly if no key has a value. -/
theorem eq_empty_iff {m : TagMap} : m = empty ↔ ∀ k, m.find? k = none := by
  constructor
  · rintro rfl k
    rfl
  · intro h
    obtain ⟨entries, hn⟩ := m
    cases entries with
    | nil => rfl
    | cons e rest =>
      have := h e.1
      rw [find?, KeyedList.lookup_eq_none_iff] at this
      exact absurd List.mem_cons_self this

/-- Tags with distinct keys that are inserted win over those of the map. -/
theorem find?_insertAll (m : TagMap) {tags : List (Text × Text)} (h : (tags.map Prod.fst).Nodup) (k : Text) :
    (m.insertAll tags).find? k = (tags.lookup k).or (m.find? k) := by
  induction tags generalizing m with
  | nil => rfl
  | cons t rest ih =>
    obtain ⟨a, v⟩ := t
    obtain ⟨ha, hrest⟩ := List.nodup_cons.1 h
    have step : (m.insertAll ((a, v) :: rest)).find? k = (rest.lookup k).or ((m.insert a v).find? k) := ih _ hrest
    rw [step, find?_insert]
    by_cases hk : k = a
    · subst hk
      rw [KeyedList.lookup_eq_none_iff.2 ha, KeyedList.lookup_cons_self, if_pos rfl]
      rfl
    · rw [KeyedList.lookup_cons_ne hk, if_neg hk]

/-- Tags with distinct keys that are inserted where the map lacks them lose against those of the map. -/
theorem find?_insertAll_missing (m : TagMap) {tags : List (Text × Text)} (h : (tags.map Prod.fst).Nodup) (k : Text) :
    (m.insertAll (tags.filter fun t => !m.contains t.1)).find? k = (m.find? k).or (tags.lookup k) := by
  have hn : ((tags.filter fun t => !m.contains t.1).map Prod.fst).Nodup := (List.filter_sublist.map Prod.fst).nodup h
  rw [find?_insertAll m hn, KeyedList.lookup_filter_key (fun a => !m.contains a), contains_eq]
  cases m.find? k <;> simp

/-- Inserting tags keeps the keys of the map in order and in front. -/
theorem keys_prefix_insertAll (m : TagMap) (tags : List (Text × Text)) : m.keys <+: (m.insertAll tags).keys := by
  induction tags generalizing m with
  | nil => exact List.prefix_refl _
  | cons t rest ih =>
    refine List.IsPrefix.trans ?_ (ih (m.insert t.1 t.2))
    rw [keys_insert]
    split
    · exact List.prefix_refl _
    · exact List.prefix_append _ _

/-- Maps with the same entries are the same. -/
theorem ext_entries {m m' : TagMap} (h : m.entries = m'.entries) : m = m' := by
  obtain ⟨entries, hn⟩ := m
  obtain ⟨entries', hn'⟩ := m'
  cases h
  rfl

/-- A new key is written last. -/
theorem write_of_not_mem {key : Text} (value : Text) {l : List (Text × Text)} (h : key ∉ l.map Prod.fst) :
    write key value l = l ++ [(key, value)] := by
  induction l with
  | nil => rfl
  | cons x rest ih =>
    obtain ⟨hx, hrest⟩ := List.ne_and_not_mem_of_not_mem_cons h
    rw [write, if_neg (Ne.symm hx), ih hrest]
    rfl

/-- Tags with new and distinct keys are inserted last, in their order. -/
theorem entries_insertAll {m : TagMap} {tags : List (Text × Text)} (h : ((m.entries ++ tags).map Prod.fst).Nodup) :
    (m.insertAll tags).entries = m.entries ++ tags := by
  induction tags generalizing m with
  | nil => exact (List.append_nil _).symm
  | cons t rest ih =>
    have ht : t.1 ∉ m.entries.map Prod.fst := by
      rw [List.map_append, List.map_cons, List.nodup_append] at h
      exact fun hm => h.2.2 _ hm t.1 List.mem_cons_self rfl
    have hwrite : (m.insert t.1 t.2).entries = m.entries ++ [t] := write_of_not_mem t.2 ht
    have e : m.entries ++ t :: rest = (m.insert t.1 t.2).entries ++ rest := by rw [hwrite, List.append_cons]
    rw [e] at h ⊢
    exact ih h

/-- Inserting the entries of a map into the empty one gives the map back. -/
theorem insertAll_entries (m : TagMap) : empty.insertAll m.entries = m := ext_entries (entries_insertAll m.nodup)

/-- Inserting tags one after the other. -/
theorem insertAll_append (m : TagMap) (a b : List (Text × Text)) : m.insertAll (a ++ b) = (m.insertAll a).insertAll b :=
  List.foldl_append

/-- Adding two lists of tags one after the other is adding them as one list. -/
theorem complete_addAll_append (m : TagMap) (a b : List (Text × TagValue)) :
    (m.addAll (a ++ b)).complete = (m.addAll a).complete.bind fun m' => (m'.addAll b).complete := by
  rw [complete_addAll, complete_addAll m a, List.findSome?_append]
  cases a.findSome? refusal with
  | some e => rfl
  | none =>
    simp only [Option.none_or, Except.bind]
    rw [complete_addAll, List.map_append, insertAll_append]

/-- Adding the tags whose keys a map lacks, all with other keys, fails with the fault of the first one that is refused beside the tags of
the map, or inserts them. -/
theorem complete_addMissing (m : TagMap) {tags : List (Text × TagValue)} (h : (tags.map Prod.fst).Nodup) :
    (m.addMissing tags).complete = match tags.findSome? (refusalBeside m) with
      | some e => .error e
      | none => .ok (m.insertAll ((tags.filter fun t => !m.contains t.1).map spell)) := by
  induction tags generalizing m with
  | nil => rfl
  | cons t rest ih =>
    obtain ⟨hnew, hrest⟩ := List.nodup_cons.1 h
    rw [addMissing, TagValue.write_eq, List.findSome?_cons, List.filter_cons, refusalBeside]
    by_cases hw : t.2.Writable
    · cases hc : m.contains t.1 with
      | true => simpa [hw, hc, Except.bind] using ih m hrest
      | false =>
        have hadd := m.add_eq (spell t)
        rw [spell] at hadd
        simp only [hw, if_true, Except.bind, Bool.false_eq_true, if_false, hadd]
        cases hr : refusalOf (spell t) with
        | some e =>
          rw [spell] at hr
          simp only [hr]
          rfl
        | none =>
          rw [spell] at hr
          -- What was inserted has a key that none of the other tags has, so they meet what they met before.
          have hsame : ∀ u ∈ rest, (m.insert t.1 t.2.spelled).contains u.1 = m.contains u.1 := by
            intro u hu
            have hne : u.1 ≠ t.1 := fun e => hnew (e ▸ List.mem_map_of_mem hu)
            rw [contains, contains, find?_insert, if_neg hne]
          have hrefusal : rest.findSome? (refusalBeside (m.insert t.1 t.2.spelled)) = rest.findSome? (refusalBeside m) := by
            rw [← List.head?_filterMap, ← List.head?_filterMap]
            exact congrArg List.head? (List.filterMap_congr fun u hu => by rw [refusalBeside, refusalBeside, hsame u hu])
          have hfilter : rest.filter (fun u => !(m.insert t.1 t.2.spelled).contains u.1) = rest.filter fun u => !m.contains u.1 :=
            List.filter_congr fun u hu => by rw [hsame u hu]
          simp only [hr, ih _ hrest, hrefusal, hfilter, Bool.not_false, if_true, List.map_cons]
          rfl
    · simp only [hw, if_false, Except.bind]
      rfl

/-- Adding the tags whose keys a map lacks succeeds exactly if all can be written and those that are not left out are valid, which are
inserted. -/
theorem complete_addMissing_eq_ok_iff {m m' : TagMap} {tags : List (Text × TagValue)} (h : (tags.map Prod.fst).Nodup) :
    (m.addMissing tags).complete = .ok m' ↔
      ((∀ t ∈ tags, t.2.Writable) ∧ ∀ t ∈ tags, m.contains t.1 = false → Valid (spell t)) ∧
        m' = m.insertAll ((tags.filter fun t => !m.contains t.1).map spell) := by
  have hnone : tags.findSome? (refusalBeside m) = none ↔
      (∀ t ∈ tags, t.2.Writable) ∧ ∀ t ∈ tags, m.contains t.1 = false → Valid (spell t) := by
    rw [List.findSome?_eq_none_iff, ← forall₂_and]
    exact forall₂_congr fun _ _ => refusalBeside_eq_none_iff
  rw [complete_addMissing m h, ← hnone]
  cases tags.findSome? (refusalBeside m) with
  | some e => simp
  | none => simp [eq_comm]

/-- Adding the tags whose keys the empty map lacks is adding them all. -/
theorem complete_addMissing_empty {tags : List (Text × TagValue)} (h : (tags.map Prod.fst).Nodup) :
    (empty.addMissing tags).complete = (empty.addAll tags).complete := by
  have hrefusal : refusalBeside empty = refusal := funext fun t => refusalBeside_of_not_contains rfl
  have hall : (tags.filter fun t => !empty.contains t.1) = tags := List.filter_eq_self.2 fun _ _ => rfl
  rw [complete_addMissing empty h, complete_addAll, hrefusal, hall]

/-- If all tags can be written, adding those whose keys a map lacks is adding them without the others. -/
theorem complete_addMissing_of_writable (m : TagMap) {tags : List (Text × TagValue)} (h : (tags.map Prod.fst).Nodup)
    (hw : ∀ t ∈ tags, t.2.Writable) :
    (m.addMissing tags).complete = (m.addAll (tags.filter fun t => !m.contains t.1)).complete := by
  have hrefusal : tags.findSome? (refusalBeside m) = (tags.filter fun t => !m.contains t.1).findSome? refusal := by
    rw [← List.head?_filterMap, ← List.head?_filterMap, List.filterMap_filter]
    refine congrArg List.head? (List.filterMap_congr fun t ht => ?_)
    rw [refusalBeside, refusal, if_pos (hw t ht), if_pos (hw t ht)]
    cases m.contains t.1 <;> rfl
  rw [complete_addMissing m h, complete_addAll, hrefusal]

/-! ## The map that tags make -/

/-- A map that tags make which come one after the other: each key stands where it came first and has the value that it came with
last. -/
structure MadeOf (m : TagMap) (tags : List (Text × Text)) : Prop where
  keys : m.keys = (tags.map Prod.fst).eraseDups
  value : ∀ key, m.find? key = tags.reverse.lookup key

/-- The last value of a key among inserted tags wins over those before it and over that of the map. -/
theorem find?_insertAll_reverse (m : TagMap) (tags : List (Text × Text)) (k : Text) :
    (m.insertAll tags).find? k = (tags.reverse.lookup k).or (m.find? k) := by
  induction tags generalizing m with
  | nil => rfl
  | cons t rest ih =>
    have step : (m.insertAll (t :: rest)).find? k = (rest.reverse.lookup k).or ((m.insert t.1 t.2).find? k) := ih _
    rw [step, find?_insert, List.reverse_cons, List.lookup_append, Option.or_assoc]
    by_cases hk : k = t.1
    · rw [if_pos hk, hk, KeyedList.lookup_cons_self]
      rfl
    · rw [if_neg hk, KeyedList.lookup_cons_ne hk]
      rfl

/-- The keys of tags that are inserted into the empty map, each where it came first. -/
theorem keys_insertAll_empty (tags : List (Text × Text)) : (empty.insertAll tags).keys = (tags.map Prod.fst).eraseDups := by
  rw [← List.reverse_reverse tags]
  induction tags.reverse with
  | nil => rfl
  | cons t before ih =>
    have step : empty.insertAll (before.reverse ++ [t]) = (empty.insertAll before.reverse).insert t.1 t.2 := insertAll_append _ _ _
    rw [List.reverse_cons, step, keys_insert, ih, List.map_append, List.map_singleton, KeyedList.eraseDups_concat]
    simp only [List.mem_eraseDups]

/-- Maps with the same keys in the same order and the same values are the same. -/
theorem ext_find? {m m' : TagMap} (hk : m.keys = m'.keys) (hv : ∀ k, m.find? k = m'.find? k) : m = m' := by
  obtain ⟨l, hl⟩ := m
  obtain ⟨l', hl'⟩ := m'
  refine ext_entries ?_
  simp only [keys, find?] at hk hv ⊢
  induction l generalizing l' with
  | nil => exact (List.map_eq_nil_iff.1 hk.symm).symm
  | cons e rest ih =>
    cases l' with
    | nil => cases hk
    | cons e' rest' =>
      obtain ⟨k, v⟩ := e
      obtain ⟨k', v'⟩ := e'
      obtain ⟨rfl, hrest⟩ := List.cons.inj hk
      obtain ⟨hnew, hdistinct⟩ := List.nodup_cons.1 hl
      obtain ⟨hnew', hdistinct'⟩ := List.nodup_cons.1 hl'
      have hhead := hv k
      rw [KeyedList.lookup_cons_self, KeyedList.lookup_cons_self] at hhead
      rw [Option.some.inj hhead, ih hdistinct rest' hdistinct' hrest]
      intro a
      by_cases ha : a = k
      · rw [ha, KeyedList.lookup_eq_none_iff.2 hnew, KeyedList.lookup_eq_none_iff.2 hnew']
      · have := hv a
        rwa [KeyedList.lookup_cons_ne ha, KeyedList.lookup_cons_ne ha] at this

/-- The map that tags make is what comes of inserting them in order into the empty map. -/
theorem madeOf_iff {m : TagMap} {tags : List (Text × Text)} : MadeOf m tags ↔ m = empty.insertAll tags := by
  have hmade : MadeOf (empty.insertAll tags) tags :=
    ⟨keys_insertAll_empty tags, fun key => by rw [find?_insertAll_reverse, find?_empty, Option.or_none]⟩
  constructor
  · intro h
    exact ext_find? (h.keys.trans hmade.keys.symm) fun k => (h.value k).trans (hmade.value k).symm
  · rintro rfl
    exact hmade

end TagMap

namespace Tagging

/-- The keys of the five well-known tags in the order in which they are written. -/
def wellKnownKeys : List Text := [TagMap.timeKey, idKey, bsKey, countryKey, typeKey]

/-- The tags of a tagging as they are spelled. -/
def spelled (t : Tagging) : List (Text × Text) := t.tags.map TagMap.spell

/-- The key of a field that is set, or none. -/
theorem keys_tag_sublist {α : Type} (key : Text) (value : α → TagValue) (field : Option α) :
    ((tag key value field).map Prod.fst).Sublist [key] := by
  cases field with
  | none => exact List.nil_sublist _
  | some x => exact List.Sublist.refl _

/-- The tags of a tagging have well-known keys in their order. -/
theorem keys_tags_sublist (t : Tagging) : (t.tags.map Prod.fst).Sublist wellKnownKeys := by
  unfold tags
  rw [List.map_append, List.map_append, List.map_append, List.map_append]
  exact ((((keys_tag_sublist _ _ _).append (keys_tag_sublist _ _ _)).append (keys_tag_sublist _ _ _)).append
    (keys_tag_sublist _ _ _)).append (keys_tag_sublist _ _ _)

/-- The tags of a tagging have distinct keys. -/
theorem nodup_keys_tags (t : Tagging) : (t.tags.map Prod.fst).Nodup :=
  (keys_tags_sublist t).nodup (by decide)

/-- The tags of a tagging and those that a map gives, spelled. -/
theorem map_spell_append_given (t : Tagging) (m : TagMap) : (t.tags ++ m.given).map TagMap.spell = t.spelled ++ m.entries := by
  rw [List.map_append, TagMap.given_eq, TagMap.map_spell_ofTexts]
  rfl

/-- The value of a key among the spelled tags of a tagging. -/
theorem lookup_spelled (t : Tagging) (k : Text) : t.spelled.lookup k = (t.tags.lookup k).map TagValue.spelled :=
  TagMap.lookup_map_spell t.tags k

/-- The spelled tags of a tagging have distinct keys. -/
theorem nodup_keys_spelled (t : Tagging) : (t.spelled.map Prod.fst).Nodup := by
  rw [spelled, TagMap.map_fst_spell]
  exact t.nodup_keys_tags

end Tagging
end VesselTraffic
