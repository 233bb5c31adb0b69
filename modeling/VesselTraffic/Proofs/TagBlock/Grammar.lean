import VesselTraffic.Proofs.TagBlock.Writing
import VesselTraffic.TagBlock.Parse

/-!
# The grammar of tag blocks

What the reader of tag blocks accepts, said without the reader. `Opens` is the run of groups at the front of a line. `Spells` says
which tags a group stands for: their fields `key:value` joined by commas, a star that is the last one, and the checksum of the fields
in upper or lower case. `Malformed` lists what can be wrong with a group. A group is malformed or spells tags
(`malformed_or_spells`), and the reader fails on the one and inserts the tags of the other (`readGroup_of_malformed`,
`readGroup_of_spells`).
-/

namespace VesselTraffic

/-- The text of a group that has an end. -/
def Group.text? : Group → Option Text
  | closed text => some text
  | unterminated _ => none

namespace TagMap

/-! ## The groups at the front of a line -/

/-- The groups that the front of a text opens, one behind the other: up to a text that does not start with a backslash, or up to a
backslash that no other one closes, which is a group without an end of the line. -/
inductive Opens (line : Text) : Text → List Group → Prop where
  | nothing {t : Text} (front : t.head? ≠ some '\\') : Opens line t []
  | unterminated {t : Text} (open_end : '\\' ∉ t) : Opens line ('\\' :: t) [.unterminated line]
  | closed {t rest : Text} {gs : List Group} (inside : '\\' ∉ t) (behind : Opens line rest gs) :
    Opens line ('\\' :: (t ++ '\\' :: rest)) (.closed t :: gs)

/-- A group reaches to the next backslash. -/
theorem groupsFrom_some_append (line inside : Text) {t : Text} (h : '\\' ∉ t) (rest : Text) :
    groupsFrom line (some inside) (t ++ '\\' :: rest) =
      .closed (inside.reverse ++ t) :: groupsFrom line none rest := by
  induction t generalizing inside with
  | nil => simp [groupsFrom]
  | cons c t ih =>
    obtain ⟨hc, ht⟩ := List.ne_and_not_mem_of_not_mem_cons h
    rw [List.cons_append, groupsFrom, if_neg (Ne.symm hc), ih (c :: inside) ht]
    simp

/-- A group without another backslash is not terminated. -/
theorem groupsFrom_some_unterminated (line inside : Text) {t : Text} (h : '\\' ∉ t) :
    groupsFrom line (some inside) t = [.unterminated line] := by
  induction t generalizing inside with
  | nil => rfl
  | cons c t ih =>
    obtain ⟨hc, ht⟩ := List.ne_and_not_mem_of_not_mem_cons h
    rw [groupsFrom, if_neg (Ne.symm hc)]
    exact ih (c :: inside) ht

/-- A text that does not start with a backslash opens no group. -/
theorem groupsFrom_none_eq_nil (line : Text) {t : Text} (h : t.head? ≠ some '\\') : groupsFrom line none t = [] := by
  cases t with
  | nil => rfl
  | cons c rest =>
    rw [groupsFrom, if_neg]
    exact fun hc => h (congrArg some hc)

/-- The scanner finds the groups that a text opens. -/
theorem Opens.groupsFrom_eq {line t : Text} {gs : List Group} (h : Opens line t gs) : groupsFrom line none t = gs := by
  induction h with
  | nothing front => exact groupsFrom_none_eq_nil line front
  | unterminated open_end =>
    rw [groupsFrom, if_pos rfl]
    exact groupsFrom_some_unterminated line [] open_end
  | closed inside behind ih =>
    rw [groupsFrom, if_pos rfl, groupsFrom_some_append line [] inside, ih]
    rfl

/-- Every text opens some groups. -/
theorem exists_opens (line t : Text) : ∃ gs, Opens line t gs := by
  induction ht : t.length using Nat.strongRecOn generalizing t with
  | ind n ih =>
    by_cases front : t.head? = some '\\'
    · obtain ⟨t, rfl⟩ : ∃ rest, t = '\\' :: rest := List.head?_eq_some_iff.1 front
      cases hcut : Text.cutFirst '\\' t with
      | none => exact ⟨_, .unterminated (Text.cutFirst_eq_none_iff.1 hcut)⟩
      | some p =>
        obtain ⟨rfl, inside⟩ := Text.cutFirst_eq_some (a := p.1) (b := p.2) hcut
        simp only [List.length_cons, List.length_append] at ht
        obtain ⟨gs, behind⟩ := ih p.2.length (by omega) p.2 rfl
        exact ⟨_, .closed inside behind⟩
    · exact ⟨[], .nothing front⟩

/-- The groups of a line are those that it opens. -/
theorem groups_eq_iff {line : Text} {gs : List Group} : groups line = gs ↔ Opens line line gs := by
  constructor
  · rintro rfl
    obtain ⟨gs, h⟩ := exists_opens line line
    rw [groups, h.groupsFrom_eq]
    exact h
  · exact Opens.groupsFrom_eq

/-- The texts of the groups that a text opens have no backslash. -/
theorem Opens.backslash_not_mem {line t : Text} {gs : List Group} (h : Opens line t gs) {u : Text} (hu : Group.closed u ∈ gs) :
    '\\' ∉ u := by
  induction h with
  | nothing front => cases hu
  | unterminated open_end => cases List.mem_singleton.1 hu
  | closed inside behind ih =>
    rcases List.mem_cons.1 hu with hu | hu
    · exact Group.closed.inj hu ▸ inside
    · exact ih hu

/-- A line opens no group exactly if it does not start with a backslash. -/
theorem groups_eq_nil_iff {line : Text} : groups line = [] ↔ line.head? ≠ some '\\' := by
  rw [groups_eq_iff]
  constructor
  · rintro ⟨front⟩
    exact front
  · exact .nothing

/-! ## What a group stands for -/

/-- A tag that a field can spell: its key is not empty and has no colon, and its field has no comma. -/
structure FieldTag (t : Text × Text) : Prop where
  key_ne_nil : t.1 ≠ []
  colon_key : ':' ∉ t.1
  comma : ',' ∉ fieldText t

/-- A field that spells no tag: it has no colon, or its key is empty. -/
def BadField (field : Text) : Prop := ':' ∉ field ∨ field.head? = some ':'

/-- The tags that a group spells. The last star of the group parts the fields from the checksum, whose letters may be in lower case. -/
inductive Spells : Group → List (Text × Text) → Prop where
  | mk {tags : List (Text × Text)} {given : Text} (fields : ∀ t ∈ tags, FieldTag t) (star : '*' ∉ given)
    (sum : given.upper = checksum ([','].intercalate (tags.map fieldText))) :
    Spells (.closed ([','].intercalate (tags.map fieldText) ++ '*' :: given)) tags

/-- What is wrong with a group: it has no end, it has no star, its checksum is another one, or one of its fields spells no tag. A
group with nothing in front of its last star has no fields. -/
inductive Malformed : Group → Prop where
  | unterminated (line : Text) : Malformed (.unterminated line)
  | starless {text : Text} (star : '*' ∉ text) : Malformed (.closed text)
  | mismatch {body given : Text} (star : '*' ∉ given) (sum : given.upper ≠ checksum body) :
    Malformed (.closed (body ++ '*' :: given))
  | field {fields : List Text} {given field : Text} (star : '*' ∉ given) (comma : ∀ f ∈ fields, ',' ∉ f)
    (body : [','].intercalate fields ≠ []) (mem : field ∈ fields) (bad : BadField field) :
    Malformed (.closed ([','].intercalate fields ++ '*' :: given))

/-- A field is read as the tag that it spells. -/
theorem FieldTag.cutFirst {t : Text × Text} (h : FieldTag t) : Text.cutFirst ':' (fieldText t) = some t :=
  Text.cutFirst_append t.2 h.colon_key

/-- A field without commas is bad or spells a tag. -/
theorem badField_or_fieldTag {field : Text} (hc : ',' ∉ field) : BadField field ∨ ∃ t, FieldTag t ∧ fieldText t = field := by
  cases hcut : Text.cutFirst ':' field with
  | none => exact Or.inl (Or.inl (Text.cutFirst_eq_none_iff.1 hcut))
  | some t =>
    obtain ⟨rfl, hcolon⟩ := Text.cutFirst_eq_some (a := t.1) (b := t.2) hcut
    by_cases hk : t.1 = []
    · exact Or.inl (Or.inr (by rw [hk]; rfl))
    · exact Or.inr ⟨t, ⟨hk, hcolon, hc⟩, rfl⟩

/-- Fields that spell tags read as the insertion of the tags. -/
theorem readFields_map_fieldText (m : TagMap) {tags : List (Text × Text)} (h : ∀ t ∈ tags, FieldTag t) :
    m.readFields (tags.map fieldText) = .ok (m.insertAll tags) := by
  induction tags generalizing m with
  | nil => rfl
  | cons t rest ih =>
    have ht := h t List.mem_cons_self
    rw [List.map_cons, readFields, ht.cutFirst]
    simp only [if_neg ht.key_ne_nil]
    exact ih (m.insert t.1 t.2) fun u hu => h u (List.mem_cons_of_mem t hu)

/-- Fields with a bad one among them cannot be read. -/
theorem readFields_of_badField (m : TagMap) {fields : List Text} {field : Text} (hf : field ∈ fields) (hb : BadField field) :
    ∃ e, m.readFields fields = .error e := by
  induction fields generalizing m with
  | nil => cases hf
  | cons first rest ih =>
    rw [readFields]
    cases hcut : Text.cutFirst ':' first with
    | none => exact ⟨_, rfl⟩
    | some t =>
      by_cases hk : t.1 = []
      · exact ⟨_, if_pos hk⟩
      · simp only [if_neg hk]
        rcases List.mem_cons.1 hf with rfl | hf
        · -- This field has a colon behind its key, so it is not the bad one.
          obtain ⟨hfield, hcolon⟩ := Text.cutFirst_eq_some (a := t.1) (b := t.2) hcut
          obtain ⟨c, key, hkey⟩ := List.exists_cons_of_ne_nil hk
          rw [hkey] at hfield hcolon
          rw [hfield] at hb
          rcases hb with hb | hb
          · exact absurd (by simp) hb
          · exact absurd (Option.some.inj hb) fun hc => hcolon (hc ▸ List.mem_cons_self)
        · exact ih _ hf

/-- Fields without commas and without a bad one among them spell tags. -/
theorem exists_tags_of_fields {fields : List Text} (hc : ∀ f ∈ fields, ',' ∉ f) (hb : ∀ f ∈ fields, ¬BadField f) :
    ∃ tags : List (Text × Text), (∀ t ∈ tags, FieldTag t) ∧ tags.map fieldText = fields := by
  induction fields with
  | nil => exact ⟨[], fun t ht => absurd ht List.not_mem_nil, rfl⟩
  | cons f rest ih =>
    obtain ⟨tags, htags, hmap⟩ := ih (fun g hg => hc g (List.mem_cons_of_mem f hg)) fun g hg => hb g (List.mem_cons_of_mem f hg)
    obtain ⟨t, ht, hf⟩ := (badField_or_fieldTag (hc f List.mem_cons_self)).resolve_left (hb f List.mem_cons_self)
    exact ⟨t :: tags, List.forall_mem_cons.2 ⟨ht, htags⟩, by rw [List.map_cons, hf, hmap]⟩

/-- Tags have no fields exactly if there are none. -/
theorem intercalate_fieldText_eq_nil_iff {tags : List (Text × Text)} : [','].intercalate (tags.map fieldText) = [] ↔ tags = [] := by
  cases tags with
  | nil => simp
  | cons t rest => cases rest <;> simp [fieldText]

/-- The pieces of a text between its commas have no comma. -/
theorem comma_not_mem_of_mem_splitOn {body f : Text} (hf : f ∈ body.splitOn ',') : ',' ∉ f := by
  induction body generalizing f with
  | nil =>
    rw [List.splitOn_nil, List.mem_singleton] at hf
    simp [hf]
  | cons c rest ih =>
    rw [List.splitOn_cons_eq_if_modifyHead] at hf
    split at hf
    · rcases List.mem_cons.1 hf with rfl | hf
      · exact List.not_mem_nil
      · exact ih hf
    · rename_i hcomma
      obtain ⟨p, ps, hps⟩ := List.exists_cons_of_ne_nil (List.splitOn_ne_nil ',' rest)
      rw [hps, List.modifyHead_cons] at hf
      rcases List.mem_cons.1 hf with rfl | hf
      · rw [List.mem_cons, not_or]
        exact ⟨fun e => hcomma (by simp [← e]), ih (by rw [hps]; exact List.mem_cons_self)⟩
      · exact ih (by rw [hps]; exact List.mem_cons_of_mem _ hf)

/-- A text is fields without commas that are joined by commas. -/
theorem exists_fields (body : Text) : ∃ fields, [','].intercalate fields = body ∧ ∀ f ∈ fields, ',' ∉ f :=
  ⟨body.splitOn ',', List.intercalate_splitOn ',', fun _ => comma_not_mem_of_mem_splitOn⟩

/-- A group is malformed or spells tags. -/
theorem malformed_or_spells (g : Group) : Malformed g ∨ ∃ tags, Spells g tags := by
  cases g with
  | unterminated line => exact Or.inl (.unterminated line)
  | closed text =>
    cases hcut : Text.cutLast '*' text with
    | none => exact Or.inl (.starless (Text.cutLast_eq_none_iff.1 hcut))
    | some p =>
      obtain ⟨body, given⟩ := p
      obtain ⟨rfl, star⟩ := Text.cutLast_eq_some hcut
      by_cases sum : given.upper = checksum body
      · by_cases hbody : body = []
        · subst hbody
          exact Or.inr ⟨[], .mk (fun t ht => absurd ht List.not_mem_nil) star sum⟩
        · obtain ⟨fields, rfl, hcomma⟩ := exists_fields body
          by_cases hbad : ∃ f ∈ fields, BadField f
          · obtain ⟨f, hf, hb⟩ := hbad
            exact Or.inl (.field star hcomma hbody hf hb)
          · obtain ⟨tags, htags, rfl⟩ := exists_tags_of_fields hcomma fun f hf hb => hbad ⟨f, hf, hb⟩
            exact Or.inr ⟨tags, .mk htags star sum⟩
      · exact Or.inl (.mismatch star sum)

/-- A group reads as the insertion of the tags that it spells. -/
theorem readGroup_of_spells {g : Group} {tags : List (Text × Text)} (h : Spells g tags) (m : TagMap) :
    m.readGroup g = .ok (m.insertAll tags) := by
  cases h with
  | mk fields star sum =>
    rw [readGroup, Text.cutLast_append _ star]
    simp only [sum, ne_eq, not_true_eq_false, if_false]
    by_cases hnil : tags = []
    · rw [if_pos (intercalate_fieldText_eq_nil_iff.2 hnil), hnil]
      rfl
    · have hcomma : ∀ f ∈ tags.map fieldText, ',' ∉ f := by
        intro f hf
        obtain ⟨t, ht, rfl⟩ := List.mem_map.1 hf
        exact (fields t ht).comma
      rw [if_neg (fun e => hnil (intercalate_fieldText_eq_nil_iff.1 e)),
        List.splitOn_intercalate ',' hcomma (fun e => hnil (List.map_eq_nil_iff.1 e))]
      exact readFields_map_fieldText m fields

/-- A malformed group cannot be read. -/
theorem readGroup_of_malformed {g : Group} (h : Malformed g) (m : TagMap) : ∃ e, m.readGroup g = .error e := by
  cases h with
  | unterminated line => exact ⟨_, rfl⟩
  | starless star =>
    rw [readGroup, Text.cutLast_eq_none_iff.2 star]
    exact ⟨_, rfl⟩
  | mismatch star sum =>
    rw [readGroup, Text.cutLast_append _ star]
    exact ⟨_, if_pos sum⟩
  | @field fields given field star comma body mem bad =>
    rw [readGroup, Text.cutLast_append _ star]
    simp only [if_neg body, List.splitOn_intercalate ',' comma (List.ne_nil_of_mem mem)]
    split
    · exact ⟨_, rfl⟩
    · exact readFields_of_badField m mem bad

end TagMap
end VesselTraffic
