import VesselTraffic.Proofs.TagBlock.Grammar

/-!
# What lines are parsed to

Lines open groups (`OpenAll`), and the groups spell tags (`SpellAll`) unless one of them is malformed. The parser follows the grammar:
it finds nothing, fails or makes a map exactly if the groups say so, and the map is the one that the tags make (`parse_grammar`).
Where a line ends does not matter, as long as the groups stay the same and in order.
-/

namespace VesselTraffic.TagMap

/-- The groups that lines open, line by line. -/
inductive OpenAll : List Text → List Group → Prop where
  | nil : OpenAll [] []
  | cons {line : Text} {lines : List Text} {gs gs' : List Group} (first : Opens line line gs) (others : OpenAll lines gs') :
    OpenAll (line :: lines) (gs ++ gs')

/-- The tags that groups spell, group by group. -/
inductive SpellAll : List Group → List (Text × Text) → Prop where
  | nil : SpellAll [] []
  | cons {g : Group} {gs : List Group} {tags tags' : List (Text × Text)} (first : Spells g tags) (others : SpellAll gs tags') :
    SpellAll (g :: gs) (tags ++ tags')

/-- The groups of lines are those that they open. -/
theorem flatMap_groups_eq_iff {lines : List Text} {gs : List Group} : lines.flatMap groups = gs ↔ OpenAll lines gs := by
  constructor
  · rintro rfl
    induction lines with
    | nil => exact .nil
    | cons line rest ih => exact .cons (groups_eq_iff.1 rfl) ih
  · intro h
    induction h with
    | nil => rfl
    | cons first others ih => rw [List.flatMap_cons, groups_eq_iff.2 first, ih]

/-- Groups read as the insertion of the tags that they spell. -/
theorem readGroups_of_spellAll {gs : List Group} {tags : List (Text × Text)} (h : SpellAll gs tags) (m : TagMap) :
    m.readGroups gs = .ok (m.insertAll tags) := by
  induction h generalizing m with
  | nil => rfl
  | @cons g gs ts tags first others ih =>
    rw [readGroups, readGroup_of_spells first, insertAll_append]
    exact ih (m.insertAll ts)

/-- Groups with a malformed one among them cannot be read. -/
theorem readGroups_of_malformed {gs : List Group} (h : ∃ g ∈ gs, Malformed g) (m : TagMap) : ∃ e, m.readGroups gs = .error e := by
  induction gs generalizing m with
  | nil =>
    obtain ⟨g, hg, -⟩ := h
    cases hg
  | cons g rest ih =>
    rw [readGroups]
    rcases malformed_or_spells g with hg | ⟨tags, hg⟩
    · obtain ⟨e, he⟩ := readGroup_of_malformed hg m
      rw [he]
      exact ⟨e, rfl⟩
    · rw [readGroup_of_spells hg]
      refine ih ?_ (m.insertAll tags)
      obtain ⟨x, hx, hm⟩ := h
      rcases List.mem_cons.1 hx with rfl | hx
      · -- A malformed group spells nothing, for it cannot be read.
        obtain ⟨e, he⟩ := readGroup_of_malformed hm m
        rw [readGroup_of_spells hg] at he
        cases he
      · exact ⟨x, hx, hm⟩

/-- Groups have a malformed one among them, or all spell tags. -/
theorem malformed_or_spellAll (gs : List Group) : (∃ g ∈ gs, Malformed g) ∨ ∃ tags, SpellAll gs tags := by
  induction gs with
  | nil => exact Or.inr ⟨[], .nil⟩
  | cons g rest ih =>
    rcases malformed_or_spells g with hg | ⟨tags, hg⟩
    · exact Or.inl ⟨g, List.mem_cons_self, hg⟩
    · rcases ih with ⟨x, hx, hm⟩ | ⟨tags', ht⟩
      · exact Or.inl ⟨x, List.mem_cons_of_mem g hx, hm⟩
      · exact Or.inr ⟨tags ++ tags', .cons hg ht⟩

/-- Parsing reads all groups at the front of the lines into the empty map, if there are any. -/
theorem parse_eq (lines : List Text) :
    parse lines = if lines.flatMap groups = [] then .ok none else (empty.readGroups (lines.flatMap groups)).map some := by
  unfold parse
  split
  · rename_i h
    rw [if_pos h]
  · rename_i h
    rw [if_neg h]

/-- Lines whose groups all spell tags read as the map that the tags make. -/
theorem parse_of_spellAll {lines : List Text} {tags : List (Text × Text)} (h : SpellAll (lines.flatMap groups) tags) :
    parse lines = .ok (if lines.flatMap groups = [] then none else some (empty.insertAll tags)) := by
  rw [parse_eq, readGroups_of_spellAll h]
  split <;> rfl

/-- Lines with a malformed group cannot be parsed. -/
theorem parse_of_malformed {lines : List Text} (h : ∃ g ∈ lines.flatMap groups, Malformed g) : ∃ e, parse lines = .error e := by
  obtain ⟨e, he⟩ := readGroups_of_malformed h empty
  obtain ⟨g, hg, -⟩ := h
  rw [parse_eq, if_neg (List.ne_nil_of_mem hg), he]
  exact ⟨e, rfl⟩

/-- Lines are parsed to nothing exactly if they have no groups. -/
theorem parse_eq_ok_none_iff {lines : List Text} : parse lines = .ok none ↔ lines.flatMap groups = [] := by
  constructor
  · intro h
    rw [parse_eq] at h
    split at h
    · assumption
    · cases hr : empty.readGroups (lines.flatMap groups) <;> rw [hr] at h <;> cases h
  · intro h
    rw [parse_eq, if_pos h]

/-- Lines cannot be parsed exactly if one of their groups is malformed. -/
theorem exists_parse_eq_error_iff {lines : List Text} :
    (∃ e, parse lines = .error e) ↔ ∃ g ∈ lines.flatMap groups, Malformed g := by
  constructor
  · rintro ⟨e, he⟩
    refine (malformed_or_spellAll _).resolve_right ?_
    rintro ⟨tags, ht⟩
    rw [parse_of_spellAll ht] at he
    cases he
  · exact parse_of_malformed

/-- The groups of lines that can be parsed spell the tags of the map that is read, or none if there are no groups. -/
theorem spellAll_of_parse {lines : List Text} {read : Option TagMap} (h : parse lines = .ok read) :
    ∃ tags, SpellAll (lines.flatMap groups) tags ∧ read.getD empty = empty.insertAll tags := by
  rcases malformed_or_spellAll (lines.flatMap groups) with hm | ⟨tags, ht⟩
  · obtain ⟨e, he⟩ := parse_of_malformed hm
    rw [he] at h
    cases h
  · refine ⟨tags, ht, ?_⟩
    rw [parse_of_spellAll ht] at h
    rw [← Except.ok.inj h]
    split
    · rename_i hnil
      rw [hnil] at ht
      cases ht
      rfl
    · rfl

/-- Lines are parsed to the map that their tags make, exactly if they have groups and all of them spell tags. -/
theorem parse_eq_ok_some_iff {lines : List Text} {m : TagMap} :
    parse lines = .ok (some m) ↔
      lines.flatMap groups ≠ [] ∧ ∃ tags, SpellAll (lines.flatMap groups) tags ∧ MadeOf m tags := by
  constructor
  · intro h
    refine ⟨fun hnil => ?_, ?_⟩
    · rw [parse_eq_ok_none_iff.2 hnil] at h
      cases h
    · obtain ⟨tags, ht, hm⟩ := spellAll_of_parse h
      exact ⟨tags, ht, madeOf_iff.2 hm⟩
  · rintro ⟨hne, tags, ht, hm⟩
    rw [parse_of_spellAll ht, if_neg hne, madeOf_iff.1 hm]

/-- What is read from groups depends on their texts alone, a fault apart. -/
theorem toOption_readGroups_congr {gs gs' : List Group} (h : gs.map Group.text? = gs'.map Group.text?) (m : TagMap) :
    (m.readGroups gs).toOption = (m.readGroups gs').toOption := by
  induction gs generalizing gs' m with
  | nil => rw [List.map_eq_nil_iff.1 h.symm]
  | cons g rest ih =>
    cases gs' with
    | nil => cases h
    | cons g' rest' =>
      obtain ⟨hg, hrest⟩ := List.cons.inj h
      rw [readGroups, readGroups]
      cases g with
      | unterminated line =>
        cases g' with
        | unterminated line' => rfl
        | closed text' => cases hg
      | closed text =>
        cases g' with
        | unterminated line' => cases hg
        | closed text' =>
          rw [← Option.some.inj hg]
          cases m.readGroup (.closed text) with
          | error e => rfl
          | ok m' => exact ih hrest m'

/-- What lines are parsed to depends on the texts of their groups alone, a fault apart. -/
theorem toOption_parse_congr {lines others : List Text}
    (h : (others.flatMap groups).map Group.text? = (lines.flatMap groups).map Group.text?) :
    (parse others).toOption = (parse lines).toOption := by
  have hnil : others.flatMap groups = [] ↔ lines.flatMap groups = [] := by
    rw [← List.map_eq_nil_iff (f := Group.text?), h, List.map_eq_nil_iff]
  have hsome : ∀ x : Except TagFault TagMap, (x.map some).toOption = x.toOption.map some := by
    intro x
    cases x <;> rfl
  rw [parse_eq, parse_eq]
  by_cases hl : lines.flatMap groups = []
  · rw [if_pos hl, if_pos (hnil.2 hl)]
  · rw [if_neg hl, if_neg (fun ho => hl (hnil.1 ho)), hsome, hsome, toOption_readGroups_congr h]

/-- A text opens the same groups whatever line an unterminated one is said to be of. -/
theorem Opens.map_text? {line line' t : Text} {gs gs' : List Group} (h : Opens line t gs) (h' : Opens line' t gs') :
    gs.map Group.text? = gs'.map Group.text? := by
  rw [← h'.groupsFrom_eq]
  induction h generalizing gs' with
  | nothing front =>
    rw [groupsFrom_none_eq_nil line' front]
  | unterminated open_end =>
    rw [(Opens.unterminated open_end : Opens line' _ _).groupsFrom_eq]
    rfl
  | @closed t rest gs inside behind ih =>
    obtain ⟨rest', hr⟩ := exists_opens line' rest
    rw [(Opens.closed inside hr).groupsFrom_eq, List.map_cons, List.map_cons, ih hr, hr.groupsFrom_eq]

/-- Moving the first group of a line to a line of its own moves no group. -/
theorem map_text?_flatMap_groups_move (before after : List Text) {front : Text} (h : '\\' ∉ front) (rest : Text) :
    ((before ++ ('\\' :: (front ++ ['\\'])) :: rest :: after).flatMap groups).map Group.text? =
      ((before ++ ('\\' :: (front ++ '\\' :: rest)) :: after).flatMap groups).map Group.text? := by
  obtain ⟨gs, hgs⟩ := exists_opens rest rest
  obtain ⟨gs', hgs'⟩ := exists_opens ('\\' :: (front ++ '\\' :: rest)) rest
  have hfirst : groups ('\\' :: (front ++ ['\\'])) = [.closed front] := groups_eq_iff.2 (.closed h (.nothing (by simp)))
  have hwhole : groups ('\\' :: (front ++ '\\' :: rest)) = .closed front :: gs' := groups_eq_iff.2 (.closed h hgs')
  simp only [List.flatMap_append, List.flatMap_cons, hfirst, hwhole, groups_eq_iff.2 hgs, List.map_append, List.map_cons,
    hgs.map_text? hgs', List.cons_append, List.nil_append]

/-- What lines of text are parsed to.

* Nothing, exactly if no line starts with a backslash.
* A fault, exactly if some line opens a malformed group.
* Else the map that the tags of all groups make, in the order of lines, groups and fields.

A fault apart, it is known by the texts of the groups in order; so the first group of a line may as well stand on a line of its own
just before. -/
theorem parse_grammar (lines : List Text) :
    (parse lines = .ok none ↔ ∀ line ∈ lines, line.head? ≠ some '\\') ∧
      ((∃ e, parse lines = .error e) ↔ ∃ line ∈ lines, ∃ gs, Opens line line gs ∧ ∃ g ∈ gs, Malformed g) ∧
      (∀ m, parse lines = .ok (some m) ↔
        (∃ line ∈ lines, line.head? = some '\\') ∧ ∃ gs tags, OpenAll lines gs ∧ SpellAll gs tags ∧ MadeOf m tags) ∧
      (∀ others gs gs', OpenAll lines gs → OpenAll others gs' → gs'.map Group.text? = gs.map Group.text? →
        (parse others).toOption = (parse lines).toOption) ∧
      ∀ before front rest after, lines = before ++ ('\\' :: (front ++ '\\' :: rest)) :: after → '\\' ∉ front →
        (parse (before ++ ('\\' :: (front ++ ['\\'])) :: rest :: after)).toOption = (parse lines).toOption := by
  have hnil : lines.flatMap groups = [] ↔ ∀ line ∈ lines, line.head? ≠ some '\\' := by
    rw [List.flatMap_eq_nil_iff]
    exact forall₂_congr fun line _ => groups_eq_nil_iff
  have hmalformed : (∃ g ∈ lines.flatMap groups, Malformed g) ↔ ∃ line ∈ lines, ∃ gs, Opens line line gs ∧ ∃ g ∈ gs, Malformed g := by
    constructor
    · rintro ⟨g, hg, hm⟩
      obtain ⟨line, hl, hg⟩ := List.mem_flatMap.1 hg
      exact ⟨line, hl, groups line, groups_eq_iff.1 rfl, g, hg, hm⟩
    · rintro ⟨line, hl, gs, ho, g, hg, hm⟩
      exact ⟨g, List.mem_flatMap.2 ⟨line, hl, groups_eq_iff.2 ho ▸ hg⟩, hm⟩
  have hsome : lines.flatMap groups ≠ [] ↔ ∃ line ∈ lines, line.head? = some '\\' := by
    simp only [ne_eq, hnil, Classical.not_forall, Classical.not_not, exists_prop]
  refine ⟨?_, ?_, ?_, ?_, ?_⟩
  · rw [← hnil]
    exact parse_eq_ok_none_iff
  · rw [← hmalformed]
    exact exists_parse_eq_error_iff
  · intro m
    rw [← hsome, parse_eq_ok_some_iff]
    refine and_congr_right fun _ => ?_
    constructor
    · rintro ⟨tags, ht, hm⟩
      exact ⟨_, tags, flatMap_groups_eq_iff.1 rfl, ht, hm⟩
    · rintro ⟨gs, tags, ho, ht, hm⟩
      rw [flatMap_groups_eq_iff.2 ho]
      exact ⟨tags, ht, hm⟩
  · intro others gs gs' ho ho' htexts
    rw [← flatMap_groups_eq_iff.2 ho, ← flatMap_groups_eq_iff.2 ho'] at htexts
    exact toOption_parse_congr htexts
  · rintro before front rest after rfl hfront
    exact toOption_parse_congr (map_text?_flatMap_groups_move before after hfront rest)

end VesselTraffic.TagMap
