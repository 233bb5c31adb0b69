import VesselTraffic.Proofs.Retagging.Replacing

/-!
# Reading a tagging off the packet it was written into

What is read off the tags of a tagging is known for every tagging (`ofTags_insertAll_spelled`): the texts as they were, a base station if
it is not too long to be read, and the time rounded down to seconds, which are taken for milliseconds from `millisFrom` on. So with a time
and a base station within these limits a tagging is read back up to the rounding from the packet whose first line is its block, and as
rounding changes none of its tags (`tags_toSeconds`), what was read is written as the same block again (`ofPacket_written`).
-/

namespace VesselTraffic

namespace Packet

/-- A packet of a block and a line with a sentence has the tags of the block. -/
theorem tags?_encode {m : TagMap} (hm : m.Legible) (hblock : '\n' ∉ m.encode) {line : Text} (hline : '\n' ∉ line)
    (hfront : line.head? ≠ some '\\') (hsentence : Sentence.find? line ≠ none) (received : Int) :
    (Packet.mk (m.encode ++ Sentence.lineBreak ++ line) received).tags? = some m := by
  have hne : line ≠ [] := by
    rintro rfl
    exact hsentence rfl
  have hlines : (Packet.mk line received).lines = [line] := by
    rw [lines, breakLines_of_not_mem hline, List.filter_cons_of_pos (by simpa using hne)]
    rfl
  have hgroups : (Packet.mk line received).lines.flatMap TagMap.groups = [] := by
    refine TagMap.flatMap_groups_eq_nil fun l hl => ?_
    rw [hlines, List.mem_singleton] at hl
    exact hl ▸ hfront
  have hsentences : (Packet.mk line received).sentences ≠ [] := by
    obtain ⟨s, hs⟩ := Option.ne_none_iff_exists'.1 hsentence
    rw [sentences, hlines, List.filterMap_cons, hs]
    exact List.cons_ne_nil _ _
  have hframe := frame?_encode hm hblock line received
  rw [hgroups, TagMap.readGroups] at hframe
  simp only [frameOf, if_neg fun h => hsentences (List.append_eq_nil_iff.1 h).2] at hframe
  exact tags?_of_frame? hframe

end Packet

namespace Tagging

open TagMap

/-- The tagging with its time rounded down to the second. -/
def toSeconds (t : Tagging) : Tagging := { t with timestamp := t.timestamp.map fun ms => ms / 1000 * 1000 }

/-- The texts that a tagging holds. -/
def texts (t : Tagging) : List Text := t.sourceId.toList ++ t.sourceCountry.toList ++ t.sourceType.toList

/-- Rounding the time changes no tag, as times are written in seconds. -/
theorem tags_toSeconds (t : Tagging) : t.toSeconds.tags = t.tags := by
  have hround : ∀ ms : Int, ms / 1000 * 1000 / 1000 = ms / 1000 := by omega
  obtain ⟨time, id, bs, country, type⟩ := t
  cases time with
  | none => rfl
  | some ms => simp only [toSeconds, tags, tag, Option.map_some, hround]

/-- A field that is set has its tag. -/
theorem mem_tag_iff {α : Type} {key : Text} {value : α → TagValue} {field : Option α} {e : Text × TagValue} :
    e ∈ tag key value field ↔ ∃ x ∈ field, e = (key, value x) := by
  cases field <;> simp [tag]

/-- The value of a tag is the time in seconds, the base station or a text of the tagging. -/
theorem value_of_mem_tags {t : Tagging} {e : Text × TagValue} (h : e ∈ t.tags) :
    (∃ ms ∈ t.timestamp, e.2 = .integer (ms / 1000)) ∨ (∃ n ∈ t.sourceBs, e.2 = .integer n) ∨ ∃ text ∈ t.texts, e.2 = .text text := by
  simp only [tags, List.mem_append, mem_tag_iff] at h
  simp only [texts, List.mem_append, Option.mem_toList]
  rcases h with ((((⟨ms, hms, rfl⟩ | ⟨v, hv, rfl⟩) | ⟨n, hn, rfl⟩) | ⟨v, hv, rfl⟩) | ⟨v, hv, rfl⟩)
  · exact Or.inl ⟨ms, hms, rfl⟩
  · exact Or.inr (Or.inr ⟨v, Or.inl (Or.inl hv), rfl⟩)
  · exact Or.inr (Or.inl ⟨n, hn, rfl⟩)
  · exact Or.inr (Or.inr ⟨v, Or.inl (Or.inr hv), rfl⟩)
  · exact Or.inr (Or.inr ⟨v, Or.inr hv, rfl⟩)

/-- The tags of a tagging are accepted if its integers can be written and its texts have neither commas nor backslashes. -/
theorem accepted_of_mem_tags {t : Tagging} (htime : ∀ ms ∈ t.timestamp, Number.Readable (ms / 1000))
    (hstation : ∀ n ∈ t.sourceBs, Number.Readable n) (htexts : ∀ text ∈ t.texts, ',' ∉ text ∧ '\\' ∉ text)
    {e : Text × TagValue} (he : e ∈ t.tags) : Accepted e := by
  have hkeys : ∀ key ∈ wellKnownKeys, validKey key = true := by decide
  have hkey : validKey e.1 = true := hkeys e.1 ((keys_tags_sublist t).subset (List.mem_map_of_mem he))
  have hinteger : ∀ n, Number.Readable n → e.2 = .integer n → Accepted e := by
    intro n hn hv
    rw [← Prod.mk.eta (p := e), hv]
    exact ⟨hn, hkey, validValue_ofInt n⟩
  rcases value_of_mem_tags he with ⟨ms, hms, hv⟩ | ⟨n, hn, hv⟩ | ⟨text, htext, hv⟩
  · exact hinteger _ (htime ms hms) hv
  · exact hinteger n (hstation n hn) hv
  · rw [← Prod.mk.eta (p := e), hv]
    exact ⟨trivial, hkey, validValue_iff.2 (htexts text htext)⟩

/-- The spelled tags of a tagging have no line feed if its texts have none. -/
theorem lineFeed_not_mem_of_mem_spelled {t : Tagging} (h : ∀ text ∈ t.texts, '\n' ∉ text) {e : Text × Text} (he : e ∈ t.spelled) :
    '\n' ∉ e.1 ∧ '\n' ∉ e.2 := by
  obtain ⟨u, hu, rfl⟩ := List.mem_map.1 he
  have hkey : ∀ key ∈ wellKnownKeys, '\n' ∉ key := by decide
  refine ⟨hkey u.1 ((keys_tags_sublist t).subset (List.mem_map_of_mem hu)), ?_⟩
  rw [spell]
  rcases value_of_mem_tags hu with ⟨ms, -, hv⟩ | ⟨n, -, hv⟩ | ⟨text, htext, hv⟩ <;> rw [hv, TagValue.spelled]
  · exact Text.not_mem_ofInt (by decide) (by decide) _
  · exact Text.not_mem_ofInt (by decide) (by decide) n
  · exact h text htext

/-- A tagging is written into a map of its own exactly if all its tags are accepted, and the map has them in their order. -/
theorem toTags_eq_ok_iff {t : Tagging} {m : TagMap} :
    t.toTags = .ok m ↔ (∀ e ∈ t.tags, Accepted e) ∧ m = TagMap.empty.insertAll t.spelled := complete_addAll_eq_ok_iff

/-- In the map of a tagging a key has the value that it has among the spelled tags. -/
theorem find?_insertAll_spelled (t : Tagging) (key : Text) :
    (TagMap.empty.insertAll t.spelled).find? key = (t.tags.lookup key).map TagValue.spelled := by
  rw [find?_insertAll _ (nodup_keys_spelled t), find?_empty, Option.or_none, lookup_spelled]

/-- What is read off the map of a tagging. -/
theorem ofTags_insertAll_spelled (t : Tagging) :
    ofTags (TagMap.empty.insertAll t.spelled) =
      { t with
        timestamp := t.timestamp.bind fun ms =>
          if Number.Readable (ms / 1000) then some (if millisFrom ≤ ms / 1000 then ms / 1000 else ms / 1000 * 1000) else none
        sourceBs := t.sourceBs.filter fun n => decide (Number.Readable n) } := by
  have hfind := find?_insertAll_spelled t
  have htext : ∀ field : Option Text, (field.map TagValue.text).map TagValue.spelled = field := by
    intro field
    cases field <;> rfl
  have htime : (TagMap.empty.insertAll t.spelled).timestamp? = t.timestamp.bind fun ms =>
      if Number.Readable (ms / 1000) then some (if millisFrom ≤ ms / 1000 then ms / 1000 else ms / 1000 * 1000) else none := by
    have hvalue : (TagMap.empty.insertAll t.spelled).find? timeKey = t.timestamp.map fun ms => Text.ofInt (ms / 1000) := by
      rw [hfind, lookup_tags, if_pos rfl, Option.map_map]
      rfl
    cases ht : t.timestamp with
    | none =>
      rw [ht] at hvalue
      rw [timestamp?, hvalue]
      rfl
    | some ms =>
      rw [ht, Option.map_some] at hvalue
      rw [timestamp?_of_find? hvalue, Option.bind_some]
  have hstation : ((TagMap.empty.insertAll t.spelled).find? bsKey).bind integer? =
      t.sourceBs.filter fun n => decide (Number.Readable n) := by
    rw [hfind, lookup_tags, if_neg (by decide), if_neg (by decide), if_pos rfl]
    cases t.sourceBs with
    | none => rfl
    | some n =>
      rw [Option.map_some, Option.map_some, Option.bind_some, TagValue.spelled, integer?, Number.readInteger_ofInt, Option.filter_some]
      by_cases hn : Number.Readable n
      · rw [if_pos hn, if_pos (decide_eq_true hn), Except.toOption]
      · rw [if_neg hn, if_neg (by rwa [decide_eq_true_iff]), Except.toOption]
  rw [ofTags, htime, hstation, hfind idKey, hfind countryKey, hfind typeKey, lookup_tags, lookup_tags, lookup_tags]
  simp [htext, timeKey, idKey, bsKey, countryKey, typeKey]

/-- The seconds of a time of at most fourteen digits can be written, and they are not taken for milliseconds. -/
theorem seconds_of_lt {ms : Int} (h : ms.natAbs < pow10 14) : Number.Readable (ms / 1000) ∧ ¬millisFrom ≤ ms / 1000 := by
  have hlimit : pow10 14 = 100000000000000 := rfl
  have hmillis : millisFrom = 100000000000 := rfl
  have hshort : (ms / 1000).natAbs < pow10 14 := by omega
  exact ⟨Nat.lt_of_lt_of_le hshort (Number.pow10_le (by decide)), by omega⟩

/-- A time of at most fourteen digits and a base station that is not too long are read back, the time rounded down to the second. -/
theorem ofTags_insertAll_spelled_of_readable {t : Tagging} (htime : ∀ ms ∈ t.timestamp, ms.natAbs < pow10 14)
    (hstation : ∀ n ∈ t.sourceBs, Number.Readable n) : ofTags (TagMap.empty.insertAll t.spelled) = t.toSeconds := by
  have hseconds : (t.timestamp.bind fun ms =>
      if Number.Readable (ms / 1000) then some (if millisFrom ≤ ms / 1000 then ms / 1000 else ms / 1000 * 1000) else none) =
      t.timestamp.map fun ms => ms / 1000 * 1000 := by
    cases ht : t.timestamp with
    | none => rfl
    | some ms =>
      obtain ⟨hreadable, hshort⟩ := seconds_of_lt (htime ms ht)
      rw [Option.bind_some, Option.map_some, if_pos hreadable, if_neg hshort]
  have hkept : (t.sourceBs.filter fun n => decide (Number.Readable n)) = t.sourceBs := by
    cases hs : t.sourceBs with
    | none => rfl
    | some n => rw [Option.filter_some, if_pos (decide_eq_true (hstation n hs))]
  rw [ofTags_insertAll_spelled, hseconds, hkept]
  rfl

/-- A tagging is read back from the packet it was written into. If its time is unset or of at most fourteen digits, its base station
unset or of at most 4300 digits, and its texts have neither commas nor backslashes nor line feeds, then it can be written,
and from its block and, behind a line break, a line with a sentence and without a block of its own the same tagging is read with its time
rounded down to the second, which is written as the same block again. -/
theorem ofPacket_written {t : Tagging} {line : Text} (htime : ∀ ms ∈ t.timestamp, ms.natAbs < pow10 14)
    (hstation : ∀ n ∈ t.sourceBs, (Text.ofNat n.natAbs).length ≤ 4300)
    (htexts : ∀ text ∈ t.texts, ',' ∉ text ∧ '\\' ∉ text ∧ '\n' ∉ text) (hline : '\n' ∉ line) (hfront : line.head? ≠ some '\\')
    (hsentence : ∃ s, Sentence.IsSentence s ∧ s <:+: line) :
    ∃ m, t.toTags = .ok m ∧ ∀ received,
      let read := ofPacket ⟨m.encode ++ Sentence.lineBreak ++ line, received⟩
      read = t.toSeconds ∧ ∃ m', read.toTags = .ok m' ∧ m'.encode = m.encode := by
  have hreadable : ∀ n ∈ t.sourceBs, Number.Readable n := fun n hn => (Number.length_ofNat_le_iff (by decide)).1 (hstation n hn)
  have haccepted : ∀ e ∈ t.tags, Accepted e := fun e he =>
    accepted_of_mem_tags (fun ms hms => (seconds_of_lt (htime ms hms)).1) hreadable
      (fun text ht => ⟨(htexts text ht).1, (htexts text ht).2.1⟩) he
  have hwritten : t.toTags = .ok (TagMap.empty.insertAll t.spelled) := toTags_eq_ok_iff.2 ⟨haccepted, rfl⟩
  have hlegible : (TagMap.empty.insertAll t.spelled).Legible := legible_empty.insertAll_of_accepted haccepted
  have hblock : '\n' ∉ (TagMap.empty.insertAll t.spelled).encode := by
    rw [mem_encode_iff (by decide)]
    rintro ⟨e, he, hmem⟩
    obtain ⟨hkey, hvalue⟩ := lineFeed_not_mem_of_mem_spelled (fun text ht => (htexts text ht).2.2)
      ((mem_insertAll he).resolve_right List.not_mem_nil)
    exact hmem.elim hkey hvalue
  have hfound : Sentence.find? line ≠ none := fun hnone => by
    obtain ⟨s, hs, hin⟩ := hsentence
    exact Sentence.find?_eq_none_iff.1 hnone s hs hin
  refine ⟨_, hwritten, fun received => ?_⟩
  have hread : ofPacket ⟨(TagMap.empty.insertAll t.spelled).encode ++ Sentence.lineBreak ++ line, received⟩ = t.toSeconds := by
    rw [ofPacket_eq, Packet.tags?_encode hlegible hblock hline hfront hfound]
    exact ofTags_insertAll_spelled_of_readable htime hreadable
  refine ⟨hread, _, ?_, rfl⟩
  rw [hread, toTags, writeOver, tags_toSeconds]
  exact hwritten

/-- A tagging with a time before the epoch, a text that is empty and one with stars and colons. -/
theorem ofPacket_written_before_epoch :
    let t : Tagging := ⟨some (-1500), some [], some (-7), none, some "a*b:c".toList⟩
    let block := "\\c:-2,si:,sb:-7,st:a*b:c*36\\".toList
    t.toTags.map TagMap.encode = .ok block ∧
      ofPacket ⟨block ++ "\r\n!AIVDM,1,1,,A,0,0*26".toList, 0⟩ = { t with timestamp := some (-2000) } := by
  intro t block
  have hsentence : Sentence.IsSentence "!AIVDM,1,1,,A,0,0*26".toList :=
    @Sentence.IsSentence.mk 'A' 'I' 'V' 'D' 'M' '2' '6' "1,1,,A,0,0".toList (by decide) (by decide) (by decide)
  obtain ⟨m, hm, hread⟩ := @ofPacket_written t "!AIVDM,1,1,,A,0,0*26".toList (by decide) (by decide) (by decide) (by decide)
    (by decide) ⟨_, hsentence, List.infix_rfl⟩
  have hblock : t.toTags.map TagMap.encode = .ok block := by decide +kernel
  have hencode : m.encode = block := by
    rw [hm] at hblock
    exact Except.ok.inj hblock
  refine ⟨hblock, ?_⟩
  have hfirst := (hread 0).1
  rw [hencode] at hfirst
  exact hfirst

end Tagging
end VesselTraffic
