import VesselTraffic.Proofs.Result
import VesselTraffic.Proofs.TagBlock.RoundTrip

/-!
# Maps that edits lead to

Several maps are at hand, each under a number and all of them empty at first. An edit adds a tag to one of them, whose value may be
one that cannot be shown, copies one to another or puts a map that was read in the place of one; an edit that fails changes nothing
(`Edit.apply`). Every map that edits lead to is legible, whether its tags were added or read (`legible_run`), so it is read back from
its block (`parse_encode_run`).
-/

namespace VesselTraffic.TagMap

/-- Adding a tag succeeds exactly if the tag is valid, and inserts it. -/
theorem add_eq_ok_iff {m m' : TagMap} {key value : Text} :
    m.add key value = .ok m' ↔ Valid (key, value) ∧ m' = m.insert key value := by
  rw [add_eq m (key, value), ← refusalOf_eq_none_iff]
  cases refusalOf (key, value) with
  | some e => simp
  | none => simp [eq_comm]

/-- Adding a tag to a legible map leaves one. -/
theorem Legible.add {m m' : TagMap} (h : m.Legible) {key value : Text} (ha : m.add key value = .ok m') : m'.Legible := by
  obtain ⟨hv, rfl⟩ := add_eq_ok_iff.1 ha
  exact h.insert (LegibleTag.of_valid hv)

/-- Adding a tag whose value has to be written leaves a legible map, too. -/
theorem Legible.addValue {m m' : TagMap} (h : m.Legible) {key : Text} {value : TagValue} (ha : m.addValue key value = .ok m') :
    m'.Legible := by
  obtain ⟨_, -, hadd⟩ := bind_eq_ok_iff.1 ha
  exact h.add hadd

/-- Adding a tag whose key may be missing and whose value has to be shown leaves a legible map, too. -/
theorem Legible.addNamed {m m' : TagMap} (h : m.Legible) {key : Option Text} {value : Except NumberFault Text}
    (ha : m.addNamed key value = .ok m') : m'.Legible := by
  cases key with
  | none => cases ha
  | some k =>
    rw [TagMap.addNamed] at ha
    split at ha
    · cases ha
    · obtain ⟨_, -, hadd⟩ := bind_eq_ok_iff.1 ha
      exact h.add hadd

/-- The maps at hand with another one under a number. -/
def put (maps : Nat → TagMap) (slot : Nat) (m : TagMap) : Nat → TagMap := fun s => if s = slot then m else maps s

/-- Legible maps stay so if one of them is replaced by a legible one. -/
theorem legible_put {maps : Nat → TagMap} (h : ∀ s, (maps s).Legible) (slot : Nat) {m : TagMap} (hm : m.Legible) :
    ∀ s, (put maps slot m s).Legible := by
  intro s
  unfold put
  split
  · exact hm
  · exact h s

/-- An edit of the maps at hand. -/
inductive Edit where
  | add (slot : Nat) (key : Option Text) (value : Except NumberFault Text)
  | addInt (slot : Nat) (key : Text) (n : Int)
  | addTimestamp (slot : Nat) (ms : Int)
  | copy (source target : Nat)
  | parse (slot : Nat) (lines : List Text)

namespace Edit

/-- The maps after an edit that succeeds. Lines without a block leave the map. -/
def attempt (maps : Nat → TagMap) : Edit → Except TagFault (Nat → TagMap)
  | add slot key value => ((maps slot).addNamed key value).map (put maps slot)
  | addInt slot key n => ((maps slot).addInt key n).map (put maps slot)
  | addTimestamp slot ms => ((maps slot).addTimestamp ms).map (put maps slot)
  | copy source target => .ok (put maps target (maps source))
  | parse slot lines => (TagMap.parse lines).map fun read => put maps slot (read.getD (maps slot))

/-- The maps after an edit, which changes nothing if it fails. -/
def apply (maps : Nat → TagMap) (e : Edit) : Nat → TagMap :=
  match e.attempt maps with
  | .ok maps' => maps'
  | .error _ => maps

/-- The maps after edits in order, from empty ones. -/
def run (edits : List Edit) : Nat → TagMap := edits.foldl apply fun _ => TagMap.empty

end Edit

open Edit

/-- An edit that succeeds keeps the maps legible. -/
theorem legible_attempt {maps maps' : Nat → TagMap} (h : ∀ s, (maps s).Legible) {e : Edit} (he : e.attempt maps = .ok maps') :
    ∀ s, (maps' s).Legible := by
  cases e with
  | add slot key value =>
    obtain ⟨m, hm, rfl⟩ := map_eq_ok_iff.1 he
    exact legible_put h slot ((h slot).addNamed hm)
  | addInt slot key n =>
    obtain ⟨m, hm, rfl⟩ := map_eq_ok_iff.1 he
    exact legible_put h slot ((h slot).addValue hm)
  | addTimestamp slot ms =>
    obtain ⟨m, hm, rfl⟩ := map_eq_ok_iff.1 he
    exact legible_put h slot ((h slot).addValue hm)
  | copy source target =>
    cases he
    exact legible_put h target (h source)
  | parse slot lines =>
    obtain ⟨read, hread, rfl⟩ := map_eq_ok_iff.1 he
    cases read with
    | none => exact legible_put h slot (h slot)
    | some m => exact legible_put h slot (legible_of_parse hread)

/-- An edit keeps the maps legible, whether it succeeds or fails. -/
theorem legible_apply {maps : Nat → TagMap} (h : ∀ s, (maps s).Legible) (e : Edit) : ∀ s, (e.apply maps s).Legible := by
  unfold Edit.apply
  cases he : e.attempt maps with
  | ok maps' => exact legible_attempt h he
  | error f => exact h

/-- All maps that edits lead to are legible. -/
theorem legible_run (edits : List Edit) : ∀ s, (run edits s).Legible := by
  have from_legible : ∀ maps : Nat → TagMap, (∀ s, (maps s).Legible) → ∀ s, (edits.foldl apply maps s).Legible := by
    induction edits with
    | nil => exact fun maps h => h
    | cons e rest ih => exact fun maps h => ih (apply maps e) (legible_apply h e)
  exact from_legible _ fun _ => legible_empty

/-- A map that edits lead to has legible tags only, and a line that starts with its block, with anything behind that does not start
with a backslash, is parsed to that map, its keys in the same order. -/
theorem parse_encode_run (edits : List Edit) (slot : Nat) :
    (∀ t ∈ (run edits slot).entries, LegibleTag t) ∧
      ∀ rest : Text, rest.head? ≠ some '\\' → parse [(run edits slot).encode ++ rest] = .ok (some (run edits slot)) := by
  have h := legible_run edits slot
  exact ⟨h, fun rest hr => h.parse_encode_cons hr []⟩

/-- A key with a star cannot be added, but it can be read, and then it is written and read again. -/
example :
    (run [.add 0 (some ['a', '*', 'b']) (.ok ['1']), .parse 1 ["\\a*b:1*22\\".toList], .copy 1 0] 0).encode =
      "\\a*b:1*22\\".toList := by
  decide +kernel

end VesselTraffic.TagMap
