import VesselTraffic.Text.Basic

/-!
# Ordered tag maps

A tag map gives each of its keys one value and keeps its keys in the order in which they first came: writing a key again changes
its value and not its place. The order shows in the encoded block, so two maps that agree on every key are the same map to a
reader (`sameTags`) but may be different texts.
-/

namespace VesselTraffic

/-- Keys with their values, each key once, in the order in which the keys first came. -/
structure TagMap where
  entries : List (Text × Text)
  nodup : (entries.map Prod.fst).Nodup
deriving DecidableEq, Repr

namespace TagMap

/-- The map without keys. -/
def empty : TagMap := ⟨[], List.nodup_nil⟩

/-- The keys in order. -/
def keys (m : TagMap) : List Text := m.entries.map Prod.fst

/-- The number of keys. -/
def size (m : TagMap) : Nat := m.entries.length

/-- A map without keys. -/
def isEmpty (m : TagMap) : Bool := m.entries.isEmpty

/-- The value of a key. -/
def find? (m : TagMap) (key : Text) : Option Text := m.entries.lookup key

/-- A key of the map. -/
def contains (m : TagMap) (key : Text) : Bool := (m.find? key).isSome

/-- Entries with a key's value replaced in its place, or the key put last. -/
def write (key value : Text) : List (Text × Text) → List (Text × Text)
  | [] => [(key, value)]
  | e :: rest => if e.1 = key then (key, value) :: rest else e :: write key value rest

/-- Writing keeps the keys, and puts a new one last. -/
theorem map_fst_write (key value : Text) (l : List (Text × Text)) :
    (write key value l).map Prod.fst = if key ∈ l.map Prod.fst then l.map Prod.fst else l.map Prod.fst ++ [key] := by
  induction l with
  | nil => simp [write]
  | cons e rest ih =>
    rw [write]
    split
    · rename_i h
      simp [h]
    · rename_i h
      rw [List.map_cons, ih, List.map_cons]
      have hne : key ≠ e.1 := fun he => h he.symm
      by_cases hk : key ∈ rest.map Prod.fst
      · rw [if_pos hk, if_pos (List.mem_cons_of_mem _ hk)]
      · rw [if_neg hk, if_neg (by simp only [List.mem_cons, not_or]; exact ⟨hne, hk⟩), List.cons_append]

/-- Writing keeps the keys different from each other. -/
theorem nodup_write (key value : Text) {l : List (Text × Text)} (h : (l.map Prod.fst).Nodup) :
    ((write key value l).map Prod.fst).Nodup := by
  rw [map_fst_write]
  split
  · exact h
  · rename_i hk
    rw [List.nodup_append]
    refine ⟨h, by simp, ?_⟩
    intro a ha b hb
    rw [List.mem_singleton] at hb
    exact fun e => hk (hb ▸ e ▸ ha)

/-- The map in which a key has the given value, in its old place or as the last key. -/
def insert (m : TagMap) (key value : Text) : TagMap := ⟨write key value m.entries, nodup_write key value m.nodup⟩

/-- The map without a key. -/
def erase (m : TagMap) (key : Text) : TagMap :=
  ⟨m.entries.filter fun e => e.1 != key, (List.filter_sublist.map Prod.fst).nodup m.nodup⟩

/-- The map that pairs make when they are inserted in order. -/
def ofList (pairs : List (Text × Text)) : TagMap := pairs.foldl (fun m p => m.insert p.1 p.2) empty

/-- Two maps that give the same keys the same values, in whatever order. -/
def sameTags (a b : TagMap) : Bool := a.size == b.size && a.entries.all fun e => b.find? e.1 == some e.2

/-- Looking up after writing. -/
theorem lookup_write (key value k : Text) (l : List (Text × Text)) :
    (write key value l).lookup k = if k = key then some value else l.lookup k := by
  induction l with
  | nil =>
    by_cases h : k = key
    · simp [write, h]
    · have hb : (k == key) = false := by simpa using h
      simp [write, List.lookup_cons, hb, h]
  | cons e rest ih =>
    rw [write]
    split
    · rename_i h
      by_cases hk : k = key
      · simp [hk]
      · have hb : (k == key) = false := by simpa using hk
        have he : (k == e.1) = false := by rw [h]; exact hb
        obtain ⟨a, b⟩ := e
        simp only at he
        simp [List.lookup_cons, hb, he, hk]
    · rename_i h
      obtain ⟨a, b⟩ := e
      simp only at h
      by_cases ha : k = a
      · subst ha
        simp [h]
      · have hb : (k == a) = false := by simpa using ha
        simp only [List.lookup_cons, hb]
        exact ih

/-- A written key has the written value and every other key the value it had. -/
theorem find?_insert (m : TagMap) (key value k : Text) :
    (m.insert key value).find? k = if k = key then some value else m.find? k :=
  lookup_write key value k m.entries

/-- The empty map has no value for any key. -/
theorem find?_empty (k : Text) : empty.find? k = none := rfl

/-- Inserting keeps the keys in order and puts a new one last. -/
theorem keys_insert (m : TagMap) (key value : Text) :
    (m.insert key value).keys = if key ∈ m.keys then m.keys else m.keys ++ [key] :=
  map_fst_write key value m.entries

end TagMap
end VesselTraffic
