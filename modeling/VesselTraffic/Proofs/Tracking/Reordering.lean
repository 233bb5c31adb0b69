import VesselTraffic.Proofs.Geo.Extents
import VesselTraffic.Proofs.Timeline.Putting
import VesselTraffic.Proofs.Tracking.Bounds

/-!
# Streams in another order

What a tracker that keeps every sample makes of a stream does not depend on the order of the stream, as long as two kinds of items
keep theirs: the valid positions of a vessel at one time, of which the last is kept, and the static reports of a vessel, of which the
last counts. All else commutes (`ingestAll_reordered`): targets are made in another order but are the same ones, samples find their
place in the timeline, the extent is the same box of numbers, and failures are only counted.
-/

namespace VesselTraffic

/-- What is picked from two lists is the same if they agree on the members from which something is picked. -/
theorem filterMap_eq_of_filter_eq {β γ : Type} {f : β → Option γ} {p : β → Bool} (hf : ∀ b, p b = false → f b = none)
    {l l' : List β} (h : l.filter p = l'.filter p) : l.filterMap f = l'.filterMap f := by
  have hskip : ∀ l : List β, l.filterMap f = (l.filter p).filterMap f := by
    intro l
    rw [List.filterMap_filter]
    congr 1
    funext b
    cases hb : p b with
    | true => rfl
    | false => exact hf b hb
  rw [hskip l, hskip l', h]

variable {α : Type}

namespace Message

/-- A sample comes from a valid position report and has its time. -/
theorem valid_of_sample? [Navigation α] {r : PositionReport α} {s : Sample α} (h : (position r).sample? = some s) :
    r.isValid = true ∧ s.timestamp = r.timestamp := by
  obtain ⟨r', hr', hs⟩ := sample?_eq_some_iff.1 h
  obtain ⟨heq, hv⟩ := validReport?_eq_some_iff.1 hr'
  cases heq
  exact ⟨hv, Sample.timestamp_of_ofReport hs⟩

end Message

namespace Item

/-- A static report of a vessel. -/
def isStaticOf (mmsi : Int) : Item α → Bool
  | message (.static r) => r.mmsi = mmsi
  | _ => false

/-- A valid position of a vessel at a time. -/
def isPositionAt [Navigation α] (mmsi time : Int) : Item α → Bool
  | message (.position r) => r.isValid && decide (r.mmsi = mmsi ∧ r.timestamp = time)
  | _ => false

/-- What is picked from the messages of a vessel is picked from the items. -/
theorem filterMap_sentBy {β : Type} (f : Message α → Option β) (mmsi : Int) (items : List (Item α)) :
    (sentBy mmsi items).filterMap f =
      items.filterMap fun i => i.message?.bind fun m => if m.mmsi = mmsi then f m else none := by
  rw [sentBy, messages, List.filterMap_filter, List.filterMap_filterMap]
  simp only [decide_eq_true_iff]

end Item

/-- A stream in another order, in which the static reports of a vessel keep theirs, and so do its valid positions at one time. -/
structure Reordering [Navigation α] (xs ys : List (Item α)) : Prop where
  perm : xs.Perm ys
  statics : ∀ mmsi, xs.filter (Item.isStaticOf mmsi) = ys.filter (Item.isStaticOf mmsi)
  positions : ∀ mmsi time, xs.filter (Item.isPositionAt mmsi time) = ys.filter (Item.isPositionAt mmsi time)

namespace Reordering

variable [Navigation α] {xs ys : List (Item α)}

/-- Both streams have the same messages. -/
theorem messages (h : Reordering xs ys) : (Item.messages xs).Perm (Item.messages ys) := h.perm.filterMap _

/-- Both streams have the same messages of a vessel. -/
theorem sentBy (h : Reordering xs ys) (mmsi : Int) : (Item.sentBy mmsi xs).Perm (Item.sentBy mmsi ys) := h.messages.filter _

/-- A vessel sent something in one of the streams exactly if it did in the other. -/
theorem sentBy_eq_nil_iff (h : Reordering xs ys) (mmsi : Int) : Item.sentBy mmsi xs = [] ↔ Item.sentBy mmsi ys = [] := by
  rw [← List.length_eq_zero_iff, ← List.length_eq_zero_iff, (h.sentBy mmsi).length_eq]

/-- Both streams have the same static reports of a vessel in the same order. -/
theorem static_sentBy (h : Reordering xs ys) (mmsi : Int) :
    (Item.sentBy mmsi xs).filterMap Message.static? = (Item.sentBy mmsi ys).filterMap Message.static? := by
  rw [Item.filterMap_sentBy, Item.filterMap_sentBy]
  refine filterMap_eq_of_filter_eq ?_ (h.statics mmsi)
  intro i hi
  cases i with
  | failure f => rfl
  | message m =>
    cases m with
    | position r => exact ite_self _
    | other o => exact ite_self _
    | static r => exact if_neg (of_decide_eq_false hi)

/-- Both streams have the same samples of a vessel at each time, in the same order. -/
theorem samples_sentBy (h : Reordering xs ys) (mmsi time : Int) :
    ((Item.sentBy mmsi xs).filterMap Message.sample?).filter (fun s => s.timestamp = time) =
      ((Item.sentBy mmsi ys).filterMap Message.sample?).filter fun s => s.timestamp = time := by
  rw [List.filter_filterMap, List.filter_filterMap, Item.filterMap_sentBy, Item.filterMap_sentBy]
  refine filterMap_eq_of_filter_eq ?_ (h.positions mmsi time)
  intro i hi
  cases i with
  | failure f => rfl
  | message m =>
    cases m with
    | other o => exact ite_self _
    | static r => exact ite_self _
    | position r =>
      refine Option.eq_none_iff_forall_ne_some.2 fun s hs => ?_
      have hs' : (if r.mmsi = mmsi then (Message.position r).sample?.filter fun s => s.timestamp = time else none) = some s := hs
      split at hs'
      · rename_i hm
        obtain ⟨hsample, htime⟩ := Option.filter_eq_some_iff.1 hs'
        obtain ⟨hv, hr⟩ := Message.valid_of_sample? hsample
        have hat : Item.isPositionAt mmsi time (.message (.position r)) = true := by
          rw [Item.isPositionAt, hv, Bool.true_and, decide_eq_true_iff]
          exact ⟨hm, hr.symm.trans (of_decide_eq_true htime)⟩
        rw [hat] at hi
        cases hi
      · cases hs'

/-- Both streams make the same of a target that keeps every sample. -/
theorem after_eq (h : Reordering xs ys) (mmsi : Int) (t : Target α) :
    t.after Retention.keepAll mmsi (Item.sentBy mmsi xs) = t.after Retention.keepAll mmsi (Item.sentBy mmsi ys) := by
  unfold Target.after
  simp only [Timeline.foldl_insert_keepAll, h.static_sentBy mmsi, h.sentBy_eq_nil_iff mmsi,
    Timeline.foldl_put_congr (h.samples_sentBy mmsi)]

end Reordering

namespace Tracker

/-- Two trackers that show the same scenario: the same vessels with the same targets, the same extent as a box of numbers, the same
first and last times, and the same counts. -/
structure SameScenario (t t' : Tracker Quantity) : Prop where
  contains : ∀ mmsi, t.contains mmsi = t'.contains mmsi
  target : ∀ mmsi, t.find? mmsi = t'.find? mmsi
  extent : Option.Rel Extent.SameNumbers t.extent t'.extent
  firstTime : t.begin? = t'.begin?
  lastTime : t.end? = t'.end?
  malformed : t.malformed = t'.malformed
  size : t.size = t'.size

/-- Trackers that find the same targets have the same ones, in whatever order. -/
theorem targets_perm {t t' : Tracker α} (h : ∀ mmsi, t.find? mmsi = t'.find? mmsi) : t.registry.entries.Perm t'.registry.entries :=
  KeyedList.perm_of_lookup_eq t.registry.nodup t'.registry.nodup h

/-- Trackers that find the same targets have the same first and last times. -/
theorem bounds_eq_of_find?_eq {t t' : Tracker α} (h : ∀ mmsi, t.find? mmsi = t'.find? mmsi) :
    t.begin? = t'.begin? ∧ t.end? = t'.end? :=
  have hperm := (targets_perm h).map Prod.snd
  ⟨Target.firstTime_perm hperm, Target.lastTime_perm hperm⟩

/-- The valid positions of a stream are positions of numbers. -/
theorem isNumber_of_mem_positions {items : List (Item Quantity)} {p : Position Quantity}
    (h : p ∈ ((Item.messages items).filterMap Message.validReport?).map PositionReport.position) :
    p.lat.IsNumber ∧ p.lon.IsNumber := by
  obtain ⟨r, hr, rfl⟩ := List.mem_map.1 h
  obtain ⟨m, -, hm⟩ := List.mem_filterMap.1 hr
  exact Message.isNumber_of_validReport? hm

/-- The order of ingestion does not matter. A stream that a fresh tracker, which keeps every sample, ingests without a fault is
ingested without a fault in any admissible order, and the tracker then shows the same scenario. -/
theorem ingestAll_reordered {xs ys : List (Item Quantity)} {answers : List Bool}
    (h : ((fresh Retention.keepAll).ingestAll xs).result = .ok answers) (hr : Reordering xs ys) :
    ∃ answers', ((fresh Retention.keepAll).ingestAll ys).result = .ok answers' ∧
      SameScenario ((fresh Retention.keepAll).ingestAll xs).state ((fresh Retention.keepAll).ingestAll ys).state := by
  have haccepted : ∀ m ∈ Item.messages ys, (fresh Retention.keepAll).Admits m.mmsi ∧ m.Acceptable := fun m hm =>
    (consistent_fresh Retention.keepAll).ingestAll_ok_iff.1 ⟨answers, h⟩ m (hr.messages.mem_iff.2 hm)
  obtain ⟨answers', h'⟩ := (consistent_fresh Retention.keepAll).ingestAll_ok_iff.2 haccepted
  have htarget : ∀ mmsi, ((fresh Retention.keepAll).ingestAll xs).state.find? mmsi =
      ((fresh Retention.keepAll).ingestAll ys).state.find? mmsi := by
    intro mmsi
    rw [find?_ingestAll h, find?_ingestAll h', hr.after_eq]
    simp only [hr.sentBy_eq_nil_iff mmsi]
  refine ⟨answers', h', ?_⟩
  exact
    { contains := fun mmsi => by
        rw [Tracker.contains, Tracker.contains, Registry.contains_eq_isSome, Registry.contains_eq_isSome]
        exact congrArg Option.isSome (htarget mmsi)
      target := htarget
      extent := by
        rw [extent_ingestAll h, extent_ingestAll h']
        exact Extent.same_foldl_observe ((hr.messages.filterMap _).map _) fun p hp => isNumber_of_mem_positions hp
      firstTime := (bounds_eq_of_find?_eq htarget).1
      lastTime := (bounds_eq_of_find?_eq htarget).2
      malformed := by rw [malformed_ingestAll h, malformed_ingestAll h', hr.perm.countP_eq]
      size := (targets_perm htarget).length_eq }

/-- Two positions of a vessel, the later one first and a message of another vessel between them. -/
theorem ingestAll_reordered_late_position :
    let early : Item Quantity := .message (.position ⟨1, 1000, ⟨.whole 10, .whole 20⟩, 100, 50, 511, true, 1⟩)
    let late : Item Quantity := .message (.position ⟨1, 2000, ⟨.whole 11, .whole 21⟩, 100, 50, 511, true, 1⟩)
    let other : Item Quantity := .message (.other ⟨2, 1500, 4⟩)
    ∃ answers', ((fresh Retention.keepAll).ingestAll [late, other, early]).result = .ok answers' ∧
      SameScenario ((fresh Retention.keepAll).ingestAll [early, late, other]).state
        ((fresh Retention.keepAll).ingestAll [late, other, early]).state := by
  intro early late other
  have hingested : ((fresh Retention.keepAll).ingestAll [early, late, other]).result = .ok [true, true, true] := rfl
  refine ingestAll_reordered hingested ⟨?_, ?_, ?_⟩
  · exact @List.perm_append_comm _ [early] [late, other]
  · intro mmsi
    rfl
  · intro mmsi time
    have hother : Item.isPositionAt mmsi time other = false := rfl
    by_cases h : 1000 = time
    · have hlate : Item.isPositionAt mmsi time late = false := by
        rw [Item.isPositionAt, Bool.and_eq_false_iff]
        exact Or.inr (decide_eq_false fun e => absurd (h.trans e.2.symm : (1000 : Int) = 2000) (by decide))
      simp [List.filter_cons, hother, hlate]
    · have hearly : Item.isPositionAt mmsi time early = false := by
        rw [Item.isPositionAt, Bool.and_eq_false_iff]
        exact Or.inr (decide_eq_false fun e => h e.2)
      simp [List.filter_cons, hother, hearly]

end Tracker
end VesselTraffic
