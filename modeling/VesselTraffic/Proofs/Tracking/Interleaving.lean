import VesselTraffic.Proofs.Geo.Sides
import VesselTraffic.Proofs.Tracking.Ordering

/-!
# Messages of several vessels

The messages of several vessels come one among the other. What is known of a vessel, apart from the labels that were put on its target,
depends on its own messages alone (`unlabelled_run`). So trackers at which every vessel's messages arrived in the same order have the
same targets with a sample (`unlabelled_positioned_eq`), and extents whose sides stand for the same numbers (`sameNumbers_run`), however
the vessels were interleaved.
-/

namespace VesselTraffic

variable {α : Type}

namespace Target

/-- A target without its labels. -/
def unlabelled (t : Target α) : Target α := { t with labels := [] }

variable [Navigation α]

/-- The messages of a vessel do not mind labels. -/
theorem unlabelled_apply (keep : Retention α) (t : Target α) (m : Message α) :
    (t.apply keep m).map unlabelled = t.unlabelled.apply keep m := by
  cases m with
  | static r => rfl
  | other o => rfl
  | position r =>
    rw [apply, apply]
    split
    · rw [applyPosition, applyPosition]
      cases Sample.ofReport r <;> rfl
    · rfl

/-- Items do not mind labels. -/
theorem unlabelled_update (keep : Retention α) (t : Target α) (i : Item α) :
    (t.update keep i).state.unlabelled = (t.unlabelled.update keep i).state := by
  cases i with
  | failure f => rfl
  | message m =>
    by_cases h : t.mmsi.getD m.mmsi = m.mmsi
    · have hmmsi : t.unlabelled.mmsi = t.mmsi := rfl
      rw [update, update, hmmsi]
      simp only [if_pos h]
      have happly := unlabelled_apply keep { t with mmsi := some (t.mmsi.getD m.mmsi) } m
      have hown : { t.unlabelled with mmsi := some (t.mmsi.getD m.mmsi) } =
          ({ t with mmsi := some (t.mmsi.getD m.mmsi) } : Target α).unlabelled := rfl
      rw [hown, ← happly]
      cases apply keep { t with mmsi := some (t.mmsi.getD m.mmsi) } m <;> rfl
    · have hunlabelled : ¬t.unlabelled.IsOf m.mmsi := fun hown => h (isOf_iff.1 hown)
      rw [state_update_of_not_isOf hunlabelled, state_update_of_not_isOf fun hown => h (isOf_iff.1 hown)]

/-- What messages make of a vessel of which nothing is known. -/
def told (keep : Retention α) (ms : List (Message α)) : Target α :=
  ms.foldl (fun t m => (t.update keep (.message m)).state) unknown

end Target

namespace Tracker

namespace Arrival

/-- The messages of a vessel among arrivals, in order. -/
def sentBy (mmsi : Int) (as : List (Arrival α)) : List (Message α) := (messages as).filter fun m => m.mmsi = mmsi

/-- The messages of a vessel among arrivals of which its own is the last. -/
theorem sentBy_concat_own (as : List (Arrival α)) (m : Message α) : sentBy m.mmsi (as ++ [message m]) = sentBy m.mmsi as ++ [m] := by
  simp [sentBy, messages, message?]

/-- The messages of a vessel among arrivals of which one for another vessel is the last. -/
theorem sentBy_concat_other {mmsi : Int} (as : List (Arrival α)) {m : Message α} (h : mmsi ≠ m.mmsi) :
    sentBy mmsi (as ++ [message m]) = sentBy mmsi as := by
  simp [sentBy, messages, message?, Ne.symm h]

/-- The messages of a vessel among arrivals of which the last one only makes a target. -/
theorem sentBy_concat_of_none (mmsi : Int) (as : List (Arrival α)) {b : Arrival α} (h : b.message? = none) :
    sentBy mmsi (as ++ [b]) = sentBy mmsi as := by
  rw [sentBy, messages_concat_of_none as h]
  rfl

/-- Arrivals with the same messages of every vessel have the same messages, in whatever order. -/
theorem messages_perm {as bs : List (Arrival α)} (h : ∀ mmsi, sentBy mmsi as = sentBy mmsi bs) : (messages as).Perm (messages bs) := by
  classical
  have hown : ∀ (cs : List (Arrival α)) (m : Message α), (messages cs).count m = (sentBy m.mmsi cs).count m := fun cs m =>
    (List.count_filter (p := fun m' : Message α => m'.mmsi = m.mmsi) (decide_eq_true rfl)).symm
  exact List.perm_iff_count.2 fun m => by rw [hown, hown, h]

end Arrival

variable [Navigation α]

/-- Two messages of different vessels, whose MMSIs can be written, can come in either order. -/
theorem sentBy_swap (t u : Tracker α) {m n : Message α} (hm : Number.Readable m.mmsi) (hn : Number.Readable n.mmsi)
    (h : m.mmsi ≠ n.mmsi) (mmsi : Int) : Arrival.sentBy mmsi (t.arrivals [.ingest (.message m), .ingest (.message n)]) =
      Arrival.sentBy mmsi (u.arrivals [.ingest (.message n), .ingest (.message m)]) := by
  simp only [arrivals, Operation.arrivals, Arrival.ofItem_of_readable _ hm, Arrival.ofItem_of_readable _ hn]
  by_cases hown : m.mmsi = mmsi
  · have hother : n.mmsi ≠ mmsi := fun hn => h (hown.trans hn.symm)
    simp [Arrival.sentBy, Arrival.messages, Arrival.message?, hown, hother]
  · by_cases hother : n.mmsi = mmsi <;> simp [Arrival.sentBy, Arrival.messages, Arrival.message?, hown, hother]

/-! ## Targets -/

/-- What is known of a vessel, apart from its labels, is what its messages tell. -/
theorem kept_told (keep : Retention α) : Kept fun t as => t.retention = keep ∧
    ∀ mmsi, ((t.find? mmsi).getD Target.unknown).unlabelled = Target.told keep (Arrival.sentBy mmsi as) := by
  refine ⟨?_, ?_, ?_, fun _ h => h⟩
  · rintro t as m hm ⟨hkeep, h⟩
    refine ⟨(kept_retention keep).message (a := as) m hm hkeep, fun k => ?_⟩
    rw [find?_apply hm]
    by_cases hk : k = m.mmsi
    · subst hk
      rw [if_pos rfl, Option.getD_some, taken, Target.unlabelled_update, h, hkeep, Arrival.sentBy_concat_own, Target.told, Target.told,
        List.foldl_append]
      rfl
    · rw [if_neg hk, Arrival.sentBy_concat_other as hk]
      exact h k
  · rintro t as b hb ⟨hkeep, h⟩
    refine ⟨hkeep, fun k => ?_⟩
    rw [find?_ensure, Arrival.sentBy_concat_of_none k as hb.message?, ← h]
    split
    · rename_i hk
      rw [hk, Option.getD_some]
    · rfl
  · rintro t as mmsi l ⟨hkeep, h⟩
    refine ⟨(kept_retention keep).label (a := as) mmsi l hkeep, fun k => ?_⟩
    rw [find?_labelTarget, ← h]
    split
    · rename_i hk
      subst hk
      cases t.find? k <;> rfl
    · rfl

variable (keep : Retention α) (operations others : List (Operation α))

/-- After any operations, what is known of a vessel, apart from its labels, is what its messages tell. -/
theorem unlabelled_run (mmsi : Int) : ((((fresh keep).run operations).find? mmsi).getD Target.unknown).unlabelled =
    Target.told keep (Arrival.sentBy mmsi ((fresh keep).arrivals operations)) :=
  ((kept_told keep).run_fresh ⟨rfl, fun _ => rfl⟩ operations).2 mmsi

/-- The targets with a sample, apart from their labels, are what was told of the vessels of which a sample was told. -/
theorem mem_map_unlabelled_positioned_iff {x : Target α} : x ∈ ((fresh keep).run operations).positioned.map Target.unlabelled ↔
    x.timeline.samples ≠ [] ∧ ∃ mmsi, x = Target.told keep (Arrival.sentBy mmsi ((fresh keep).arrivals operations)) := by
  simp only [List.mem_map, mem_positioned_iff, ← unlabelled_run]
  constructor
  · rintro ⟨y, ⟨hy, hs⟩, rfl⟩
    obtain ⟨mmsi, hfind⟩ := Registry.exists_find?_of_mem_targets hy
    refine ⟨hs, mmsi, ?_⟩
    rw [find?, hfind, Option.getD_some]
  · rintro ⟨hs, mmsi, rfl⟩
    cases hfind : ((fresh keep).run operations).find? mmsi with
    | none =>
      rw [hfind] at hs
      exact absurd rfl hs
    | some y =>
      rw [hfind] at hs
      obtain ⟨i, -, hi⟩ := Registry.find?_eq_some_iff.1 hfind
      exact ⟨y, ⟨List.mem_of_getElem? hi, hs⟩, rfl⟩

/-- If every vessel's messages arrived in the same order, the targets with a sample are the same, apart from their labels. -/
theorem unlabelled_positioned_eq (h : ∀ mmsi, Arrival.sentBy mmsi ((fresh keep).arrivals operations) =
      Arrival.sentBy mmsi ((fresh keep).arrivals others)) :
    ((fresh keep).run operations).positioned.map Target.unlabelled = ((fresh keep).run others).positioned.map Target.unlabelled := by
  have hascending : ∀ os : List (Operation α), (((fresh keep).run os).positioned.map Target.unlabelled).Pairwise Target.Before :=
    fun os => List.pairwise_map.2 (positioned_ascending keep os)
  refine Target.eq_of_ascending (hascending operations) (hascending others) fun x => ?_
  simp only [mem_map_unlabelled_positioned_iff, h]

/-! ## Extents -/

variable {keep : Retention Quantity} {operations others : List (Operation Quantity)}

/-- The positions of reports that arrive have coordinates of numbers that doubles add exactly. -/
theorem among_of_mem_reports {as : List (Arrival Quantity)} {p : Position Quantity}
    (hp : p ∈ (Arrival.reports as).map PositionReport.position) : p.Among Quantity.IsNumber ∧ p.Among Quantity.IsSmall := by
  obtain ⟨r, hr, rfl⟩ := List.mem_map.1 hp
  obtain ⟨m, -, hm⟩ := List.mem_filterMap.1 hr
  exact ⟨Message.among_of_validReport? hm, Message.small_of_validReport? hm⟩

/-- An extent is spanned by the positions that arrived. -/
theorem spanned_run : ∀ e, ((fresh keep).run operations).extent = some e → e.Spanned := by
  rw [extent_run_arrivals]
  exact Extent.spanned_foldl_observe (fun _ hb => by cases hb) fun p hp => among_of_mem_reports hp

/-- There is an extent exactly if a valid position arrived. -/
theorem extent_eq_none_iff : ((fresh keep).run operations).extent = none ↔ Arrival.reports ((fresh keep).arrivals operations) = [] := by
  rw [extent_run_arrivals, ← List.map_eq_nil_iff (f := PositionReport.position)]
  refine (Extent.foldl_observe_isHull fun p hp => ?_).1
  exact ⟨(among_of_mem_reports hp).1.lat, (among_of_mem_reports hp).1.lon⟩

/-- If every vessel's messages arrived in the same order, the sides of the extents stand for the same numbers. -/
theorem sameNumbers_run (h : ∀ mmsi, Arrival.sentBy mmsi ((fresh keep).arrivals operations) =
      Arrival.sentBy mmsi ((fresh keep).arrivals others)) :
    Option.Rel Extent.SameNumbers ((fresh keep).run operations).extent ((fresh keep).run others).extent := by
  rw [extent_run_arrivals, extent_run_arrivals]
  refine Extent.same_foldl_observe ?_ fun p hp => ⟨(among_of_mem_reports hp).1.lat, (among_of_mem_reports hp).1.lon⟩
  exact ((Arrival.messages_perm h).filterMap _).map _

end Tracker
end VesselTraffic
