import VesselTraffic.Proofs.Geo.Growth
import VesselTraffic.Proofs.Tracking.Indexes

/-!
# Conflicts of MMSIs

A target that a tracker hands out can be updated directly, and so it may become one of another vessel than the one that it is kept
under. A message of that vessel is then refused. By then its position has been observed: the refused message leaves every target and
every count as it was, but the extent has grown by its valid position (`update_of_identityConflict`). So a refused message leaves no
trace exactly if it has no valid position or the extent covers it already.
-/

namespace VesselTraffic

variable {α : Type} [Navigation α]

namespace Target

/-- A message of another vessel is refused and leaves the target as it was. The refusal names both vessels, unless the MMSI of one of them
cannot be written. -/
theorem update_of_ne {keep : Retention α} {t : Target α} {m : Message α} {own : Int} (ht : t.mmsi = some own) (hm : own ≠ m.mmsi) :
    (t.update keep (.message m)).state = t ∧
      (t.update keep (.message m)).result =
        if Number.Readable m.mmsi ∧ Number.Readable own then .error (.tracking (.identityConflict m.mmsi own))
        else .error (.number .tooLongToWrite) := by
  have hother : ¬t.IsOf m.mmsi := by
    rw [isOf_iff, ht, Option.getD_some]
    exact hm
  refine ⟨state_update_of_not_isOf hother, ?_⟩
  rw [update, ht]
  simp only [Option.getD_some, if_neg hm]
  by_cases hsender : Number.Readable m.mmsi
  · by_cases hown : Number.Readable own
    · simp [TrackingFault.message, Number.writeInteger_of_readable hsender, Number.writeInteger_of_readable hown, hsender, hown,
        bind, Except.bind, pure, Except.pure]
    · simp [TrackingFault.message, Number.writeInteger_of_readable hsender, Number.writeInteger_of_not_readable hown, hown,
        bind, Except.bind]
  · simp [TrackingFault.message, Number.writeInteger_of_not_readable hsender, hsender, bind, Except.bind]

/-- A message that is refused for a conflict is of another vessel than the target. -/
theorem exists_ne_of_update {keep : Retention α} {t : Target α} {m : Message α} {e : Fault}
    (he : (t.update keep (.message m)).result = .error e) (hc : e.category = .identityConflict) :
    ∃ own, t.mmsi = some own ∧ own ≠ m.mmsi := by
  by_contra hnone
  have ht : t.IsOf m.mmsi := by
    cases hown : t.mmsi with
    | none => exact Or.inl hown
    | some own => exact Or.inr (not_not.1 fun hne => hnone ⟨own, hown, fun h => hne (hown.trans (congrArg some h))⟩)
  exact category_ne_of_update ht he hc

end Target

namespace Tracker

/-- What is done with a tracker or with a target that it hands out. -/
inductive Handling (α : Type) where
  /-- An operation of the tracker. -/
  | tracker (o : Operation α)
  /-- An update of the target of a vessel. -/
  | target (mmsi : Int) (i : Item α)

/-- The tracker after it or one of its targets was handled. -/
def Handling.next (t : Tracker α) : Handling α → Tracker α
  | tracker o => o.next t
  | target mmsi i => (t.updateTarget mmsi i).state

/-- The tracker after it and its targets were handled. -/
def handle (t : Tracker α) (handlings : List (Handling α)) : Tracker α := handlings.foldl Handling.next t

/-- A message that leaves the target of its sender as it was changes no more than the extent. -/
theorem state_apply_of_state_taken {t : Tracker α} {m : Message α} {x : Target α} (hx : t.find? m.mmsi = some x)
    (htaken : (t.taken m).state = x) : (t.apply m).state = { t with extent := grown t.extent m } := by
  have hmem : m.mmsi ∈ t.registry.mmsis := Registry.isSome_find?_iff.1 (Option.isSome_iff_exists.2 ⟨x, hx⟩)
  have hadmits : t.Admits m.mmsi := Or.inl (Registry.contains_eq_true_iff.2 hmem)
  have hregistry : (t.apply m).state.registry = t.registry := by
    refine Registry.ext_find? ?_ fun k => (find?_apply hadmits k).trans ?_
    · rw [mmsis_apply, Registry.mmsis_ensure, if_pos hmem]
    · split
      · rename_i hk
        rw [htaken, hk]
        exact hx.symm
      · rfl
  rw [(apply_eq hadmits).1] at hregistry ⊢
  exact congrArg (fun r => (⟨t.retention, r, grown t.extent m, t.malformed⟩ : Tracker α)) hregistry

/-- A message that is refused for a conflict changes no more than the extent. -/
theorem state_apply_of_identityConflict {t : Tracker α} {m : Message α} {e : Fault} (he : (t.apply m).result = .error e)
    (hc : e.category = .identityConflict) : (t.apply m).state = { t with extent := grown t.extent m } := by
  have hadmits : t.Admits m.mmsi := by
    by_contra hm
    rw [apply_of_not_admits hm] at he
    cases he
    cases hc
  rw [(apply_eq hadmits).2] at he
  obtain ⟨own, hown, hne⟩ := Target.exists_ne_of_update he hc
  -- Only a target that was there can be of another vessel.
  obtain ⟨x, hx⟩ : ∃ x, t.find? m.mmsi = some x := by
    cases hx : t.find? m.mmsi with
    | some x => exact ⟨x, rfl⟩
    | none =>
      rw [hx] at hown
      cases hown
  refine state_apply_of_state_taken hx ?_
  rw [hx] at hown
  rw [taken, hx]
  exact (Target.update_of_ne hown hne).1

/-- The sides of the extent of a tracker are numbers, however the tracker and its targets were handled. -/
theorem numbers_handle (keep : Retention Quantity) (handlings : List (Handling Quantity)) :
    Extent.AllAmong Quantity.IsNumber ((fresh keep).handle handlings).extent := by
  have hstep : ∀ {t : Tracker Quantity} (hd : Handling Quantity), Extent.AllAmong Quantity.IsNumber t.extent →
      Extent.AllAmong Quantity.IsNumber (hd.next t).extent := by
    intro t hd h
    cases hd with
    | tracker o => exact kept_numbers.next (a := []) h o
    | target mmsi i =>
      rw [Handling.next, updateTarget]
      cases t.find? mmsi <;> exact h
  have hrun : ∀ (t : Tracker Quantity), Extent.AllAmong Quantity.IsNumber t.extent →
      Extent.AllAmong Quantity.IsNumber (t.handle handlings).extent := by
    induction handlings with
    | nil => exact fun t h => h
    | cons hd rest ih => exact fun t h => ih _ (hstep hd h)
  exact hrun (fresh keep) nofun

/-- A message leaves the extent as it is exactly if it has no valid position that the extent does not cover. -/
theorem grown_eq_self_iff {box : Option (Extent Quantity)} (h : Extent.AllAmong Quantity.IsNumber box) (m : Message Quantity) :
    grown box m = box ↔ ∀ r, m.validReport? = some r → Extent.Covers box r.position := by
  rw [grown]
  cases hr : m.validReport? with
  | none => exact iff_of_true rfl fun r hr => by cases hr
  | some r =>
    rw [Extent.observe_eq_self_iff Quantity.orderedOn h (Message.among_of_validReport? hr)]
    exact ⟨fun hc r' hr' => Option.some.inj hr' ▸ hc, fun hall => hall r rfl⟩

/-- A message that is refused for a conflict leaves everything as it was but the extent, which has grown by its valid position, if it
has one; so it leaves no trace exactly if the extent covers that position already. -/
theorem update_of_identityConflict {keep : Retention Quantity} {handlings : List (Handling Quantity)} {m : Message Quantity} {e : Fault}
    (hc : e.category = .identityConflict)
    (he : (((fresh keep).handle handlings).update (.message m)).result = .error e ∨
      (((fresh keep).handle handlings).ingest (.message m)).result = .error e) :
    let t := (fresh keep).handle handlings
    (t.update (.message m)).state = { t with extent := grown t.extent m } ∧
      (t.ingest (.message m)).state = { t with extent := grown t.extent m } ∧
      ((t.update (.message m)).state = t ↔ ∀ r, m.validReport? = some r → Extent.Covers t.extent r.position) := by
  intro t
  have happly : (t.apply m).result = .error e := by
    rcases he with he | he
    · exact he
    · exact map_eq_error_iff.1 he
  have hstate := state_apply_of_identityConflict happly hc
  refine ⟨hstate, hstate, ?_⟩
  have hsame : (t.update (.message m)).state = t ↔ grown t.extent m = t.extent := by
    have hupdate : (t.update (.message m)).state = { t with extent := grown t.extent m } := hstate
    rw [hupdate]
    exact ⟨fun h => congrArg extent h, fun h => by rw [h]⟩
  rw [hsame]
  exact grown_eq_self_iff (numbers_handle keep handlings) m

/-- The target of vessel 5 was made vessel 6 directly; a position of vessel 5 is then refused. -/
theorem update_of_identityConflict_other_vessel :
    let t := (fresh Retention.keepAll).handle [.tracker (.getOrCreate 5), .target 5 (.message (.other ⟨6, 10, 4⟩))]
    let m : Message Quantity := .position ⟨5, 20, ⟨.whole 10, .whole 20⟩, 900, 100, 511, true, 1⟩
    (t.update (.message m)).state = { t with extent := grown t.extent m } ∧
      (t.ingest (.message m)).state = { t with extent := grown t.extent m } ∧
      ((t.update (.message m)).state = t ↔ ∀ r, m.validReport? = some r → Extent.Covers t.extent r.position) := by
  intro t m
  have hrefused : (t.update (.message m)).result = .error (.tracking (.identityConflict 5 6)) := by decide +kernel
  exact update_of_identityConflict rfl (Or.inl hrefused)

/-- A refused message may leave a trace: here there is an extent after it and there was none before. -/
theorem update_of_identityConflict_false :
    let t := (fresh Retention.keepAll).handle [.tracker (.getOrCreate 5), .target 5 (.message (.other ⟨6, 10, 4⟩))]
    let i : Item Quantity := .message (.position ⟨5, 20, ⟨.whole 10, .whole 20⟩, 900, 100, 511, true, 1⟩)
    (t.update i).result = .error (.tracking (.identityConflict 5 6)) ∧ t.extent = none ∧
      (t.update i).state.extent = some ⟨.whole 10, .whole 10, .whole 20, .whole 20⟩ :=
  ⟨by decide +kernel, rfl, rfl⟩

end Tracker
end VesselTraffic
