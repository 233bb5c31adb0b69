import VesselTraffic.Proofs.Geo.Extents
import VesselTraffic.Proofs.Result
import VesselTraffic.Proofs.Tracking.Routing

/-!
# What a target becomes

The messages of one vessel leave on its target nothing but the last static report and the samples of its valid positions, put in
order (`updateAll_eq_ok_iff`). The only message that a target of that vessel does not take is a valid position whose course or speed
cannot be scaled, and the only one that does not get to its target is that of a new vessel whose MMSI cannot be written; so whether a
stream is ingested without a fault depends on its messages one by one (`ingestAll_ok_iff`).
-/

namespace VesselTraffic

variable {α : Type}

/-- A report makes a sample exactly if its course and its speed can be scaled; the sample is observed, and otherwise the report. -/
theorem Sample.ofReport_eq_ok_iff [Navigation α] {r : PositionReport α} {s : Sample α} :
    ofReport r = .ok s ↔ ∃ cog, Navigation.tenths r.cog = .ok cog ∧ ∃ sog, Navigation.tenths r.sog = .ok sog ∧
      ⟨r.timestamp, r.position, cog, sog, r.heading, .observed⟩ = s := by
  simp only [ofReport, bind_eq_ok_iff, map_eq_ok_iff]

/-- A sample has the time of its report. -/
theorem Sample.timestamp_of_ofReport [Navigation α] {r : PositionReport α} {s : Sample α} (h : ofReport r = .ok s) :
    s.timestamp = r.timestamp := by
  obtain ⟨cog, -, sog, -, rfl⟩ := ofReport_eq_ok_iff.1 h
  rfl

namespace Message

/-- The static report of a message that is one. -/
def static? : Message α → Option StaticReport
  | static r => some r
  | _ => none

variable [Navigation α]

/-- The sample of a message with a valid position. -/
def sample? (m : Message α) : Option (Sample α) := m.validReport?.bind fun r => (Sample.ofReport r).toOption

/-- The sample of a message is the one of its valid report. -/
theorem sample?_eq_some_iff {m : Message α} {s : Sample α} :
    m.sample? = some s ↔ ∃ r, m.validReport? = some r ∧ Sample.ofReport r = .ok s := by
  rw [sample?, Option.bind_eq_some_iff]
  refine exists_congr fun r => and_congr_right fun _ => ?_
  cases Sample.ofReport r <;> simp [Except.toOption]

/-- A message whose valid position, if it has one, can be made a sample. -/
def Acceptable (m : Message α) : Prop := ∀ r, m.validReport? = some r → ∃ s, Sample.ofReport r = .ok s

/-- A message with a sample is acceptable. -/
theorem acceptable_of_sample? {m : Message α} {s : Sample α} (h : m.sample? = some s) : m.Acceptable := by
  obtain ⟨r, hr, hs⟩ := sample?_eq_some_iff.1 h
  intro r' hr'
  cases hr.symm.trans hr'
  exact ⟨s, hs⟩

end Message

/-- A failure among the items of a stream. -/
def Item.isFailure : Item α → Bool
  | message _ => false
  | failure _ => true

namespace Target

/-- The target with the data of a static report, if there is one. -/
def withStatic (t : Target α) : Option StaticReport → Target α
  | none => t
  | some r => t.applyStatic r

/-- A target that is of a vessel or of none yet. -/
def IsOf (mmsi : Int) (t : Target α) : Prop := t.mmsi = none ∨ t.mmsi = some mmsi

/-- A target is of a vessel exactly if that is whose it is once a message of the vessel came. -/
theorem isOf_iff {mmsi : Int} {t : Target α} : t.IsOf mmsi ↔ t.mmsi.getD mmsi = mmsi := by
  cases h : t.mmsi <;> simp [IsOf, h]

/-- Nothing is known of an unknown target, so it may be of any vessel. -/
theorem isOf_unknown (mmsi : Int) : (unknown : Target α).IsOf mmsi := Or.inl rfl

variable [Navigation α]

/-- What a target becomes from messages of a vessel: it has the vessel's MMSI, the data of the last static report, and the samples of
the valid positions. -/
def after (keep : Retention α) (mmsi : Int) (t : Target α) (ms : List (Message α)) : Target α :=
  { t.withStatic (ms.filterMap Message.static?).getLast? with
    mmsi := if ms = [] then t.mmsi else some mmsi
    timeline := (ms.filterMap Message.sample?).foldl (Timeline.insert keep) t.timeline }

/-- A target takes an acceptable message of its vessel and is of that vessel afterwards. -/
theorem update_of_acceptable {keep : Retention α} {t : Target α} {m : Message α} (ht : t.IsOf m.mmsi) (hm : m.Acceptable) :
    t.update keep (.message m) = ⟨t.after keep m.mmsi [m], .ok (), []⟩ := by
  rw [update]
  simp only [isOf_iff.1 ht, if_true]
  cases m with
  | other o => rfl
  | static r => rfl
  | position r =>
    rw [apply]
    by_cases hv : r.isValid = true
    · obtain ⟨s, hs⟩ := hm r (if_pos hv)
      have hsample : (Message.position r).sample? = some s := by
        rw [Message.sample?, Message.validReport?, if_pos hv, Option.bind_some, hs]
        rfl
      rw [if_pos hv, applyPosition, hs]
      simp only [after, List.filterMap_cons, hsample]
      rfl
    · have hsample : (Message.position r).sample? = none := by
        rw [Message.sample?, Message.validReport?, if_neg hv, Option.bind_none]
      rw [if_neg hv]
      simp only [after, List.filterMap_cons, hsample]
      rfl

/-- A target does not take a message of its vessel that is not acceptable, but learns from it whose it is. -/
theorem update_of_not_acceptable (keep : Retention α) {t : Target α} {m : Message α} (ht : t.IsOf m.mmsi) (hm : ¬m.Acceptable) :
    ∃ e, t.update keep (.message m) = ⟨{ t with mmsi := some m.mmsi }, .error (.number e), []⟩ := by
  obtain ⟨r, hr, hfault⟩ : ∃ r, m.validReport? = some r ∧ ∀ s, Sample.ofReport r ≠ .ok s := by
    simpa only [Message.Acceptable, not_forall, not_exists, exists_prop] using hm
  obtain ⟨rfl, hv⟩ := Message.validReport?_eq_some_iff.1 hr
  cases hs : Sample.ofReport r with
  | ok s => exact absurd hs (hfault s)
  | error e =>
    refine ⟨e, ?_⟩
    rw [update]
    simp only [isOf_iff.1 ht, if_true, apply, hv, applyPosition, hs]
    rfl

/-- A message of another vessel leaves a target as it was, whether its refusal can name both vessels or not. -/
theorem state_update_of_not_isOf {keep : Retention α} {t : Target α} {m : Message α} (ht : ¬t.IsOf m.mmsi) :
    (t.update keep (.message m)).state = t := by
  rw [update]
  simp only [if_neg fun hown => ht (isOf_iff.2 hown)]
  split <;> rfl

/-- A message of its vessel adds the sample of its valid position, if it has one, to the timeline of a target. -/
theorem timeline_update {keep : Retention α} {t : Target α} {m : Message α} (ht : t.IsOf m.mmsi) :
    (t.update keep (.message m)).state.timeline = m.sample?.elim t.timeline (t.timeline.insert keep) := by
  by_cases hm : m.Acceptable
  · have hafter : (t.after keep m.mmsi [m]).timeline = ([m].filterMap Message.sample?).foldl (Timeline.insert keep) t.timeline := rfl
    rw [update_of_acceptable ht hm, hafter, List.filterMap_cons]
    cases m.sample? <;> rfl
  · obtain ⟨e, he⟩ := update_of_not_acceptable keep ht hm
    rw [he]
    cases hs : m.sample? with
    | none => rfl
    | some s => exact absurd (Message.acceptable_of_sample? hs) hm

/-- A message of its vessel makes a target one of that vessel, even if its position cannot be taken. -/
theorem mmsi_update {keep : Retention α} {t : Target α} {m : Message α} (ht : t.IsOf m.mmsi) :
    (t.update keep (.message m)).state.mmsi = some m.mmsi := by
  by_cases hm : m.Acceptable
  · rw [update_of_acceptable ht hm, after, if_neg (List.cons_ne_nil _ _)]
  · obtain ⟨e, he⟩ := update_of_not_acceptable keep ht hm
    rw [he]

/-- A message meets no conflict at a target of its vessel. -/
theorem category_ne_of_update {keep : Retention α} {t : Target α} {m : Message α} (ht : t.IsOf m.mmsi) {e : Fault}
    (h : (t.update keep (.message m)).result = .error e) : e.category ≠ .identityConflict := by
  by_cases hm : m.Acceptable
  · rw [update_of_acceptable ht hm] at h
    cases h
  · obtain ⟨f, hf⟩ := update_of_not_acceptable keep ht hm
    rw [hf] at h
    cases h
    intro hc
    cases f <;> cases hc

/-- What a target becomes from messages of a vessel is of that vessel. -/
theorem isOf_after {keep : Retention α} {mmsi : Int} {t : Target α} (ht : t.IsOf mmsi) (ms : List (Message α)) :
    (t.after keep mmsi ms).IsOf mmsi := by
  unfold after IsOf
  by_cases hms : ms = []
  · simp only [if_pos hms]
    exact ht
  · exact Or.inr (if_neg hms)

/-- What a target becomes from messages it becomes from the first one and then from the others. -/
theorem after_cons (keep : Retention α) (mmsi : Int) (t : Target α) (m : Message α) (rest : List (Message α)) :
    (t.after keep mmsi [m]).after keep mmsi rest = t.after keep mmsi (m :: rest) := by
  have hmmsi : (t.after keep mmsi [m]).mmsi = some mmsi := by
    rw [after, if_neg (List.cons_ne_nil _ _)]
  have htimeline : (rest.filterMap Message.sample?).foldl (Timeline.insert keep) (t.after keep mmsi [m]).timeline =
      ((m :: rest).filterMap Message.sample?).foldl (Timeline.insert keep) t.timeline := by
    simp only [after, List.filterMap_cons]
    cases m.sample? with
    | none => rfl
    | some s => rfl
  -- Of two static reports the later one overwrites all that the earlier one wrote.
  have hstatic : ∀ (m' : Option Int) (l : Timeline α),
      { (t.after keep mmsi [m]).withStatic (rest.filterMap Message.static?).getLast? with mmsi := m', timeline := l } =
        { t.withStatic ((m :: rest).filterMap Message.static?).getLast? with mmsi := m', timeline := l } := by
    intro m' l
    simp only [after, List.filterMap_cons]
    cases m.static? with
    | none => cases (rest.filterMap Message.static?).getLast? <;> rfl
    | some r =>
      simp only [List.getLast?_cons]
      cases (rest.filterMap Message.static?).getLast? <;> rfl
  rw [after, hmmsi, ite_self, htimeline, hstatic]
  rw [after, if_neg (List.cons_ne_nil _ _)]

/-- The messages of its vessel make a target what is left of them, if all are acceptable, and are not all taken otherwise. -/
theorem updateAll_eq_ok_iff {keep : Retention α} {mmsi : Int} {t x : Target α} {ms : List (Message α)} (ht : t.IsOf mmsi)
    (hms : ∀ m ∈ ms, m.mmsi = mmsi) :
    t.updateAll keep ms = .ok x ↔ (∀ m ∈ ms, m.Acceptable) ∧ x = t.after keep mmsi ms := by
  induction ms generalizing t with
  | nil =>
    have hnil : t.after keep mmsi [] = t := rfl
    rw [updateAll, hnil]
    simp [eq_comm]
  | cons m rest ih =>
    have hm := hms m List.mem_cons_self
    have hrest : ∀ m' ∈ rest, m'.mmsi = mmsi := fun m' h => hms m' (List.mem_cons_of_mem m h)
    rw [updateAll]
    by_cases ha : m.Acceptable
    · rw [update_of_acceptable (hm ▸ ht) ha, hm]
      simp only
      rw [ih (isOf_after ht [m]) hrest, after_cons, List.forall_mem_cons, and_iff_right ha]
    · obtain ⟨e, he⟩ := update_of_not_acceptable keep (hm ▸ ht) ha
      rw [he]
      refine iff_of_false (fun h => ?_) fun h => ha (h.1 m List.mem_cons_self)
      cases h

end Target

namespace Tracker

/-- A tracker whose targets are of the vessels that they are kept under. -/
def Consistent (t : Tracker α) : Prop := ∀ mmsi x, t.find? mmsi = some x → x.IsOf mmsi

/-- A fresh tracker has no targets, so it is consistent. -/
theorem consistent_fresh (keep : Retention α) : (fresh keep).Consistent := fun _ _ hx => by cases hx

/-- The target of a sender, or the unknown one that is made for it, is of the sender. -/
theorem Consistent.isOf {t : Tracker α} (h : t.Consistent) (mmsi : Int) : ((t.find? mmsi).getD Target.unknown).IsOf mmsi := by
  cases hf : t.find? mmsi with
  | none => exact Target.isOf_unknown mmsi
  | some x => exact h mmsi x hf

variable [Navigation α]

/-- The target of its sender takes a message exactly if it is acceptable. -/
theorem Consistent.taken_eq_ok_iff {t : Tracker α} (h : t.Consistent) {m : Message α} :
    (t.taken m).result = .ok () ↔ m.Acceptable := by
  rw [taken]
  constructor
  · intro hok
    by_contra hm
    obtain ⟨e, he⟩ := Target.update_of_not_acceptable t.retention (h.isOf m.mmsi) hm
    rw [he] at hok
    cases hok
  · intro hm
    rw [Target.update_of_acceptable (h.isOf m.mmsi) hm]

/-- After a message of a vessel that is admitted the same vessels are admitted as before. -/
theorem admits_ingest {t : Tracker α} {m : Message α} (h : t.Admits m.mmsi) {mmsi : Int} :
    (t.ingest (.message m)).state.Admits mmsi ↔ t.Admits mmsi := by
  have hfind := find?_ingest h mmsi
  rw [find?, find?] at hfind
  rw [Admits, contains, Registry.contains_eq_isSome, hfind]
  by_cases hk : mmsi = m.mmsi
  · rw [if_pos hk, hk]
    exact iff_of_true (Or.inl rfl) h
  · rw [if_neg hk, ← Registry.contains_eq_isSome]
    rfl

/-- A message that is acceptable and whose vessel is admitted is ingested, and leaves the tracker consistent. -/
theorem Consistent.ingest {t : Tracker α} (h : t.Consistent) {m : Message α} (hadmits : t.Admits m.mmsi) (hm : m.Acceptable) :
    (t.ingest (.message m)).result = .ok true ∧ (t.ingest (.message m)).state.Consistent := by
  have htaken : t.taken m = ⟨_, .ok (), []⟩ := Target.update_of_acceptable (h.isOf m.mmsi) hm
  refine ⟨?_, ?_⟩
  · exact ingest_eq_ok_iff.2 ⟨⟨hadmits, by rw [htaken]⟩, rfl⟩
  · intro mmsi x hx
    rw [find?_ingest hadmits] at hx
    split at hx
    · rename_i hk
      rw [← Option.some.inj hx, htaken, hk]
      exact Target.isOf_after (h.isOf m.mmsi) [m]
    · exact h mmsi x hx

/-- A stream is ingested without a fault by a consistent tracker exactly if all its messages are acceptable and of vessels that are
admitted before the stream. -/
theorem Consistent.ingestAll_ok_iff {t : Tracker α} (h : t.Consistent) {items : List (Item α)} :
    (∃ answers, (t.ingestAll items).result = .ok answers) ↔ ∀ m ∈ Item.messages items, t.Admits m.mmsi ∧ m.Acceptable := by
  induction items generalizing t with
  | nil =>
    constructor
    · intro _ m hm
      cases hm
    · intro _
      exact ⟨[], rfl⟩
  | cons i rest ih =>
    have hcons : (∃ answers, (t.ingestAll (i :: rest)).result = .ok answers) ↔
        (∃ applied, (t.ingest i).result = .ok applied) ∧ ∃ later, ((t.ingest i).state.ingestAll rest).result = .ok later := by
      constructor
      · rintro ⟨answers, hall⟩
        obtain ⟨applied, later, hi, hrest, -⟩ := ingestAll_cons_ok hall
        exact ⟨⟨applied, hi⟩, later, hrest⟩
      · rintro ⟨⟨applied, hi⟩, later, hrest⟩
        exact ⟨applied :: later, ingestAll_cons_of_ok hi hrest⟩
    rw [hcons]
    cases i with
    | failure f =>
      have hfailure : (t.ingest (.failure f)).state.Consistent := h
      rw [ih hfailure, Item.messages_cons_failure]
      exact and_iff_right ⟨false, rfl⟩
    | message m =>
      rw [Item.messages_cons_message, List.forall_mem_cons]
      have hfirst : (∃ applied, (t.ingest (.message m)).result = .ok applied) ↔ t.Admits m.mmsi ∧ m.Acceptable := by
        simp only [ingest_eq_ok_iff, h.taken_eq_ok_iff, exists_and_left, exists_eq, and_true]
      rw [hfirst]
      refine and_congr_right fun hm => ?_
      rw [ih (h.ingest hm.1 hm.2).2]
      simp only [admits_ingest hm.1]

/-- The targets after a stream that is ingested without a fault: those of the vessels that sent something become what is left of it,
and the others stay what they are. -/
theorem Consistent.find?_ingestAll {t : Tracker α} (hown : t.Consistent) {items : List (Item α)} {answers : List Bool}
    (h : (t.ingestAll items).result = .ok answers) (mmsi : Int) :
    (t.ingestAll items).state.find? mmsi =
      if Item.sentBy mmsi items = [] then t.find? mmsi
      else some (((t.find? mmsi).getD Target.unknown).after t.retention mmsi (Item.sentBy mmsi items)) := by
  obtain ⟨hrun, hsome⟩ := run_projects h mmsi
  have hsent : ∀ m ∈ Item.sentBy mmsi items, m.mmsi = mmsi := fun m hm => (Item.mem_sentBy_iff.1 hm).2
  obtain ⟨-, hx⟩ := (Target.updateAll_eq_ok_iff (hown.isOf mmsi) hsent).1 hrun
  split
  · rename_i hnil
    rw [hnil] at hx hsome
    have hknown : ((t.ingestAll items).state.find? mmsi).isSome ↔ (t.find? mmsi).isSome :=
      hsome.trans (or_iff_left fun hne => hne rfl)
    have hsame : ((t.ingestAll items).state.find? mmsi).getD Target.unknown = (t.find? mmsi).getD Target.unknown := hx
    cases hold : t.find? mmsi with
    | none =>
      rw [← Option.not_isSome_iff_eq_none, hknown, hold]
      exact Bool.false_ne_true
    | some x =>
      obtain ⟨y, hy⟩ := Option.isSome_iff_exists.1 (hknown.2 (Option.isSome_iff_exists.2 ⟨x, hold⟩))
      rw [hy, hold] at hsame
      rw [hy]
      exact congrArg some hsame
  · rename_i hne
    obtain ⟨x, hfound⟩ := Option.isSome_iff_exists.1 (hsome.2 (Or.inr hne))
    rw [hfound] at hx ⊢
    exact congrArg some hx

/-- The targets after a stream that a fresh tracker ingests without a fault. -/
theorem find?_ingestAll {keep : Retention α} {items : List (Item α)} {answers : List Bool}
    (h : ((fresh keep).ingestAll items).result = .ok answers) (mmsi : Int) :
    ((fresh keep).ingestAll items).state.find? mmsi =
      if Item.sentBy mmsi items = [] then none else some (Target.unknown.after keep mmsi (Item.sentBy mmsi items)) :=
  (consistent_fresh keep).find?_ingestAll h mmsi

/-- The extent after a stream that is ingested without a fault has been grown by the valid positions, in order. -/
theorem extent_ingestAll {t : Tracker α} {items : List (Item α)} {answers : List Bool}
    (h : (t.ingestAll items).result = .ok answers) :
    (t.ingestAll items).state.extent =
      (((Item.messages items).filterMap Message.validReport?).map PositionReport.position).foldl Extent.observe t.extent := by
  induction items generalizing t answers with
  | nil => rfl
  | cons i rest ih =>
    obtain ⟨applied, later, hi, hrest, hstate⟩ := ingestAll_cons_ok h
    rw [hstate, ih hrest]
    cases i with
    | failure f => rfl
    | message m =>
      have hextent : (t.ingest (.message m)).state.extent = grown t.extent m := extent_apply (ingest_eq_ok_iff.1 hi).1.1
      rw [Item.messages_cons_message, hextent, List.filterMap_cons, grown]
      cases m.validReport? with
      | none => rfl
      | some r => rfl

/-- A stream that is ingested without a fault has its messages applied and nothing else. -/
theorem answers_ingestAll {t : Tracker α} {items : List (Item α)} {answers : List Bool}
    (h : (t.ingestAll items).result = .ok answers) : answers = items.map fun i => !i.isFailure := by
  induction items generalizing t answers with
  | nil => exact (Except.ok.inj h).symm
  | cons i rest ih =>
    obtain ⟨applied, later, hi, hrest, -⟩ := ingestAll_cons_ok h
    have hall := Except.ok.inj (h.symm.trans (ingestAll_cons_of_ok hi hrest))
    have hhead : applied = !i.isFailure := by
      cases i with
      | failure f => exact (Except.ok.inj hi).symm
      | message m => exact (ingest_eq_ok_iff.1 hi).2
    rw [hall, hhead, ih hrest]
    rfl

/-- The failures of a stream that is ingested without a fault are counted. -/
theorem malformed_ingestAll {t : Tracker α} {items : List (Item α)} {answers : List Bool}
    (h : (t.ingestAll items).result = .ok answers) :
    (t.ingestAll items).state.malformed = t.malformed + items.countP Item.isFailure := by
  induction items generalizing t answers with
  | nil => rfl
  | cons i rest ih =>
    obtain ⟨applied, later, -, hrest, hstate⟩ := ingestAll_cons_ok h
    rw [hstate, ih hrest, List.countP_cons]
    cases i with
    | failure f =>
      have hcount : (t.ingest (.failure f)).state.malformed = t.malformed + 1 := rfl
      rw [hcount, Item.isFailure, if_pos rfl]
      omega
    | message m =>
      have hcount : (t.ingest (.message m)).state.malformed = t.malformed := malformed_apply t m
      rw [hcount, Item.isFailure, if_neg (by decide)]
      omega

end Tracker
end VesselTraffic
