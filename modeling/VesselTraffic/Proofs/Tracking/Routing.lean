import VesselTraffic.Geo.Sphere
import VesselTraffic.Proofs.Number.IntegerText
import VesselTraffic.Proofs.Result
import VesselTraffic.Proofs.Tracking.Registry
import VesselTraffic.Tracking.Tracker

/-!
# Routing messages to their targets

A tracker simulates one machine for each vessel. What applying a message does to the targets is said once (`find?_apply`): the target
of the sender, an unknown one if it is new, takes the message, and every other target stays what it is. Only the first message of a
vessel may come to nothing more than a target, if the MMSI is too long for the entry that tells of it (`apply_of_not_admits`). So after a
stream without a fault the target of a vessel is what a target of its own would have become from the messages of that vessel alone
(`target_of_ingestAll`), whatever cutoffs the retention makes and whatever stood between those messages.
-/

namespace VesselTraffic

variable {α : Type}

namespace Item

/-- The message of an item that is one. -/
def message? : Item α → Option (Message α)
  | message m => some m
  | failure _ => none

/-- The messages among items, in order. -/
def messages (items : List (Item α)) : List (Message α) := items.filterMap message?

/-- The messages that a vessel sent among items, in order. -/
def sentBy (mmsi : Int) (items : List (Item α)) : List (Message α) := (messages items).filter fun m => m.mmsi = mmsi

@[simp] theorem messages_nil : messages ([] : List (Item α)) = [] := rfl

@[simp] theorem messages_cons_message (m : Message α) (rest : List (Item α)) :
    messages (message m :: rest) = m :: messages rest := rfl

@[simp] theorem messages_cons_failure (f : DecodeFailure) (rest : List (Item α)) :
    messages (failure f :: rest) = messages rest := rfl

/-- A message in front of items that the vessel sent. -/
theorem sentBy_cons_own (m : Message α) (rest : List (Item α)) : sentBy m.mmsi (message m :: rest) = m :: sentBy m.mmsi rest := by
  simp [sentBy]

/-- A message in front of items that another vessel sent. -/
theorem sentBy_cons_other {m : Message α} {mmsi : Int} (h : m.mmsi ≠ mmsi) (rest : List (Item α)) :
    sentBy mmsi (message m :: rest) = sentBy mmsi rest := by
  simp [sentBy, h]

/-- What a vessel sent are the messages with its MMSI. -/
theorem mem_sentBy_iff {mmsi : Int} {items : List (Item α)} {m : Message α} :
    m ∈ sentBy mmsi items ↔ .message m ∈ items ∧ m.mmsi = mmsi := by
  rw [sentBy, List.mem_filter, decide_eq_true_iff, messages, List.mem_filterMap]
  refine and_congr_left fun _ => ⟨?_, fun h => ⟨.message m, h, rfl⟩⟩
  rintro ⟨i, hi, he⟩
  cases i with
  | message m' => exact Option.some.inj he ▸ hi
  | failure f => cases he

end Item

variable [Navigation α]

namespace Target

/-- The target after messages in order, or the first fault. -/
def updateAll (keep : Retention α) (t : Target α) : List (Message α) → Except Fault (Target α)
  | [] => .ok t
  | m :: rest =>
    let o := t.update keep (.message m)
    match o.result with
    | .error e => .error e
    | .ok () => o.state.updateAll keep rest

end Target

namespace Tracker

/-- The extent after a message: grown by its valid position, if it has one. -/
def grown (e : Option (Extent α)) (m : Message α) : Option (Extent α) :=
  match m.validReport? with
  | none => e
  | some r => Extent.observe e r.position

/-- A vessel that is known or whose MMSI can be written, so that its messages get as far as its target. -/
def Admits (t : Tracker α) (mmsi : Int) : Prop := t.contains mmsi = true ∨ Number.Readable mmsi

instance (t : Tracker α) (mmsi : Int) : Decidable (t.Admits mmsi) := inferInstanceAs (Decidable (_ ∨ _))

/-- The outcome of a message for the target of its sender, an unknown one if the sender is new. -/
def taken (t : Tracker α) (m : Message α) : Outcome (Target α) Unit :=
  ((t.find? m.mmsi).getD Target.unknown).update t.retention (.message m)

/-- Observing a message concerns the extent alone. -/
theorem observe_eq (t : Tracker α) (m : Message α) : t.observe m = { t with extent := grown t.extent m } := by
  unfold observe grown
  cases m.validReport? <;> rfl

omit [Navigation α] in
/-- A new target whose vessel is admitted is worth an entry. -/
theorem ensureRemarks_of_admits {t : Tracker α} {mmsi : Int} (h : t.Admits mmsi) : ∃ remarks, t.ensureRemarks mmsi = .ok remarks := by
  unfold ensureRemarks
  split
  · exact ⟨_, rfl⟩
  · rename_i hnew
    rw [Number.writeInteger_of_readable (h.resolve_left hnew)]
    exact ⟨_, rfl⟩

omit [Navigation α] in
/-- A target whose vessel is not admitted cannot be told of. -/
theorem ensureRemarks_of_not_admits {t : Tracker α} {mmsi : Int} (h : ¬t.Admits mmsi) :
    t.ensureRemarks mmsi = .error .tooLongToWrite := by
  obtain ⟨hnew, hlong⟩ := not_or.1 h
  rw [ensureRemarks, if_neg hnew, Number.writeInteger_of_not_readable hlong]
  rfl

omit [Navigation α] in
/-- A vessel gets its target whether it can be told of or not. -/
theorem state_getOrCreate (t : Tracker α) (mmsi : Int) : (t.getOrCreate mmsi).state = t.ensure mmsi := by
  rw [getOrCreate]
  cases t.ensureRemarks mmsi <;> rfl

/-- A message of a vessel that is not admitted makes a target for it and fails. -/
theorem apply_of_not_admits {t : Tracker α} {m : Message α} (h : ¬t.Admits m.mmsi) :
    t.apply m = ⟨t.ensure m.mmsi, .error (.number .tooLongToWrite), []⟩ := by
  rw [apply, ensureRemarks_of_not_admits h]

/-- The tracker after a message of a vessel that is admitted: the target of the sender is made and then replaced by what the message
makes of it. -/
theorem apply_eq {t : Tracker α} {m : Message α} (h : t.Admits m.mmsi) :
    (t.apply m).state = ⟨t.retention, (t.registry.ensure m.mmsi).replace m.mmsi (t.taken m).state, grown t.extent m, t.malformed⟩ ∧
      (t.apply m).result = (t.taken m).result := by
  have hfind : ((t.ensure m.mmsi).observe m).find? m.mmsi = some ((t.find? m.mmsi).getD Target.unknown) := by
    rw [observe_eq, find?, find?]
    exact (t.registry.find?_ensure m.mmsi m.mmsi).trans (if_pos rfl)
  obtain ⟨remarks, hremarks⟩ := ensureRemarks_of_admits h
  unfold apply updateTarget
  rw [hremarks, hfind, observe_eq]
  exact ⟨rfl, rfl⟩

/-- After a message of a vessel that is admitted, the target of the sender is what the message makes of it, and every other is what it
was. -/
theorem find?_apply {t : Tracker α} {m : Message α} (h : t.Admits m.mmsi) (k : Int) :
    (t.apply m).state.find? k = if k = m.mmsi then some (t.taken m).state else t.find? k := by
  have hmem : m.mmsi ∈ (t.registry.ensure m.mmsi).mmsis := by
    rw [← Registry.isSome_find?_iff, Registry.find?_ensure, if_pos rfl]
    rfl
  rw [(apply_eq h).1, find?, Registry.find?_replace hmem, Registry.find?_ensure]
  split
  · rfl
  · rfl

/-- A message of a vessel that is admitted grows the extent by its valid position. -/
theorem extent_apply {t : Tracker α} {m : Message α} (h : t.Admits m.mmsi) : (t.apply m).state.extent = grown t.extent m :=
  congrArg extent (apply_eq h).1

/-- Applying a message keeps the retention. -/
theorem retention_apply (t : Tracker α) (m : Message α) : (t.apply m).state.retention = t.retention := by
  by_cases h : t.Admits m.mmsi
  · rw [(apply_eq h).1]
  · rw [apply_of_not_admits h]
    rfl

/-- Applying a message keeps the count of failures. -/
theorem malformed_apply (t : Tracker α) (m : Message α) : (t.apply m).state.malformed = t.malformed := by
  by_cases h : t.Admits m.mmsi
  · rw [(apply_eq h).1]
  · rw [apply_of_not_admits h]
    rfl

/-- A message is ingested exactly if its vessel is admitted and the target of the vessel takes it. -/
theorem ingest_eq_ok_iff {t : Tracker α} {m : Message α} {applied : Bool} :
    (t.ingest (.message m)).result = .ok applied ↔ (t.Admits m.mmsi ∧ (t.taken m).result = .ok ()) ∧ applied = true := by
  have hresult : (t.ingest (.message m)).result = (t.apply m).result.map fun _ => true := rfl
  rw [hresult]
  by_cases h : t.Admits m.mmsi
  · rw [(apply_eq h).2]
    cases (t.taken m).result <;> simp [Except.map, h, eq_comm]
  · rw [apply_of_not_admits h]
    simp [Except.map, h]

/-- After a message of a vessel that is admitted was ingested, the target of the sender is what the message makes of it, and every other
is what it was. -/
theorem find?_ingest {t : Tracker α} {m : Message α} (h : t.Admits m.mmsi) (k : Int) :
    (t.ingest (.message m)).state.find? k = if k = m.mmsi then some (t.taken m).state else t.find? k :=
  find?_apply h k

/-- Items that are ingested without a fault begin with one that is, and go on from the tracker after it. -/
theorem ingestAll_cons_ok {t : Tracker α} {i : Item α} {rest : List (Item α)} {answers : List Bool}
    (h : (t.ingestAll (i :: rest)).result = .ok answers) :
    ∃ applied later, (t.ingest i).result = .ok applied ∧ ((t.ingest i).state.ingestAll rest).result = .ok later ∧
      (t.ingestAll (i :: rest)).state = ((t.ingest i).state.ingestAll rest).state := by
  rw [ingestAll] at h ⊢
  cases hi : (t.ingest i).result with
  | error e =>
    rw [hi] at h
    cases h
  | ok applied =>
    rw [hi] at h
    obtain ⟨later, hrest, -⟩ := map_eq_ok_iff.1 h
    exact ⟨applied, later, rfl, hrest, rfl⟩

/-- Items whose first one is ingested without a fault, and the others after it, are ingested without a fault. -/
theorem ingestAll_cons_of_ok {t : Tracker α} {i : Item α} {rest : List (Item α)} {applied : Bool} {later : List Bool}
    (hi : (t.ingest i).result = .ok applied) (hrest : ((t.ingest i).state.ingestAll rest).result = .ok later) :
    (t.ingestAll (i :: rest)).result = .ok (applied :: later) := by
  rw [ingestAll, hi]
  simp only [hrest]
  rfl

/-- The run of a tracker projected to one vessel: its target, unknown at first if there is none, takes what the vessel sent, and there
is a target afterwards if there was one or the vessel sent something. -/
theorem run_projects {t : Tracker α} {items : List (Item α)} {answers : List Bool} (h : (t.ingestAll items).result = .ok answers)
    (mmsi : Int) :
    ((t.find? mmsi).getD Target.unknown).updateAll t.retention (Item.sentBy mmsi items) =
        .ok (((t.ingestAll items).state.find? mmsi).getD Target.unknown) ∧
      (((t.ingestAll items).state.find? mmsi).isSome ↔ (t.find? mmsi).isSome ∨ Item.sentBy mmsi items ≠ []) := by
  induction items generalizing t answers with
  | nil => exact ⟨rfl, by simp [ingestAll, Item.sentBy]⟩
  | cons i rest ih =>
    obtain ⟨applied, later, hi, hrest, hstate⟩ := ingestAll_cons_ok h
    obtain ⟨hrun, hsome⟩ := ih hrest
    rw [hstate]
    cases i with
    | failure f => exact ⟨hrun, hsome⟩
    | message m =>
      obtain ⟨⟨hadmits, htaken⟩, -⟩ := ingest_eq_ok_iff.1 hi
      have hretention : (t.ingest (.message m)).state.retention = t.retention := retention_apply t m
      rw [hretention, find?_ingest hadmits] at hrun
      rw [find?_ingest hadmits] at hsome
      by_cases hm : m.mmsi = mmsi
      · subst hm
        rw [if_pos rfl] at hrun hsome
        rw [Item.sentBy_cons_own]
        refine ⟨?_, ?_⟩
        · rw [Target.updateAll]
          have hstep : (((t.find? m.mmsi).getD Target.unknown).update t.retention (.message m)) = t.taken m := rfl
          rw [hstep, htaken]
          exact hrun
        · rw [hsome]
          simp
      · rw [if_neg (Ne.symm hm)] at hrun hsome
        rw [Item.sentBy_cons_other hm]
        exact ⟨hrun, hsome⟩

/-- Routing does not interfere. After a stream that a fresh tracker ingests without a fault a vessel is known exactly if it sent a
message of the stream, and then its target is the one that a target of its own becomes from what the vessel sent, in that order. -/
theorem target_of_ingestAll {keep : Retention α} {items : List (Item α)} {answers : List Bool}
    (h : ((fresh keep).ingestAll items).result = .ok answers) (mmsi : Int) :
    (((fresh keep).ingestAll items).state.contains mmsi = true ↔ ∃ m, .message m ∈ items ∧ m.mmsi = mmsi) ∧
      (((fresh keep).ingestAll items).state.contains mmsi = true →
        ∃ x, ((fresh keep).ingestAll items).state.target mmsi = .ok x ∧
          Target.unknown.updateAll keep (Item.sentBy mmsi items) = .ok x) := by
  obtain ⟨hrun, hsome⟩ := run_projects h mmsi
  have hcontains : ((fresh keep).ingestAll items).state.contains mmsi =
      (((fresh keep).ingestAll items).state.find? mmsi).isSome := Registry.contains_eq_isSome _ mmsi
  have hfresh : (fresh keep).find? mmsi = none := rfl
  rw [hfresh] at hrun hsome
  rw [hcontains]
  refine ⟨?_, ?_⟩
  · rw [hsome]
    constructor
    · rintro (h | h)
      · cases h
      · obtain ⟨m, hm⟩ := List.exists_mem_of_ne_nil _ h
        exact ⟨m, Item.mem_sentBy_iff.1 hm⟩
    · rintro ⟨m, hm⟩
      exact Or.inr (List.ne_nil_of_mem (Item.mem_sentBy_iff.2 hm))
  · intro hknown
    obtain ⟨x, hx⟩ := Option.isSome_iff_exists.1 hknown
    rw [hx] at hrun
    refine ⟨x, ?_, hrun⟩
    rw [target, hx]

/-- Two vessels and a failure between their messages: the one sample that is retained of the first vessel is its own. -/
theorem target_of_ingestAll_two_vessels :
    let items : List (Item Quantity) :=
      [.message (.position ⟨1, 1000, ⟨.whole 10, .whole 20⟩, 100, 50, 511, true, 1⟩), .failure ⟨['?'], ['!']⟩,
        .message (.other ⟨2, 1500, 4⟩), .message (.position ⟨1, 2000, ⟨.whole 11, .whole 21⟩, 100, 50, 511, true, 1⟩)]
    (((fresh (.latest 1)).ingestAll items).state.contains 1 = true ↔ ∃ m, .message m ∈ items ∧ m.mmsi = 1) ∧
      (((fresh (.latest 1)).ingestAll items).state.contains 1 = true →
        ∃ x, ((fresh (.latest 1)).ingestAll items).state.target 1 = .ok x ∧
          Target.unknown.updateAll (.latest 1) (Item.sentBy 1 items) = .ok x) := by
  intro items
  have hingested : ((fresh (.latest 1)).ingestAll items).result = .ok [true, false, true, true] := rfl
  exact target_of_ingestAll hingested 1

end Tracker
end VesselTraffic
