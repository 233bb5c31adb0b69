import VesselTraffic.Proofs.Geo.Extents
import VesselTraffic.Proofs.Tracking.Histories

/-!
# Histories of a tracker

A tracker is fed item by item, from streams and by subscriptions, and in between targets are made, labelled and asked about. All that
matters to its extent are the valid position reports among the items that came in: an operation grows the extent by their positions
(`extent_next`), and so does a whole history (`extent_runSteps`). So the extent is the hull of those positions at any time
(`extent_run_isHull`), whatever became of the samples that were made of them, and even if the retention decides anew at each step.
-/

namespace VesselTraffic.Tracker

variable {α : Type}

/-- What is done with a tracker. -/
inductive Operation (α : Type) where
  /-- An item is ingested. -/
  | ingest (i : Item α)
  /-- An item that has to be a message is routed to its target. -/
  | update (i : Item α)
  /-- A vessel is given a target if it has none. -/
  | getOrCreate (mmsi : Int)
  /-- A stream or a file is read. -/
  | read (source : Source α)
  /-- An item comes in by a number of subscriptions. -/
  | push (subscriptions : Nat) (i : Item α)
  /-- A target is labelled. -/
  | label (mmsi : Int) (l : Label)
  /-- The tracker is asked something, which leaves it as it is. -/
  | ask

namespace Operation

/-- The items that come in by an operation, in order. -/
def items : Operation α → List (Item α)
  | ingest i | update i => [i]
  | read source => source.items
  | push subscriptions i => List.replicate subscriptions i
  | getOrCreate _ | label _ _ | ask => []

variable [Navigation α]

/-- The valid position reports that come in by an operation, in order. -/
def reports (o : Operation α) : List (PositionReport α) := (Item.messages o.items).filterMap Message.validReport?

/-- The tracker after an operation. -/
def next (t : Tracker α) : Operation α → Tracker α
  | ingest i => (t.ingest i).state
  | update i => (t.update i).state
  | getOrCreate mmsi => (t.getOrCreate mmsi).state
  | read source => (t.readStream source).state
  | push subscriptions i => (t.deliver subscriptions i).state
  | label mmsi l => (t.labelTarget mmsi l).state
  | ask => t

/-- An operation that ingests its items without a fault. Making a target and labelling one may be at fault, but nothing is ingested
by them. -/
def Ingests (t : Tracker α) : Operation α → Prop
  | ingest i => ∃ applied, (t.ingest i).result = .ok applied
  | update i => (t.update i).result = .ok ()
  | read source => ∃ applied, (t.readStream source).result = .ok applied
  | push subscriptions i => ∃ answers, (t.deliver subscriptions i).result = .ok answers
  | getOrCreate _ | label _ _ | ask => True

end Operation

variable [Navigation α]

/-- The tracker after operations in order. -/
def run (t : Tracker α) (operations : List (Operation α)) : Tracker α := operations.foldl Operation.next t

/-- Operations that ingest all their items without a fault. -/
def IngestsAll (t : Tracker α) : List (Operation α) → Prop
  | [] => True
  | o :: rest => o.Ingests t ∧ IngestsAll (o.next t) rest

/-- Items come in one by one up to the first one at fault, so what a stream does to a tracker is done by an operation for each of them. -/
theorem exists_state_ingestAll_eq (t : Tracker α) (items : List (Item α)) :
    ∃ n, (t.ingestAll items).state = t.run ((items.take n).map .ingest) := by
  induction items generalizing t with
  | nil => exact ⟨0, rfl⟩
  | cons i rest ih =>
    rw [ingestAll]
    cases (t.ingest i).result with
    | error e => exact ⟨1, rfl⟩
    | ok applied =>
      obtain ⟨n, hn⟩ := ih (t.ingest i).state
      exact ⟨n + 1, hn⟩

/-- An operation, and how the retention decides while it is done. A retention may have a state or look at a clock, and then it decides
otherwise each time; a stream is then a step for each of its items (`exists_state_ingestAll_eq`). -/
structure Step (α : Type) where
  retention : Retention α
  operation : Operation α

omit [Navigation α] in
/-- The tracker, with a retention that decides otherwise from now on. -/
def retaining (t : Tracker α) (keep : Retention α) : Tracker α := { t with retention := keep }

namespace Step

/-- The tracker after a step. -/
def next (t : Tracker α) (s : Step α) : Tracker α := s.operation.next (t.retaining s.retention)

/-- The valid position reports that come in by a step, in order. -/
def reports (s : Step α) : List (PositionReport α) := s.operation.reports

end Step

/-- The tracker after steps in order. -/
def runSteps (t : Tracker α) (steps : List (Step α)) : Tracker α := steps.foldl Step.next t

/-- Steps that ingest all their items without a fault. -/
def IngestsSteps (t : Tracker α) : List (Step α) → Prop
  | [] => True
  | s :: rest => s.operation.Ingests (t.retaining s.retention) ∧ IngestsSteps (s.next t) rest

/-- Steps that ingest all their items do so at first and then later on. -/
theorem ingestsSteps_append {t : Tracker α} {earlier later : List (Step α)} :
    t.IngestsSteps (earlier ++ later) ↔ t.IngestsSteps earlier ∧ (t.runSteps earlier).IngestsSteps later := by
  induction earlier generalizing t with
  | nil => exact (iff_of_eq (true_and _)).symm
  | cons s rest ih => exact (and_congr_right fun _ => ih).trans and_assoc.symm

/-- An item that is ingested without a fault is ingested as a stream of one. -/
theorem ingestAll_singleton {t : Tracker α} {i : Item α} {applied : Bool} (h : (t.ingest i).result = .ok applied) :
    (t.ingestAll [i]).result = .ok [applied] ∧ (t.ingestAll [i]).state = (t.ingest i).state := by
  have hnil : ((t.ingest i).state.ingestAll []).result = .ok [] := rfl
  have hall := ingestAll_cons_of_ok h hnil
  obtain ⟨-, -, -, -, hstate⟩ := ingestAll_cons_ok hall
  exact ⟨hall, hstate⟩

/-- Reading a stream leaves the tracker as ingesting its items does. -/
theorem state_readStream (t : Tracker α) (source : Source α) : (t.readStream source).state = (t.ingestAll source.items).state := by
  cases hall : (t.ingestAll source.items).result <;> cases hfault : source.fault <;> simp only [readStream, hall, hfault]

/-- A stream is read exactly if it ends without a fault of its own and its items are ingested, and the answer is how many of them were
applied. -/
theorem readStream_eq_ok_iff {t : Tracker α} {source : Source α} {applied : Nat} :
    (t.readStream source).result = .ok applied ↔
      source.fault = none ∧ ∃ answers, (t.ingestAll source.items).result = .ok answers ∧ applied = answers.count true := by
  cases hall : (t.ingestAll source.items).result <;> cases hfault : source.fault <;> simp [readStream, hall, hfault, eq_comm]

/-- A stream that is not read is at fault for one of its items, or it ended in a fault of its own. -/
theorem fault_of_readStream {t : Tracker α} {source : Source α} {e : Fault} (h : (t.readStream source).result = .error e) :
    (t.ingestAll source.items).result = .error e ∨ source.fault = some e := by
  cases hall : (t.ingestAll source.items).result <;> cases hfault : source.fault <;> simp [readStream, hall, hfault] at h ⊢ <;> simp [h]

omit [Navigation α] in
/-- A label leaves the retention. -/
@[simp] theorem retention_labelTarget (t : Tracker α) (mmsi : Int) (l : Label) :
    (t.labelTarget mmsi l).state.retention = t.retention := by
  rw [labelTarget]
  cases t.find? mmsi <;> rfl

omit [Navigation α] in
/-- A label leaves the extent. -/
@[simp] theorem extent_labelTarget (t : Tracker α) (mmsi : Int) (l : Label) : (t.labelTarget mmsi l).state.extent = t.extent := by
  rw [labelTarget]
  cases t.find? mmsi <;> rfl

/-- What an operation ingests is a stream of its items, as far as the extent is concerned. -/
theorem extent_next_eq {t : Tracker α} {o : Operation α} (h : o.Ingests t) :
    (∃ answers, (t.ingestAll o.items).result = .ok answers) ∧ (o.next t).extent = (t.ingestAll o.items).state.extent := by
  cases o with
  | ingest i =>
    obtain ⟨applied, hi⟩ := h
    obtain ⟨hall, hstate⟩ := ingestAll_singleton hi
    exact ⟨⟨_, hall⟩, congrArg extent hstate.symm⟩
  | update i =>
    cases i with
    | failure f => cases h
    | message m =>
      have hi : (t.ingest (.message m)).result = .ok true := congrArg (Except.map fun _ => true) h
      obtain ⟨hall, hstate⟩ := ingestAll_singleton hi
      exact ⟨⟨_, hall⟩, congrArg extent hstate.symm⟩
  | read source =>
    obtain ⟨applied, hr⟩ := h
    obtain ⟨-, answers, hall, -⟩ := readStream_eq_ok_iff.1 hr
    exact ⟨⟨answers, hall⟩, congrArg extent (state_readStream t source)⟩
  | push subscriptions i => exact ⟨h, rfl⟩
  | getOrCreate mmsi =>
    refine ⟨⟨_, rfl⟩, ?_⟩
    rw [Operation.next, state_getOrCreate]
    rfl
  | label mmsi l => exact ⟨⟨_, rfl⟩, extent_labelTarget t mmsi l⟩
  | ask => exact ⟨⟨_, rfl⟩, rfl⟩

/-- An operation grows the extent by the positions of its valid reports. -/
theorem extent_next {t : Tracker α} {o : Operation α} (h : o.Ingests t) :
    (o.next t).extent = (o.reports.map PositionReport.position).foldl Extent.observe t.extent := by
  obtain ⟨⟨answers, hall⟩, hextent⟩ := extent_next_eq h
  rw [hextent, extent_ingestAll hall]
  rfl

/-- Steps grow the extent by the positions of their valid reports. -/
theorem extent_runSteps {t : Tracker α} {steps : List (Step α)} (h : t.IngestsSteps steps) :
    (t.runSteps steps).extent = ((steps.flatMap Step.reports).map PositionReport.position).foldl Extent.observe t.extent := by
  induction steps generalizing t with
  | nil => rfl
  | cons s rest ih =>
    obtain ⟨hs, hrest⟩ := h
    have hstep : (s.next t).extent = (s.reports.map PositionReport.position).foldl Extent.observe t.extent := extent_next hs
    have hsteps : (t.runSteps (s :: rest)).extent = ((s.next t).runSteps rest).extent := rfl
    rw [hsteps, ih hrest, hstep, List.flatMap_cons, List.map_append, List.foldl_append]

/-- The valid position reports of steps are valid. -/
theorem isValid_of_mem_reports {steps : List (Step α)} {r : PositionReport α} (h : r ∈ steps.flatMap Step.reports) :
    r.isValid = true := by
  obtain ⟨s, -, hr⟩ := List.mem_flatMap.1 h
  obtain ⟨m, -, hm⟩ := List.mem_filterMap.1 hr
  exact (Message.validReport?_eq_some_iff.1 hm).2

/-- An item without a position to be observed: a failure, a message that reports no position, or a report of one that is not valid or
has a coordinate that is no number. -/
def Unlocated : Item Quantity → Prop
  | .message (.position r) => r.isValid = false ∨ ¬(r.position.lat.IsNumber ∧ r.position.lon.IsNumber)
  | .message (.static _) | .message (.other _) | .failure _ => True

/-- Items without positions have no valid position reports among them. -/
theorem reports_eq_nil {o : Operation Quantity} (h : ∀ i ∈ o.items, Unlocated i) : o.reports = [] := by
  refine List.filterMap_eq_nil_iff.2 fun m hm => ?_
  obtain ⟨i, hi, him⟩ := List.mem_filterMap.1 hm
  have hu := h i hi
  cases i with
  | failure f => cases him
  | message m' =>
    cases him
    cases m with
    | static r => rfl
    | other m => rfl
    | position r =>
      rw [Message.validReport?, if_neg]
      intro hv
      rcases hu with hu | hu
      · rw [hv] at hu
        cases hu
      · exact hu (PositionReport.isNumber_of_isValid hv)

/-- The extent of a tracker is the hull of its history, whatever its retention decides at each step. If all items were ingested without a
fault, it is there exactly if a valid position was reported, and then it is the hull of the positions of all such reports, whatever was
discarded of them. It only ever grows, and only by valid positions. -/
theorem extent_run_isHull {keep : Retention Quantity} {steps : List (Step Quantity)} (h : (fresh keep).IngestsSteps steps) :
    let t := (fresh keep).runSteps steps
    let reports := steps.flatMap Step.reports
    ((t.extent = none ↔ reports = []) ∧ ∀ e, t.extent = some e → Extent.IsHull (reports.map PositionReport.position) e) ∧
      ∀ earlier later, steps = earlier ++ later →
        (∀ e, ((fresh keep).runSteps earlier).extent = some e → ∃ e', t.extent = some e' ∧ e.Within e') ∧
          ((∀ s ∈ later, ∀ i ∈ s.operation.items, Unlocated i) → t.extent = ((fresh keep).runSteps earlier).extent) := by
  intro t reports
  have hnumbers : ∀ (ss : List (Step Quantity)), ∀ p ∈ (ss.flatMap Step.reports).map PositionReport.position,
      p.lat.IsNumber ∧ p.lon.IsNumber := fun ss =>
    List.forall_mem_map.2 fun r hr => PositionReport.isNumber_of_isValid (isValid_of_mem_reports hr)
  have hhull : ∀ ss, (fresh keep).IngestsSteps ss →
      (((fresh keep).runSteps ss).extent = none ↔ ss.flatMap Step.reports = []) ∧
        ∀ e, ((fresh keep).runSteps ss).extent = some e →
          Extent.IsHull ((ss.flatMap Step.reports).map PositionReport.position) e := by
    intro ss hss
    rw [extent_runSteps hss, ← List.map_eq_nil_iff (f := PositionReport.position)]
    exact Extent.foldl_observe_isHull (hnumbers ss)
  refine ⟨hhull steps h, ?_⟩
  rintro earlier later rfl
  have hearlier := (ingestsSteps_append.1 h).1
  refine ⟨fun e he => ?_, fun hlater => ?_⟩
  · have hpositions := (hhull earlier hearlier).2 e he
    obtain ⟨e', he'⟩ := Option.ne_none_iff_exists'.1 fun hnone => by
      have hnil := (hhull _ h).1.1 hnone
      rw [List.flatMap_append, List.append_eq_nil_iff] at hnil
      rw [(hhull earlier hearlier).1.2 hnil.1] at he
      cases he
    refine ⟨e', he', hpositions.within ((hhull _ h).2 e' he') ?_⟩
    rw [List.flatMap_append, List.map_append]
    exact List.subset_append_left _ _
  · have hnil : later.flatMap Step.reports = [] := List.flatMap_eq_nil_iff.2 fun s hs => reports_eq_nil (hlater s hs)
    have hsame := extent_runSteps h
    rw [List.flatMap_append, hnil, List.append_nil, ← extent_runSteps hearlier] at hsame
    exact hsame

/-- Two vessels, a failure that two subscriptions deliver and a report that is not valid: the extent is the hull of the two valid
positions, of which the retention, which kept everything at first, has discarded the first one. -/
theorem extent_run_isHull_discarded :
    let steps : List (Step Quantity) :=
      [⟨.keepAll, .ingest (.message (.position ⟨1, 1000, ⟨.whole 10, .whole 20⟩, 100, 50, 511, true, 1⟩))⟩,
        ⟨.keepAll, .push 2 (.failure ⟨['?'], ['!']⟩)⟩,
        ⟨.latest 1, .update (.message (.position ⟨1, 2000, ⟨.whole 11, .whole 19⟩, 100, 50, 511, true, 1⟩))⟩,
        ⟨.latest 1, .label 1 (.number 7)⟩, ⟨.latest 1, .ask⟩,
        ⟨.keepAll, .read (.ofItems [.message (.position ⟨2, 2000, ⟨.whole 91, .whole 0⟩, 100, 50, 511, true, 1⟩)])⟩]
    ((fresh .keepAll).runSteps steps).extent = some ⟨.whole 10, .whole 11, .whole 19, .whole 20⟩ ∧
      Extent.IsHull [⟨.whole 10, .whole 20⟩, ⟨.whole 11, .whole 19⟩] ⟨.whole 10, .whole 11, .whole 19, .whole 20⟩ := by
  intro steps
  have hingests : (fresh .keepAll).IngestsSteps steps :=
    ⟨⟨true, rfl⟩, ⟨[false, false], rfl⟩, rfl, trivial, trivial, ⟨1, rfl⟩, trivial⟩
  have hextent : ((fresh .keepAll).runSteps steps).extent = some ⟨.whole 10, .whole 11, .whole 19, .whole 20⟩ := rfl
  exact ⟨hextent, (extent_run_isHull hingests).1.2 _ hextent⟩

end VesselTraffic.Tracker
