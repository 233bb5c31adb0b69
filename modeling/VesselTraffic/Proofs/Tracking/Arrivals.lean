import VesselTraffic.Proofs.Geo.Growth
import VesselTraffic.Proofs.Tracking.Operations

/-!
# What arrives at a tracker

An operation may stop at a fault, and then part of it has been done: the items in front of the one at fault were taken in, and that one
was handed to the tracker too. What arrives by operations are the vessels and the messages that were really handed over
(`Operation.arrivals`, `arrivals`). A message that makes a target whose MMSI cannot be written is stopped there, so it arrives like a
vessel of which nothing is known. All that operations do to a tracker is done by four changes, so what each of them keeps holds after
any operations, whether they failed or not (`Kept.run`).
-/

namespace VesselTraffic.Tracker

variable {α : Type}

/-- What arrives at a tracker. -/
inductive Arrival (α : Type) where
  /-- A vessel that is to have a target. -/
  | vessel (mmsi : Int)
  /-- A message that gets no further than a target for its sender. -/
  | stopped (m : Message α)
  /-- A message that gets to the target of its sender. -/
  | message (m : Message α)

namespace Arrival

/-- The vessel that an arrival is about. -/
def mmsi : Arrival α → Int
  | vessel mmsi => mmsi
  | stopped m | message m => m.mmsi

/-- The message that gets to its target, if it is one. -/
def message? : Arrival α → Option (Message α)
  | vessel _ | stopped _ => none
  | message m => some m

/-- The messages that get to their targets among arrivals, in order. -/
def messages (as : List (Arrival α)) : List (Message α) := as.filterMap message?

/-- An arrival that does no more to a tracker than making a target: a vessel, or a message that is stopped because its sender is not
admitted. -/
def Registers (t : Tracker α) : Arrival α → Prop
  | vessel _ => True
  | stopped m => ¬t.Admits m.mmsi
  | message _ => False

/-- An arrival that only makes a target has no message for it. -/
theorem Registers.message? {t : Tracker α} {b : Arrival α} (h : b.Registers t) : b.message? = none := by
  cases b with
  | vessel mmsi => rfl
  | stopped m => rfl
  | message m => exact h.elim

/-- What a message for the target of its sender arrives as. -/
def ofMessage (t : Tracker α) (m : Message α) : Arrival α := if t.Admits m.mmsi then message m else stopped m

/-- What an item arrives as; a failure does not concern any vessel. -/
def ofItem (t : Tracker α) : Item α → List (Arrival α)
  | .message m => [ofMessage t m]
  | .failure _ => []

/-- A message of a vessel whose MMSI can be written gets to its target. -/
theorem ofItem_of_readable (t : Tracker α) {m : Message α} (h : Number.Readable m.mmsi) : ofItem t (.message m) = [message m] := by
  have hadmits : t.Admits m.mmsi := Or.inr h
  rw [ofItem, ofMessage, if_pos hadmits]

/-- A message gets to its target if it arrives as such. -/
theorem mem_messages_iff {as : List (Arrival α)} {m : Message α} : m ∈ messages as ↔ message m ∈ as := by
  rw [messages, List.mem_filterMap]
  constructor
  · rintro ⟨a, ha, ham⟩
    cases a with
    | vessel mmsi => cases ham
    | stopped n => cases ham
    | message n => exact Option.some.inj ham ▸ ha
  · exact fun hm => ⟨_, hm, rfl⟩

/-- The messages among arrivals of which a message is the last. -/
theorem messages_concat_message (as : List (Arrival α)) (m : Message α) : messages (as ++ [message m]) = messages as ++ [m] :=
  List.filterMap_append

/-- The messages among arrivals of which the last one only makes a target. -/
theorem messages_concat_of_none (as : List (Arrival α)) {b : Arrival α} (h : b.message? = none) :
    messages (as ++ [b]) = messages as := by
  rw [messages, List.filterMap_append, List.filterMap_cons_none h]
  exact List.append_nil _

variable [Navigation α]

/-- The valid position reports among arrivals, in order. -/
def reports (as : List (Arrival α)) : List (PositionReport α) := (messages as).filterMap Message.validReport?

/-- The reports among arrivals of which a message is the last. -/
theorem reports_concat_message (as : List (Arrival α)) (m : Message α) :
    reports (as ++ [message m]) = reports as ++ m.validReport?.toList := by
  rw [reports, messages_concat_message, List.filterMap_append, List.filterMap_cons]
  cases m.validReport? <;> rfl

/-- The reports among arrivals of which the last one only makes a target. -/
theorem reports_concat_of_none (as : List (Arrival α)) {b : Arrival α} (h : b.message? = none) :
    reports (as ++ [b]) = reports as := by
  rw [reports, messages_concat_of_none as h]
  rfl

end Arrival

variable [Navigation α]

/-- What the items of a stream arrive as: those up to the first one that is at fault, which is among them. -/
def arriving (t : Tracker α) : List (Item α) → List (Arrival α)
  | [] => []
  | i :: rest =>
    Arrival.ofItem t i ++ match (t.ingest i).result with
      | .error _ => []
      | .ok _ => (t.ingest i).state.arriving rest

/-- What arrives by an operation, in order. -/
def Operation.arrivals (t : Tracker α) : Operation α → List (Arrival α)
  | ingest i | update i => Arrival.ofItem t i
  | getOrCreate mmsi => [.vessel mmsi]
  | read source => t.arriving source.items
  | push subscriptions i => t.arriving (List.replicate subscriptions i)
  | label _ _ | ask => []

/-- What arrives by operations, in order. -/
def arrivals (t : Tracker α) : List (Operation α) → List (Arrival α)
  | [] => []
  | o :: rest => o.arrivals t ++ arrivals (o.next t) rest

/-- What arrives by steps, in order. -/
def stepArrivals (t : Tracker α) : List (Step α) → List (Arrival α)
  | [] => []
  | s :: rest => s.operation.arrivals (t.retaining s.retention) ++ stepArrivals (s.next t) rest

/-- The messages of a stream without a fault all get to their targets. -/
theorem arriving_of_ok {t : Tracker α} {items : List (Item α)} {answers : List Bool} (h : (t.ingestAll items).result = .ok answers) :
    t.arriving items = (Item.messages items).map .message := by
  induction items generalizing t answers with
  | nil => rfl
  | cons i rest ih =>
    obtain ⟨applied, later, hi, hrest, -⟩ := ingestAll_cons_ok h
    rw [arriving, hi]
    simp only
    rw [ih hrest]
    cases i with
    | failure f => rfl
    | message m =>
      rw [Arrival.ofItem, Arrival.ofMessage, if_pos (ingest_eq_ok_iff.1 hi).1.1]
      rfl

/-- A property of a tracker and of what has arrived at it that every change keeps: a message that gets to its target, a target that is
made, a label, and another count of failures. -/
structure Kept (P : Tracker α → List (Arrival α) → Prop) : Prop where
  message : ∀ {t a} m, t.Admits m.mmsi → P t a → P (t.apply m).state (a ++ [.message m])
  registered : ∀ {t a b}, b.Registers t → P t a → P (t.ensure b.mmsi) (a ++ [b])
  label : ∀ {t a} mmsi l, P t a → P (t.labelTarget mmsi l).state a
  count : ∀ {t a} n, P t a → P { t with malformed := n } a

namespace Kept

variable {P : Tracker α → List (Arrival α) → Prop} {t : Tracker α} {a : List (Arrival α)}

/-- Applying a message keeps what the changes keep, whether it is stopped or gets to its target. -/
theorem apply (hP : Kept P) (h : P t a) (m : Message α) : P (t.apply m).state (a ++ [Arrival.ofMessage t m]) := by
  by_cases hm : t.Admits m.mmsi
  · rw [Arrival.ofMessage, if_pos hm]
    exact hP.message m hm h
  · rw [Arrival.ofMessage, if_neg hm, apply_of_not_admits hm]
    exact hP.registered (b := .stopped m) hm h

/-- Ingesting an item keeps what the changes keep. -/
theorem ingest (hP : Kept P) (h : P t a) (i : Item α) : P (t.ingest i).state (a ++ Arrival.ofItem t i) := by
  cases i with
  | message m => exact hP.apply h m
  | failure f =>
    have hnone : a ++ Arrival.ofItem t (.failure f) = a := List.append_nil a
    rw [hnone]
    exact hP.count _ h

/-- Ingesting items up to the first fault keeps what the changes keep. -/
theorem ingestAll (hP : Kept P) (h : P t a) (items : List (Item α)) : P (t.ingestAll items).state (a ++ t.arriving items) := by
  induction items generalizing t a with
  | nil =>
    have hnone : a ++ t.arriving [] = a := List.append_nil a
    rw [hnone]
    exact h
  | cons i rest ih =>
    have hfirst := hP.ingest h i
    rw [Tracker.ingestAll, arriving]
    cases (t.ingest i).result with
    | error e => exact (List.append_nil (Arrival.ofItem t i)).symm ▸ hfirst
    | ok applied =>
      have hrest := ih hfirst
      rw [List.append_assoc] at hrest
      exact hrest

/-- An operation keeps what the changes keep. -/
theorem next (hP : Kept P) (h : P t a) (o : Operation α) : P (o.next t) (a ++ o.arrivals t) := by
  cases o with
  | ingest i => exact hP.ingest h i
  | update i =>
    cases i with
    | message m => exact hP.apply h m
    | failure f => exact (List.append_nil a).symm ▸ h
  | getOrCreate mmsi =>
    rw [Operation.next, state_getOrCreate]
    exact hP.registered (b := .vessel mmsi) trivial h
  | read source =>
    rw [Operation.next, state_readStream]
    exact hP.ingestAll h source.items
  | push subscriptions i => exact hP.ingestAll h _
  | label mmsi l => exact (List.append_nil a).symm ▸ hP.label mmsi l h
  | ask => exact (List.append_nil a).symm ▸ h

/-- Operations keep what the changes keep. -/
theorem run (hP : Kept P) (h : P t a) (operations : List (Operation α)) :
    P (t.run operations) (a ++ t.arrivals operations) := by
  induction operations generalizing t a with
  | nil => exact (List.append_nil a).symm ▸ h
  | cons o rest ih =>
    have hrest := ih (hP.next h o)
    rw [List.append_assoc] at hrest
    exact hrest

/-- Steps keep what the changes keep, if it does not depend on the retention. -/
theorem runSteps (hP : Kept P) (hblind : ∀ {t a} keep, P t a → P (t.retaining keep) a) (h : P t a) (steps : List (Step α)) :
    P (t.runSteps steps) (a ++ t.stepArrivals steps) := by
  induction steps generalizing t a with
  | nil => exact (List.append_nil a).symm ▸ h
  | cons s rest ih =>
    have hrest := ih (hP.next (hblind s.retention h) s.operation)
    rw [List.append_assoc] at hrest
    exact hrest

/-- What holds of a fresh tracker, at which nothing has arrived, and is kept by the changes holds after any operations. -/
theorem run_fresh (hP : Kept P) {keep : Retention α} (h : P (fresh keep) []) (operations : List (Operation α)) :
    P ((fresh keep).run operations) ((fresh keep).arrivals operations) :=
  hP.run h operations

end Kept

/-- The retention of a tracker stays. -/
theorem kept_retention (keep : Retention α) : Kept fun (t : Tracker α) _ => t.retention = keep := by
  refine ⟨fun m _ h => (retention_apply _ m).trans h, fun _ h => h, ?_, fun _ h => h⟩
  intro t _ mmsi l h
  simpa using h

/-- The sides of an extent stay numbers. -/
theorem kept_numbers : Kept fun (t : Tracker Quantity) _ => Extent.AllAmong Quantity.IsNumber t.extent := by
  refine ⟨?_, fun _ h => h, ?_, fun _ h => h⟩
  · intro t _ m hm h
    rw [extent_apply hm, grown]
    cases hr : m.validReport? with
    | none => exact h
    | some r => exact h.observe (Message.among_of_validReport? hr)
  · intro t _ mmsi l h
    simpa using h

/-- Operations are steps at which the retention always decides in the same way. -/
theorem run_eq_runSteps (t : Tracker α) (operations : List (Operation α)) :
    t.run operations = t.runSteps (operations.map (Step.mk t.retention)) ∧
      t.arrivals operations = t.stepArrivals (operations.map (Step.mk t.retention)) := by
  induction operations generalizing t with
  | nil => exact ⟨rfl, rfl⟩
  | cons o rest ih =>
    have hrest := ih (o.next t)
    rw [(kept_retention t.retention).next (a := []) rfl o] at hrest
    exact ⟨hrest.1, congrArg (o.arrivals t ++ ·) hrest.2⟩

/-- An extent is grown by the positions of the valid reports that arrive. -/
theorem kept_extent (box : Option (Extent α)) : Kept fun (t : Tracker α) as =>
    t.extent = ((Arrival.reports as).map PositionReport.position).foldl Extent.observe box := by
  refine ⟨?_, ?_, ?_, fun _ h => h⟩
  · intro t as m hm h
    rw [extent_apply hm, Arrival.reports_concat_message, List.map_append, List.foldl_append, ← h, grown]
    cases m.validReport? <;> rfl
  · intro t as b hb h
    rw [Arrival.reports_concat_of_none as hb.message?]
    exact h
  · intro t as mmsi l h
    simpa using h

/-- The extent has been grown by the positions of the valid reports that arrived. -/
theorem extent_runSteps_arrivals (t : Tracker α) (steps : List (Step α)) :
    (t.runSteps steps).extent =
      ((Arrival.reports (t.stepArrivals steps)).map PositionReport.position).foldl Extent.observe t.extent :=
  (kept_extent t.extent).runSteps (fun _ h => h) (a := []) rfl steps

/-- After operations as well the extent has been grown by the positions of the valid reports that arrived. -/
theorem extent_run_arrivals (t : Tracker α) (operations : List (Operation α)) :
    (t.run operations).extent =
      ((Arrival.reports (t.arrivals operations)).map PositionReport.position).foldl Extent.observe t.extent := by
  obtain ⟨hrun, harrivals⟩ := t.run_eq_runSteps operations
  rw [hrun, harrivals]
  exact t.extent_runSteps_arrivals _

end VesselTraffic.Tracker
