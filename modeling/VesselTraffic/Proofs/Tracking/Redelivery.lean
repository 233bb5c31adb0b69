import VesselTraffic.Proofs.Timeline.Putting
import VesselTraffic.Proofs.Tracking.Indexes

/-!
# Items that come again

Of what a vessel sent, a target that keeps every sample shows the last static report and the last sample of each time. When the same
messages come again, those that were overwritten come back for a while, and then they are overwritten again (`after_again`). So a
tracker is left as it is by a stream that it has ingested before (`Settled.ingestAll_again`), and it makes no difference by how many
subscriptions an item comes (`Settled.run_push`). Only failures are counted each time.
-/

namespace VesselTraffic

variable {α : Type} [Navigation α]

/-- The messages of a vessel make of a target what they made of it before. -/
theorem Target.after_again (mmsi : Int) (t : Target α) (ms : List (Message α)) :
    (t.after Retention.keepAll mmsi ms).after Retention.keepAll mmsi ms = t.after Retention.keepAll mmsi ms := by
  have hmmsi : (if ms = [] then if ms = [] then t.mmsi else some mmsi else some mmsi) = if ms = [] then t.mmsi else some mmsi := by
    split <;> rfl
  unfold after
  simp only [Timeline.foldl_insert_keepAll, Timeline.foldl_put_again, hmmsi]
  -- A static report overwrites all that it wrote before.
  cases (ms.filterMap Message.static?).getLast? <;> rfl

attribute [ext] Tracker

namespace Tracker

/-- The tracker with more failures counted. -/
def counted (t : Tracker α) (n : Nat) : Tracker α := { t with malformed := t.malformed + n }

omit [Navigation α] in
/-- Failures that are counted one after the other. -/
theorem counted_counted (t : Tracker α) (m n : Nat) : (t.counted m).counted n = t.counted (m + n) :=
  Tracker.ext rfl rfl rfl (Nat.add_assoc _ _ _)

/-- What is done with an item does not depend on the count of failures. -/
theorem ingest_counted (t : Tracker α) (n : Nat) (i : Item α) :
    ((t.counted n).ingest i).state = (t.ingest i).state.counted n ∧ ((t.counted n).ingest i).result = (t.ingest i).result := by
  cases i with
  | failure f => exact ⟨Tracker.ext rfl rfl rfl (Nat.add_right_comm _ _ _), rfl⟩
  | message m =>
    have happly : ((t.counted n).apply m).state = (t.apply m).state.counted n ∧ ((t.counted n).apply m).result = (t.apply m).result := by
      by_cases hm : t.Admits m.mmsi
      · have hcounted : (t.counted n).Admits m.mmsi := hm
        rw [(apply_eq hm).1, (apply_eq hm).2, (apply_eq hcounted).1, (apply_eq hcounted).2]
        exact ⟨rfl, rfl⟩
      · have hcounted : ¬(t.counted n).Admits m.mmsi := hm
        rw [apply_of_not_admits hm, apply_of_not_admits hcounted]
        exact ⟨rfl, rfl⟩
    exact ⟨happly.1, congrArg (Except.map fun _ => true) happly.2⟩

/-- What is done with a stream does not depend on the count of failures. -/
theorem ingestAll_counted (t : Tracker α) (n : Nat) (items : List (Item α)) :
    ((t.counted n).ingestAll items).state = (t.ingestAll items).state.counted n ∧
      ((t.counted n).ingestAll items).result = (t.ingestAll items).result := by
  induction items generalizing t with
  | nil => exact ⟨rfl, rfl⟩
  | cons i rest ih =>
    obtain ⟨hstate, hresult⟩ := t.ingest_counted n i
    rw [ingestAll, ingestAll, hresult, hstate]
    cases (t.ingest i).result with
    | error e => exact ⟨rfl, rfl⟩
    | ok applied =>
      obtain ⟨hrest, hanswers⟩ := ih (t.ingest i).state
      exact ⟨hrest, congrArg (Except.map (applied :: ·)) hanswers⟩

/-- A tracker that keeps every sample, has its targets under their vessels, and whose extent is a box of numbers. -/
structure Settled (t : Tracker Quantity) : Prop where
  retention : t.retention = Retention.keepAll
  consistent : t.Consistent
  numbers : Extent.AllAmong Quantity.IsNumber t.extent

/-- A tracker stays settled. -/
theorem kept_settled : Kept fun (t : Tracker Quantity) _ => t.Settled where
  message {_ a} m hm h := ⟨(kept_retention _).message (a := a) m hm h.retention, kept_consistent.message (a := a) m hm h.consistent,
    kept_numbers.message (a := a) m hm h.numbers⟩
  registered {_ a _} hb h := ⟨h.retention, kept_consistent.registered (a := a) hb h.consistent, h.numbers⟩
  label {_ a} mmsi l h := ⟨(kept_retention _).label (a := a) mmsi l h.retention, kept_consistent.label (a := a) mmsi l h.consistent,
    kept_numbers.label (a := a) mmsi l h.numbers⟩
  count _ h := ⟨h.retention, h.consistent, h.numbers⟩

namespace Settled

variable {t : Tracker Quantity} {xs : List (Item Quantity)} {answers : List Bool}

/-- A stream that is ingested again leaves the targets, their order and the extent as they are, and its failures are counted again. -/
theorem ingestAll_again (ht : t.Settled) (h : (t.ingestAll xs).result = .ok answers) :
    let once := (t.ingestAll xs).state
    (once.ingestAll xs).result = .ok answers ∧ (once.ingestAll xs).state = once.counted (xs.countP Item.isFailure) := by
  intro once
  have honce : once.Settled := kept_settled.ingestAll (a := []) ht xs
  have hfirst := ht.consistent.ingestAll_ok_iff.1 ⟨answers, h⟩
  obtain ⟨answers', h'⟩ := honce.consistent.ingestAll_ok_iff.2 fun m hm => ⟨(hfirst m hm).1.ingestAll xs, (hfirst m hm).2⟩
  have hanswers : answers' = answers := (answers_ingestAll h').trans (answers_ingestAll h).symm
  refine ⟨hanswers ▸ h', Tracker.ext ?_ (Registry.ext_find? ?_ fun mmsi => ?_) ?_ (malformed_ingestAll h')⟩
  · exact (kept_retention _).ingestAll (a := []) rfl xs
  · -- All senders have got their targets before.
    refine (kept_known once.registry).ingestAll (a := []) (fun _ => rfl) xs ?_
    rw [arriving_of_ok h', List.nil_append]
    refine List.forall_mem_map.2 fun m hm => Registry.isSome_find?_iff.1 ?_
    have hsent : m ∈ Item.sentBy m.mmsi xs := List.mem_filter.2 ⟨hm, decide_eq_true rfl⟩
    exact (run_projects h m.mmsi).2.2 (Or.inr (List.ne_nil_of_mem hsent))
  · refine (honce.consistent.find?_ingestAll h' mmsi).trans ?_
    split
    · rfl
    · rename_i hne
      have hfound := (ht.consistent.find?_ingestAll h mmsi).trans (if_neg hne)
      rw [hfound, Option.getD_some, honce.retention, ht.retention, Target.after_again]
      exact (ht.retention ▸ hfound).symm
  · have hnumbers : ∀ p ∈ ((Item.messages xs).filterMap Message.validReport?).map PositionReport.position,
        p.Among Quantity.IsNumber := by
      refine List.forall_mem_map.2 fun r hr => ?_
      obtain ⟨m, -, hm⟩ := List.mem_filterMap.1 hr
      exact Message.among_of_validReport? hm
    have hextent : (once.counted (xs.countP Item.isFailure)).extent = once.extent := rfl
    rw [hextent, extent_ingestAll h', extent_ingestAll h]
    exact Extent.foldl_observe_again Quantity.orderedOn ht.numbers hnumbers

/-- An item that comes by several subscriptions leaves what it leaves when it comes once, but a failure is counted each time. -/
theorem deliver_eq (ht : t.Settled) {i : Item Quantity} {applied : Bool} (hi : (t.ingest i).result = .ok applied) (k : Nat) :
    (∃ answers, (t.deliver (k + 1) i).result = .ok answers) ∧
      (t.deliver (k + 1) i).state = (t.ingest i).state.counted (k * [i].countP Item.isFailure) := by
  induction k generalizing t applied with
  | zero =>
    obtain ⟨hall, hstate⟩ := ingestAll_singleton hi
    rw [Nat.zero_mul]
    exact ⟨⟨_, hall⟩, hstate⟩
  | succ k ih =>
    obtain ⟨hall, hstate⟩ := ingestAll_singleton hi
    obtain ⟨hagain, hcounted⟩ := ht.ingestAll_again hall
    rw [hstate] at hagain hcounted
    obtain ⟨applied', _, hi', -, -⟩ := ingestAll_cons_ok hagain
    rw [(ingestAll_singleton hi').2] at hcounted
    have hsettled : (t.ingest i).state.Settled := kept_settled.ingest (a := []) ht i
    obtain ⟨⟨answers, hrest⟩, hdeliver⟩ := ih hsettled hi'
    have hok := ingestAll_cons_of_ok hi hrest
    obtain ⟨-, -, -, -, hmore⟩ := ingestAll_cons_ok hok
    refine ⟨⟨_, hok⟩, hmore.trans (hdeliver.trans ?_)⟩
    rw [hcounted, counted_counted, Nat.succ_mul, Nat.add_comm]

/-- Items that come by several subscriptions leave what they leave when they come once, but failures are counted each time. -/
theorem run_push (ht : t.Settled) (h : (t.ingestAll xs).result = .ok answers) (k : Nat) :
    t.IngestsAll (xs.map (Operation.push (k + 1))) ∧
      t.run (xs.map (Operation.push (k + 1))) = (t.ingestAll xs).state.counted (k * xs.countP Item.isFailure) := by
  induction xs generalizing t answers with
  | nil => exact ⟨trivial, rfl⟩
  | cons i rest ih =>
    obtain ⟨applied, later, hi, hrest, hstate⟩ := ingestAll_cons_ok h
    obtain ⟨hok, hdeliver⟩ := ht.deliver_eq hi k
    have hnext : (Operation.push (k + 1) i).next t = (t.ingest i).state.counted (k * [i].countP Item.isFailure) := hdeliver
    have hfirst : (t.ingest i).state.Settled := kept_settled.ingest (a := []) ht i
    have hsettled := kept_settled.count (a := []) ((t.ingest i).state.malformed + k * [i].countP Item.isFailure) hfirst
    obtain ⟨hcounted, hresult⟩ := (t.ingest i).state.ingestAll_counted (k * [i].countP Item.isFailure) rest
    obtain ⟨hall, hrun⟩ := ih hsettled (hresult.trans hrest)
    refine ⟨⟨hok, hnext ▸ hall⟩, ?_⟩
    have hstep : t.run ((i :: rest).map (Operation.push (k + 1))) =
        ((Operation.push (k + 1) i).next t).run (rest.map (Operation.push (k + 1))) := rfl
    have hcount : (i :: rest).countP Item.isFailure = [i].countP Item.isFailure + rest.countP Item.isFailure := by
      rw [← List.countP_append, List.singleton_append]
    rw [hstep, hnext, hstate, hcount, Nat.mul_add, ← counted_counted, ← hcounted]
    exact hrun

end Settled

/-- Items may come again. After any operations on a tracker that keeps every sample, a stream that is ingested without a fault is
ingested again without a fault, and with the same answers; its items may as well come one by one by any number of subscriptions. All
that the second time or the other subscriptions change is the count of failures, which grows by those of the stream each time. -/
theorem ingestAll_redelivered {operations : List (Operation Quantity)} {xs : List (Item Quantity)} {answers : List Bool}
    (h : (((fresh Retention.keepAll).run operations).ingestAll xs).result = .ok answers) :
    let t := (fresh Retention.keepAll).run operations
    let once := (t.ingestAll xs).state
    let failures := xs.countP Item.isFailure
    once.malformed = t.malformed + failures ∧
      ((once.ingestAll xs).result = .ok answers ∧
        (once.ingestAll xs).state = { once with malformed := once.malformed + failures }) ∧
      ∀ k, 1 ≤ k → t.IngestsAll (xs.map (Operation.push k)) ∧
        t.run (xs.map (Operation.push k)) = { once with malformed := t.malformed + k * failures } := by
  intro t once failures
  have ht : t.Settled := kept_settled.run_fresh ⟨rfl, consistent_fresh _, nofun⟩ operations
  have hmalformed : once.malformed = t.malformed + failures := malformed_ingestAll h
  refine ⟨hmalformed, ht.ingestAll_again h, fun k hk => ?_⟩
  obtain ⟨k, rfl⟩ : ∃ k', k = k' + 1 := ⟨k - 1, by omega⟩
  obtain ⟨hall, hrun⟩ := ht.run_push h k
  refine ⟨hall, hrun.trans (Tracker.ext rfl rfl rfl ?_)⟩
  have hcount : once.malformed + k * failures = t.malformed + (k + 1) * failures := by
    rw [hmalformed, Nat.succ_mul, Nat.add_assoc, Nat.add_comm failures]
  exact hcount

/-- A stream in which a position and a name are overwritten, with a failure in between. -/
def overwriting : List (Item Quantity) :=
  [.message (.position ⟨1, 1000, ⟨.whole 10, .whole 20⟩, 100, 50, 511, true, 1⟩),
    .message (.static ⟨1, 1000, ['A'], ⟨1, 1, 1, 1⟩, 70, [], 5⟩), .failure ⟨['?'], ['!']⟩,
    .message (.static ⟨1, 1500, ['B'], ⟨2, 2, 2, 2⟩, 80, [], 5⟩),
    .message (.position ⟨1, 1000, ⟨.whole 11, .whole 21⟩, 100, 50, 511, true, 1⟩)]

/-- The position and the name that were overwritten come back and are overwritten again. -/
theorem ingestAll_redelivered_overwritten :
    let t := (fresh Retention.keepAll).run [.getOrCreate 1, .label 1 (.number 7)]
    let once := (t.ingestAll overwriting).state
    (t.ingestAll overwriting).result = .ok [true, true, false, true, true] ∧
      (once.ingestAll overwriting).state = { once with malformed := once.malformed + overwriting.countP Item.isFailure } ∧
      t.run (overwriting.map (Operation.push 2)) = { once with malformed := t.malformed + 2 * overwriting.countP Item.isFailure } := by
  have hingested : (((fresh Retention.keepAll).run [.getOrCreate 1, .label 1 (.number 7)]).ingestAll overwriting).result =
      .ok [true, true, false, true, true] := rfl
  obtain ⟨-, ⟨-, hagain⟩, hpush⟩ := ingestAll_redelivered hingested
  obtain ⟨-, hrun⟩ := hpush 2 (by decide)
  exact ⟨hingested, hagain, hrun⟩

end Tracker
end VesselTraffic
