import VesselTraffic.Geo.Sphere
import VesselTraffic.Proofs.Tracking.Conflicts

/-!
# Refused updates

A target refuses what is no message and the messages of other vessels, and takes the messages of its own vessel unless a position cannot
be made a sample (`made_cases`). A refusal leaves no trace. So calls of which none fails for a sample make a target what the accepted ones
among them make of it alone (`run_accepted`): it is of the vessel of the first of them, shows the last static report, and has in its
timeline what the retention left of the samples (`run_eq_built`). Whether a call is refused, and how, can be told from what it offers and
from the vessel of the target (`run_ignores_refused`).

A retention may change from call to call, since it may depend on what it was asked before. It is only asked when a sample is put.
-/

namespace VesselTraffic

variable {α : Type}

/-- The message that is offered, if it is one. -/
def Offer.message? : Offer α → Option (Message α)
  | item i => i.message?
  | other _ => none

/-- Tenths that cannot be scaled are too great for that. -/
theorem Sphere.category_of_tenths {n : Int} {e : NumberFault} (h : tenths n = .error e) : e.category = .outOfRange := by
  unfold tenths Double.ofInt at h
  cases hx : Double.ofRatio? n 1 with
  | some x =>
    rw [hx] at h
    cases h
  | none =>
    rw [hx] at h
    cases h
    rfl

/-- A report that makes no sample has a course or a speed that is too great. -/
theorem Sample.category_of_ofReport {r : PositionReport Quantity} {e : NumberFault} (h : Sample.ofReport r = .error e) :
    e.category = .outOfRange := by
  unfold Sample.ofReport at h
  cases hcog : Sphere.tenths r.cog with
  | error e' =>
    have hfault : e' = e := by simpa [Navigation.tenths, hcog, Except.bind] using h
    exact hfault ▸ Sphere.category_of_tenths hcog
  | ok cog =>
    cases hsog : Sphere.tenths r.sog with
    | error e' =>
      have hfault : e' = e := by simpa [Navigation.tenths, hcog, hsog, Except.bind, Except.map] using h
      exact hfault ▸ Sphere.category_of_tenths hsog
    | ok sog => simp [Navigation.tenths, hcog, hsog, Except.bind, Except.map] at h

namespace Target

/-- A call on a target: what the target is offered, and the retention as it is at this call. -/
structure Call (α : Type) where
  retention : Retention α
  offer : Offer α

namespace Call

/-- The message of a call that offers one. -/
def message? (c : Call α) : Option (Message α) := c.offer.message?

/-- The static report of a call that offers one. -/
def static? (c : Call α) : Option StaticReport := c.message?.bind Message.static?

variable [Navigation α]

/-- A timeline with the sample that a call offers, if it offers one, and without what the retention discards then. -/
def put (l : Timeline α) (c : Call α) : Timeline α := (c.message?.bind Message.sample?).elim l (l.insert c.retention)

/-- The outcome of a call on a target. -/
def made (c : Call α) (t : Target α) : Outcome (Target α) Unit := t.offer c.retention c.offer

end Call

variable [Navigation α] {t : Target α}

/-- The target after calls. -/
def run (t : Target α) (calls : List (Call α)) : Target α := calls.foldl (fun t c => (c.made t).state) t

/-- What came of calls, in order. -/
def results (t : Target α) : List (Call α) → List (Except Fault Unit)
  | [] => []
  | c :: rest => (c.made t).result :: results (c.made t).state rest

/-- The calls that were accepted, in order. -/
def accepted (t : Target α) : List (Call α) → List (Call α)
  | [] => []
  | c :: rest =>
    match (c.made t).result with
    | .ok _ => c :: accepted (c.made t).state rest
    | .error _ => accepted (c.made t).state rest

/-- What accepted calls make of a target. -/
def built (t : Target α) (calls : List (Call α)) : Target α :=
  { t.withStatic (calls.filterMap Call.static?).getLast? with
    mmsi := t.mmsi.or ((calls.filterMap Call.message?).head?.map Message.mmsi)
    timeline := calls.foldl Call.put t.timeline }

/-- A message of its vessel fails at a target only if its valid position makes no sample. -/
theorem exists_ofReport_of_update {keep : Retention α} {m : Message α} {e : Fault} (ht : t.IsOf m.mmsi)
    (h : (t.update keep (.message m)).result = .error e) :
    ∃ f r, e = .number f ∧ m.validReport? = some r ∧ Sample.ofReport r = .error f := by
  unfold update at h
  simp only [isOf_iff.1 ht, if_true] at h
  cases m with
  | other o => cases h
  | static r => cases h
  | position r =>
    rw [apply] at h
    by_cases hv : r.isValid = true
    · rw [if_pos hv, applyPosition] at h
      cases hs : Sample.ofReport r with
      | ok s =>
        rw [hs] at h
        cases h
      | error f =>
        rw [hs] at h
        exact ⟨f, r, (Except.error.inj h).symm, if_pos hv, hs⟩
    · rw [if_neg hv] at h
      cases h

/-- What a call does. Without a message it is refused as such; a message of another vessel is refused as a conflict, or because one of the
MMSIs in conflict cannot be written; and a message of the target's vessel is taken, or fails for its sample. -/
theorem made_cases (t : Target α) (c : Call α) :
    (c.message? = none ∧ (c.made t).state = t ∧ ∃ kind, (c.made t).result = .error (.tracking (.notAMessage kind))) ∨
      ∃ m, c.message? = some m ∧
        ((∃ own, t.mmsi = some own ∧ own ≠ m.mmsi ∧ (c.made t).state = t ∧
            ((c.made t).result = .error (.tracking (.identityConflict m.mmsi own)) ∨
              (c.made t).result = .error (.number .tooLongToWrite))) ∨
          (t.IsOf m.mmsi ∧ (c.made t).state = t.after c.retention m.mmsi [m] ∧ (c.made t).result = .ok ()) ∨
          t.IsOf m.mmsi ∧ (c.made t).state.mmsi = some m.mmsi ∧ ∃ f r, (c.made t).result = .error (.number f) ∧
            m.validReport? = some r ∧ Sample.ofReport r = .error f) := by
  obtain ⟨keep, o⟩ := c
  rcases o with (m | f) | kind
  · refine Or.inr ⟨m, rfl, ?_⟩
    by_cases ht : t.IsOf m.mmsi
    · by_cases hm : m.Acceptable
      · have hmade : t.update keep (.message m) = ⟨t.after keep m.mmsi [m], .ok (), []⟩ := update_of_acceptable ht hm
        exact Or.inr (Or.inl ⟨ht, congrArg Outcome.state hmade, congrArg Outcome.result hmade⟩)
      · obtain ⟨e, hmade⟩ := update_of_not_acceptable keep ht hm
        obtain ⟨f, r, he, hr, hs⟩ := exists_ofReport_of_update ht (congrArg Outcome.result hmade)
        exact Or.inr (Or.inr ⟨ht, mmsi_update ht, f, r, (congrArg Outcome.result hmade).trans (congrArg _ he), hr, hs⟩)
    · cases hown : t.mmsi with
      | none => exact absurd (Or.inl hown) ht
      | some own =>
        have hne : own ≠ m.mmsi := fun e => ht (Or.inr (e ▸ hown))
        obtain ⟨hstate, hresult⟩ := @update_of_ne _ _ keep _ _ _ hown hne
        refine Or.inl ⟨own, rfl, hne, hstate, ?_⟩
        by_cases hwritable : Number.Readable m.mmsi ∧ Number.Readable own
        · exact Or.inl (hresult.trans (if_pos hwritable))
        · exact Or.inr (hresult.trans (if_neg hwritable))
  · exact Or.inl ⟨rfl, rfl, _, rfl⟩
  · exact Or.inl ⟨rfl, rfl, _, rfl⟩

/-- The target after a call and more of them. -/
theorem run_cons (t : Target α) (c : Call α) (rest : List (Call α)) : t.run (c :: rest) = (c.made t).state.run rest := rfl

/-- A target that is of a vessel stays of that vessel. -/
theorem mmsi_run {own : Int} (ht : t.mmsi = some own) (calls : List (Call α)) : (t.run calls).mmsi = some own := by
  induction calls generalizing t with
  | nil => exact ht
  | cons c rest ih =>
    rw [run_cons]
    refine ih ?_
    have hown : ∀ m : Message α, t.IsOf m.mmsi → m.mmsi = own := by
      intro m hm
      have h := isOf_iff.1 hm
      rw [ht, Option.getD_some] at h
      exact h.symm
    rcases made_cases t c with ⟨-, hstate, -⟩ | ⟨m, -, ⟨-, -, -, hstate, -⟩ | ⟨hm, hstate, -⟩ | ⟨hm, hmmsi, -⟩⟩
    · rw [hstate, ht]
    · rw [hstate, ht]
    · rw [hstate, after, if_neg (List.cons_ne_nil _ _), hown m hm]
    · rw [hmmsi, hown m hm]

/-- The target after calls and more of them. -/
theorem run_append (t : Target α) (calls more : List (Call α)) : t.run (calls ++ more) = (t.run calls).run more := List.foldl_append

/-- What came of calls and of more of them. -/
theorem results_append (t : Target α) (calls more : List (Call α)) :
    t.results (calls ++ more) = t.results calls ++ (t.run calls).results more := by
  induction calls generalizing t with
  | nil => rfl
  | cons c rest ih => exact congrArg (List.cons _) (ih _)

/-- The calls that were accepted are those that came to nothing else. -/
theorem accepted_eq (t : Target α) (calls : List (Call α)) :
    t.accepted calls = ((calls.zip (t.results calls)).filter fun c => c.2.isOk).map Prod.fst := by
  induction calls generalizing t with
  | nil => rfl
  | cons c rest ih =>
    rw [accepted, results, List.zip_cons_cons, List.filter_cons, ih]
    cases (c.made t).result <;> rfl

/-- Refused calls leave no trace: without them the target becomes the same, and none of the calls that are left fails. -/
theorem run_accepted {calls : List (Call α)} (h : ∀ f, .error (.number f) ∉ t.results calls) :
    t.run (t.accepted calls) = t.run calls ∧ ∀ r ∈ t.results (t.accepted calls), r = .ok () := by
  induction calls generalizing t with
  | nil => exact ⟨rfl, fun r hr => absurd hr List.not_mem_nil⟩
  | cons c rest ih =>
    have hrest : ∀ f, .error (.number f) ∉ (c.made t).state.results rest := fun f hf => h f (List.mem_cons_of_mem _ hf)
    obtain ⟨hrun, hok⟩ := ih hrest
    have hrefused : ∀ e, (c.made t).result = .error e → (c.made t).state = t →
        t.run (t.accepted (c :: rest)) = t.run (c :: rest) ∧ ∀ r ∈ t.results (t.accepted (c :: rest)), r = .ok () := by
      intro e he hstate
      have hsame : t.accepted (c :: rest) = t.accepted rest := by rw [accepted, he, hstate]
      have hskip : t.run (c :: rest) = t.run rest := congrArg (fun s => run s rest) hstate
      rw [hsame, hskip]
      rw [hstate] at hrun hok
      exact ⟨hrun, hok⟩
    rcases made_cases t c with ⟨-, hstate, kind, he⟩ | ⟨m, -, ⟨own, -, -, hstate, he | he⟩ | ⟨-, -, hr⟩ | ⟨-, -, f, -, he, -⟩⟩
    · exact hrefused _ he hstate
    · exact hrefused _ he hstate
    · exact absurd (he ▸ List.mem_cons_self) (h .tooLongToWrite)
    · have hkept : t.accepted (c :: rest) = c :: (c.made t).state.accepted rest := by rw [accepted, hr]
      rw [hkept]
      exact ⟨hrun, List.forall_mem_cons.2 ⟨hr, hok⟩⟩
    · exact absurd (he ▸ List.mem_cons_self) (h f)

/-- What calls make of a target that are all accepted. -/
theorem run_eq_built {calls : List (Call α)} (h : ∀ r ∈ t.results calls, r = .ok ()) : t.run calls = t.built calls := by
  induction calls generalizing t with
  | nil => simp [run, built, withStatic]
  | cons c rest ih =>
    obtain ⟨hfirst, hrest⟩ := List.forall_mem_cons.1 h
    have hrun : t.run (c :: rest) = (c.made t).state.built rest := (run_cons t c rest).trans (ih hrest)
    obtain ⟨m, hm, ht, hstate⟩ : ∃ m, c.message? = some m ∧ t.IsOf m.mmsi ∧ (c.made t).state = t.after c.retention m.mmsi [m] := by
      rcases made_cases t c with ⟨-, -, kind, he⟩ | ⟨m, hm, ⟨own, -, -, -, he | he⟩ | ⟨ht, hstate, -⟩ | ⟨-, -, f, -, he, -⟩⟩
      · exact nomatch hfirst.symm.trans he
      · exact nomatch hfirst.symm.trans he
      · exact nomatch hfirst.symm.trans he
      · exact ⟨m, hm, ht, hstate⟩
      · exact nomatch hfirst.symm.trans he
    have hmmsi : (t.after c.retention m.mmsi [m]).mmsi = t.mmsi.or (some m.mmsi) := by
      rcases ht with ht | ht <;> simp [after, ht]
    have htimeline : (t.after c.retention m.mmsi [m]).timeline = Call.put t.timeline c := by
      simp only [after, Call.put, hm, Option.bind_some, List.filterMap_cons]
      cases m.sample? <;> rfl
    -- Of two static reports the later one overwrites all that the earlier one wrote.
    have hstatic : ∀ (own : Option Int) (l : Timeline α),
        { (t.after c.retention m.mmsi [m]).withStatic (rest.filterMap Call.static?).getLast? with mmsi := own, timeline := l } =
          { t.withStatic ((c :: rest).filterMap Call.static?).getLast? with mmsi := own, timeline := l } := by
      intro own l
      simp only [after, List.filterMap_cons, Call.static?, hm, Option.bind_some]
      cases m.static? with
      | none => cases (rest.filterMap Call.static?).getLast? <;> rfl
      | some r =>
        simp only [List.getLast?_cons]
        cases (rest.filterMap Call.static?).getLast? <;> rfl
    rw [hrun, hstate, built, hmmsi, htimeline, hstatic, built]
    simp [hm, List.filterMap_cons]

/-- No call fails for a number if all that fail are refused for their type or for a conflict. -/
theorem number_not_mem_results {t : Target Quantity} {calls : List (Call Quantity)}
    (h : ∀ e, .error e ∈ t.results calls → e.category = .badType ∨ e.category = .identityConflict) (f : NumberFault) :
    .error (.number f) ∉ t.results calls := by
  intro hf
  have hrange : f.category = .outOfRange ∨ f.category = .badValue := by
    clear h
    induction calls generalizing t with
    | nil => cases hf
    | cons c rest ih =>
      rcases List.mem_cons.1 hf with hf | hf
      · rcases made_cases t c with ⟨-, -, kind, he⟩ | ⟨m, -, ⟨own, -, -, -, he | he⟩ | ⟨-, -, he⟩ | ⟨-, -, f', r, he, -, hs⟩⟩
        · cases hf.trans he
        · cases hf.trans he
        · cases hf.trans he
          exact Or.inr rfl
        · cases hf.trans he
        · cases hf.trans he
          exact Or.inl (Sample.category_of_ofReport hs)
      · exact ih hf
  have hother : f.category ≠ .badType ∧ f.category ≠ .identityConflict := by
    rcases hrange with hc | hc <;> rw [hc] <;> decide
  exact (h _ hf).elim hother.1 hother.2

/-- Refused calls are invisible. If no call on a new target fails for another reason than a wrong type or a conflict, then the first
accepted call fixes the vessel of the target for good; a call is refused for its type exactly if it offers no message, and for a conflict
exactly if it offers a message of another vessel; and the target becomes what the accepted calls make of a new one: it shows the last
static report among them, and its timeline got their samples in order and nothing else. -/
theorem run_ignores_refused {calls : List (Call Quantity)}
    (h : ∀ e, .error e ∈ unknown.results calls → e.category = .badType ∨ e.category = .identityConflict) :
    (∀ before c rest, calls = before ++ c :: rest →
      let t := unknown.run before
      t.mmsi = ((unknown.accepted before).filterMap Call.message?).head?.map Message.mmsi ∧
      (∀ own, t.mmsi = some own → (unknown.run calls).mmsi = some own) ∧
      ((∃ e, (c.made t).result = .error e ∧ e.category = .badType) ↔ c.message? = none) ∧
      ((∃ e, (c.made t).result = .error e ∧ e.category = .identityConflict) ↔
        ∃ m own, c.message? = some m ∧ t.mmsi = some own ∧ own ≠ m.mmsi)) ∧
    unknown.run calls = unknown.run (unknown.accepted calls) ∧
    (∀ r ∈ unknown.results (unknown.accepted calls), r = .ok ()) ∧
    unknown.run calls = unknown.built (unknown.accepted calls) := by
  obtain ⟨hrun, hok⟩ := run_accepted (number_not_mem_results h)
  refine ⟨?_, hrun.symm, hok, hrun.symm.trans (run_eq_built hok)⟩
  rintro before c rest rfl
  intro t
  have hresults := results_append unknown before (c :: rest)
  have hbefore : ∀ e, .error e ∈ unknown.results before → e.category = .badType ∨ e.category = .identityConflict := by
    intro e he
    refine h e ?_
    rw [hresults]
    exact List.mem_append_left _ he
  have hcall : (c.made t).result ∈ unknown.results (before ++ c :: rest) := by
    rw [hresults]
    exact List.mem_append_right _ List.mem_cons_self
  obtain ⟨hfront, hfrontOk⟩ := run_accepted (number_not_mem_results hbefore)
  have hmmsi : t.mmsi = ((unknown.accepted before).filterMap Call.message?).head?.map Message.mmsi := by
    have hbuilt : t = unknown.built (unknown.accepted before) := hfront.symm.trans (run_eq_built hfrontOk)
    rw [hbuilt]
    exact Option.none_or
  refine ⟨hmmsi, fun own hown => ?_, ?_⟩
  · rw [run_append]
    exact mmsi_run hown (c :: rest)
  rcases made_cases t c with ⟨hm, -, kind, he⟩ | ⟨m, hm, ⟨own, hown, hne, -, he | he⟩ | ⟨ht, -, hr⟩ | ⟨-, -, f, r, he, -⟩⟩
  · rw [he, hm]
    refine ⟨iff_of_true ⟨_, rfl, rfl⟩ rfl, iff_of_false ?_ ?_⟩
    · rintro ⟨e, he, hc⟩
      cases he
      cases hc
    · rintro ⟨m, own, hm, -⟩
      cases hm
  · rw [he, hm]
    refine ⟨iff_of_false ?_ (Option.some_ne_none m), iff_of_true ⟨_, rfl, rfl⟩ ⟨m, own, rfl, hown, hne⟩⟩
    rintro ⟨e, he, hc⟩
    cases he
    cases hc
  · rw [he] at hcall
    exact absurd hcall (number_not_mem_results h .tooLongToWrite)
  · rw [hr, hm]
    refine ⟨iff_of_false ?_ (Option.some_ne_none m), iff_of_false ?_ ?_⟩
    · rintro ⟨e, he, -⟩
      cases he
    · rintro ⟨e, he, -⟩
      cases he
    · rintro ⟨m', own, hm', hown, hne⟩
      cases hm'
      rcases ht with ht | ht
      · cases hown.symm.trans ht
      · exact hne (Option.some.inj (hown.symm.trans ht))
  · rw [he] at hcall
    exact absurd hcall (number_not_mem_results h f)

/-- Between a static report of a vessel and its position the target is offered a failure, a number and a position of another vessel. -/
theorem run_ignores_refused_between :
    let name : Call Quantity :=
      ⟨.latest 1, .item (.message (.static ⟨7, 0, "EVER@@".toList, ⟨1, 2, 3, 4⟩, 70, "DK7".toList, 5⟩))⟩
    let position : Int → Call Quantity := fun mmsi =>
      ⟨.latest 1, .item (.message (.position ⟨mmsi, 5, ⟨.whole 10, .whole 20⟩, 900, 100, 511, true, 1⟩))⟩
    let calls := [name, ⟨.keepAll, .item (.failure ⟨"x".toList, "y".toList⟩)⟩, ⟨.keepAll, .other "int".toList⟩, position 9, position 7]
    (∀ e, .error e ∈ unknown.results calls → e.category = .badType ∨ e.category = .identityConflict) ∧
      unknown.accepted calls = [name, position 7] ∧ unknown.run calls = unknown.built [name, position 7] := by
  intro name position calls
  have hresults : unknown.results calls =
      [.ok (), .error (.tracking (.notAMessage failureKind)), .error (.tracking (.notAMessage "int".toList)),
        .error (.tracking (.identityConflict 9 7)), .ok ()] := by
    decide +kernel
  have haccepted : unknown.accepted calls = [name, position 7] := by
    rw [accepted_eq, hresults]
    rfl
  have hrefused : ∀ e, .error e ∈ unknown.results calls → e.category = .badType ∨ e.category = .identityConflict := by
    intro e he
    rw [hresults] at he
    simp only [List.mem_cons, reduceCtorEq, Except.error.injEq, List.not_mem_nil, or_false, false_or] at he
    rcases he with rfl | rfl | rfl
    · exact Or.inl rfl
    · exact Or.inl rfl
    · exact Or.inr rfl
  have hbuilt := (run_ignores_refused hrefused).2.2.2
  rw [haccepted] at hbuilt
  exact ⟨hrefused, haccepted, hbuilt⟩

end Target
end VesselTraffic
