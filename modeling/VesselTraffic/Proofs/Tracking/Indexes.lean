import VesselTraffic.Proofs.Tracking.Arrivals

/-!
# Indexes of vessels

A tracker numbers its targets in the order in which they were made. Whatever is done with it, and whether it fails or not, the numbers
are those below the number of targets, each that of one vessel, and a number stays with its vessel (`registry_run`). A target is of the
vessel that it is kept under or, as long as no message of that vessel got to it, of none; so messages never meet a target of another
vessel, and only what is not numbered is unknown. The one message that does not get to its target is the first one of a vessel whose MMSI
cannot be written.
-/

namespace VesselTraffic

variable {α : Type}

namespace Registry

/-- Making a target keeps the MMSIs in front. -/
theorem mmsis_prefix_ensure (r : Registry α) (mmsi : Int) : r.mmsis <+: (r.ensure mmsi).mmsis := by
  rw [mmsis_ensure]
  split
  · exact List.prefix_rfl
  · exact List.prefix_append _ _

/-- An index is kept if the MMSIs are kept in front. -/
theorem indexOf?_mono {r r' : Registry α} (h : r.mmsis <+: r'.mmsis) {mmsi : Int} {i : Nat} (hi : r.indexOf? mmsi = some i) :
    r'.indexOf? mmsi = some i := by
  rw [indexOf?_eq_some_iff] at hi ⊢
  obtain ⟨more, hmore⟩ := h
  obtain ⟨hlt, -⟩ := List.getElem?_eq_some_iff.1 hi
  rw [← hmore, List.getElem?_append_left hlt]
  exact hi

/-- The index of an MMSI once it has a target. -/
theorem indexOf?_ensure (r : Registry α) (mmsi : Int) :
    (r.ensure mmsi).indexOf? mmsi = some ((r.indexOf? mmsi).getD r.size) := by
  cases hi : r.indexOf? mmsi with
  | some i => exact indexOf?_mono (r.mmsis_prefix_ensure mmsi) hi
  | none =>
    have hnew : mmsi ∉ r.mmsis := fun h => by
      obtain ⟨i, hsome⟩ := exists_indexOf?_iff.2 h
      rw [hi] at hsome
      cases hsome
    rw [indexOf?_eq_some_iff, mmsis_ensure, if_neg hnew, Option.getD_none, size_eq_length_mmsis]
    exact List.getElem?_concat_length

end Registry

/-- The fault that an operation ends in, if it does. -/
def Outcome.fault? {σ ρ : Type} (o : Outcome σ ρ) : Option Fault :=
  match o.result with
  | .ok _ => none
  | .error e => some e

/-- An operation ends in a fault exactly if its result is that fault. -/
theorem Outcome.fault?_eq_some_iff {σ ρ : Type} {o : Outcome σ ρ} {e : Fault} : o.fault? = some e ↔ o.result = .error e := by
  rw [Outcome.fault?]
  cases o.result <;> simp

namespace Tracker

/-- Asking for a target answers with the one that is found. -/
theorem target_eq_ok_iff {t : Tracker α} {mmsi : Int} {x : Target α} : t.target mmsi = .ok x ↔ t.find? mmsi = some x := by
  rw [Tracker.target]
  cases t.find? mmsi <;> simp

/-- The target of a vessel is the one at its index. -/
theorem target_eq_ok_iff_indexOf? {t : Tracker α} {mmsi : Int} {x : Target α} :
    t.target mmsi = .ok x ↔ ∃ i, t.registry.indexOf? mmsi = some i ∧ t.targets[i]? = some x :=
  target_eq_ok_iff.trans Registry.find?_eq_some_iff

/-- The places below the number of targets are the indexes. -/
theorem exists_indexOf?_iff_lt (t : Tracker α) (i : Nat) : (∃ mmsi, t.registry.indexOf? mmsi = some i) ↔ i < t.size := by
  simp only [Registry.indexOf?_eq_some_iff, size, Registry.size_eq_length_mmsis, List.getElem?_eq_some_iff]
  exact ⟨fun ⟨_, hi, _⟩ => hi, fun hi => ⟨_, hi, rfl⟩⟩

/-- Without an index no target is found. -/
theorem find?_eq_none_of_indexOf? {t : Tracker α} {mmsi : Int} (h : t.registry.indexOf? mmsi = none) : t.find? mmsi = none := by
  refine Option.eq_none_iff_forall_ne_some.2 fun x hx => ?_
  obtain ⟨i, hi, -⟩ := Registry.find?_eq_some_iff.1 hx
  rw [h] at hi
  cases hi

/-- With an index a target is found. -/
theorem exists_find?_of_indexOf? {t : Tracker α} {mmsi : Int} {i : Nat} (h : t.registry.indexOf? mmsi = some i) :
    ∃ x, t.find? mmsi = some x :=
  Option.isSome_iff_exists.1 (Registry.isSome_find?_iff.2 (Registry.exists_indexOf?_iff.1 ⟨i, h⟩))

/-- The target of a vessel that was given one is what it was, or unknown if it was made now; the others are what they were. -/
theorem find?_ensure (t : Tracker α) (mmsi k : Int) :
    (t.ensure mmsi).find? k = if k = mmsi then some ((t.find? mmsi).getD Target.unknown) else t.find? k :=
  t.registry.find?_ensure mmsi k

/-- Labelling keeps the MMSIs. -/
theorem mmsis_labelTarget (t : Tracker α) (mmsi : Int) (l : Label) :
    (t.labelTarget mmsi l).state.registry.mmsis = t.registry.mmsis := by
  rw [labelTarget]
  cases t.find? mmsi with
  | none => rfl
  | some x => exact Registry.mmsis_replace _ _ _

/-- Labelling a vessel puts the label on its target, if it has one, and leaves the others what they were. -/
theorem find?_labelTarget (t : Tracker α) (mmsi : Int) (l : Label) (k : Int) :
    (t.labelTarget mmsi l).state.find? k = if k = mmsi then (t.find? mmsi).map fun x => x.label l else t.find? k := by
  rw [labelTarget]
  cases hx : t.find? mmsi with
  | none =>
    simp only [Option.map_none]
    by_cases hk : k = mmsi
    · rw [if_pos hk, hk, hx]
    · rw [if_neg hk]
  | some x =>
    have hmem : mmsi ∈ t.registry.mmsis := Registry.isSome_find?_iff.1 (Option.isSome_iff_exists.2 ⟨x, hx⟩)
    exact Registry.find?_replace hmem _ k

variable [Navigation α]

/-- The fault that an operation on a tracker ends in, if it does. -/
def Operation.fault? (t : Tracker α) : Operation α → Option Fault
  | ingest i => (t.ingest i).fault?
  | update i => (t.update i).fault?
  | getOrCreate mmsi => (t.getOrCreate mmsi).fault?
  | read source => (t.readStream source).fault?
  | push subscriptions i => (t.deliver subscriptions i).fault?
  | label mmsi l => (t.labelTarget mmsi l).fault?
  | ask => none

/-! ## What the changes keep -/

/-- The MMSIs after a message are those after a target was made for its sender. -/
theorem mmsis_apply (t : Tracker α) (m : Message α) : (t.apply m).state.registry.mmsis = (t.registry.ensure m.mmsi).mmsis := by
  by_cases h : t.Admits m.mmsi
  · rw [(apply_eq h).1]
    exact Registry.mmsis_replace _ _ _
  · rw [apply_of_not_admits h]
    rfl

/-- What holds of the MMSIs and of what arrived, as they get longer together, holds of a tracker: a vessel that something arrives for is
put behind the others, if it is not there. -/
theorem Kept.of_mmsis {R : List Int → List (Arrival α) → Prop}
    (h : ∀ {ks as} (a : Arrival α), R ks as → R (if a.mmsi ∈ ks then ks else ks ++ [a.mmsi]) (as ++ [a])) :
    Kept fun t as => R t.registry.mmsis as := by
  refine ⟨?_, ?_, ?_, fun _ hr => hr⟩
  · intro t as m _ hr
    rw [mmsis_apply, Registry.mmsis_ensure]
    exact h (.message m) hr
  · intro t as b _ hr
    rw [ensure, Registry.mmsis_ensure]
    exact h b hr
  · intro t as mmsi l hr
    rw [mmsis_labelTarget]
    exact hr

/-- The MMSIs of a tracker stay in front. -/
theorem kept_in_front (r : Registry α) : Kept fun (t : Tracker α) _ => r.mmsis <+: t.registry.mmsis := by
  refine Kept.of_mmsis (R := fun ks _ => r.mmsis <+: ks) fun {ks as} a h => ?_
  split
  · exact h
  · exact h.trans (List.prefix_append _ _)

/-- A vessel that is admitted stays so while items are ingested. -/
theorem Admits.ingestAll {t : Tracker α} {mmsi : Int} (h : t.Admits mmsi) (items : List (Item α)) :
    (t.ingestAll items).state.Admits mmsi := by
  refine h.imp_left fun hknown => Registry.contains_eq_true_iff.2 ?_
  have hfront := (kept_in_front t.registry).ingestAll (a := []) List.prefix_rfl items
  exact hfront.subset (Registry.contains_eq_true_iff.1 hknown)

/-- The MMSIs of a tracker are those that something arrived for. -/
theorem kept_mmsis : Kept fun (t : Tracker α) as => ∀ mmsi, mmsi ∈ t.registry.mmsis ↔ ∃ a ∈ as, a.mmsi = mmsi := by
  refine Kept.of_mmsis (R := fun ks as => ∀ mmsi, mmsi ∈ ks ↔ ∃ a ∈ as, a.mmsi = mmsi) fun {ks as} a h mmsi => ?_
  have harrived : (∃ a' ∈ as ++ [a], a'.mmsi = mmsi) ↔ mmsi ∈ ks ∨ mmsi = a.mmsi := by
    simp only [h, List.mem_append, List.mem_singleton, or_and_right, exists_or, exists_eq_left, eq_comm (a := mmsi)]
  rw [harrived]
  split
  · rename_i hknown
    exact (or_iff_left_of_imp fun hk => hk ▸ hknown).symm
  · rw [List.mem_append, List.mem_singleton]

/-- As long as nothing arrives for other vessels than those of a registry, no target is made. -/
theorem kept_known (r : Registry α) :
    Kept fun (t : Tracker α) as => (∀ a ∈ as, a.mmsi ∈ r.mmsis) → t.registry.mmsis = r.mmsis := by
  refine Kept.of_mmsis (R := fun ks as => (∀ a ∈ as, a.mmsi ∈ r.mmsis) → ks = r.mmsis) fun {ks as} a h hall => ?_
  obtain ⟨hbefore, hnow⟩ := List.forall_mem_append.1 hall
  rw [h hbefore, if_pos (hnow a (List.mem_singleton.2 rfl))]

/-- What holds of targets as they are made, is kept by the messages and the labels that they get, and does not mind what arrives for
other vessels, holds of all targets. What is made may count on what else the changes keep. -/
theorem Kept.of_targets {P : Tracker α → List (Arrival α) → Prop} (hP : Kept P)
    {Q : Int → Target α → List (Arrival α) → Prop}
    (made : ∀ {t : Tracker α} {as mmsi}, P t as → t.find? mmsi = none → Q mmsi Target.unknown as)
    (own : ∀ {x : Target α} {as} (keep : Retention α) (m : Message α),
      Q m.mmsi x as → Q m.mmsi (x.update keep (.message m)).state (as ++ [.message m]))
    (other : ∀ {mmsi x as} (a : Arrival α), (∀ m, a = .message m → m.mmsi ≠ mmsi) → Q mmsi x as → Q mmsi x (as ++ [a]))
    (label : ∀ {mmsi as} {x : Target α} (l : Label), Q mmsi x as → Q mmsi (x.label l) as) :
    Kept fun t as => P t as ∧ ∀ mmsi x, t.find? mmsi = some x → Q mmsi x as := by
  have hmade : ∀ {t as}, P t as → (∀ mmsi x, t.find? mmsi = some x → Q mmsi x as) →
      ∀ mmsi, Q mmsi ((t.find? mmsi).getD Target.unknown) as := by
    intro t as hp h mmsi
    cases hx : t.find? mmsi with
    | none => exact made hp hx
    | some x => exact h mmsi x hx
  refine ⟨?_, ?_, ?_, ?_⟩
  · rintro t as m hm ⟨hp, h⟩
    refine ⟨hP.message m hm hp, fun k x hx => ?_⟩
    rw [find?_apply hm] at hx
    split at hx
    · rename_i hk
      subst hk
      cases hx
      rw [taken]
      exact own t.retention m (hmade hp h m.mmsi)
    · rename_i hk
      exact other _ (fun m' he => Arrival.message.inj he ▸ Ne.symm hk) (h k x hx)
  · rintro t as b hb ⟨hp, h⟩
    refine ⟨hP.registered hb hp, fun k x hx => ?_⟩
    rw [find?_ensure] at hx
    refine other _ (fun m he => (he ▸ hb : (Arrival.message m).Registers t).elim) ?_
    split at hx
    · rename_i hk
      subst hk
      cases hx
      exact hmade hp h b.mmsi
    · exact h k x hx
  · rintro t as mmsi l ⟨hp, h⟩
    refine ⟨hP.label mmsi l hp, fun k x hx => ?_⟩
    rw [find?_labelTarget] at hx
    split at hx
    · rename_i hk
      obtain ⟨y, hy, rfl⟩ := Option.map_eq_some_iff.1 hx
      exact label l (h k y (hk ▸ hy))
    · exact h k x hx
  · exact fun n h => ⟨hP.count n h.1, h.2⟩

/-- A target is of the vessel that it is kept under, or of none. -/
theorem kept_consistent : Kept fun (t : Tracker α) _ => t.Consistent := by
  have htrue : Kept fun (_ : Tracker α) _ => True :=
    ⟨fun _ _ _ => trivial, fun _ _ => trivial, fun _ _ _ => trivial, fun _ _ => trivial⟩
  have htargets := htrue.of_targets (Q := fun mmsi x _ => x.IsOf mmsi) (fun _ _ => Target.isOf_unknown _)
    (fun _ _ h => Or.inr (Target.mmsi_update h)) (fun _ _ h => h) (fun _ h => h)
  simp only [true_and] at htargets
  exact htargets

/-- The messages that are stopped are first ones of vessels whose MMSIs cannot be written. -/
structure Arrival.StopsFirst (as : List (Arrival α)) : Prop where
  unwritable : ∀ m, .stopped m ∈ as → ¬Number.Readable m.mmsi
  first : as.Pairwise fun a b => ∀ m, b = .stopped m → a.mmsi ≠ m.mmsi

/-- Messages are stopped only as the first ones of vessels whose MMSIs cannot be written. -/
theorem kept_stopsFirst : Kept fun (t : Tracker α) as =>
    (∀ mmsi, mmsi ∈ t.registry.mmsis ↔ ∃ a ∈ as, a.mmsi = mmsi) ∧ Arrival.StopsFirst as := by
  have hconcat : ∀ {as : List (Arrival α)} {b : Arrival α}, Arrival.StopsFirst as →
      (∀ m, b = .stopped m → ¬Number.Readable m.mmsi ∧ ∀ a ∈ as, a.mmsi ≠ m.mmsi) → Arrival.StopsFirst (as ++ [b]) := by
    rintro as b ⟨hunwritable, hfirst⟩ hb
    refine ⟨fun m hm => ?_, List.pairwise_append.2 ⟨hfirst, List.pairwise_singleton _ _, fun a ha b' hb' m he => ?_⟩⟩
    · rcases List.mem_append.1 hm with hm | hm
      · exact hunwritable m hm
      · exact (hb m (List.mem_singleton.1 hm).symm).1
    · exact (hb m (List.mem_singleton.1 hb' ▸ he)).2 a ha
  refine ⟨?_, ?_, ?_, ?_⟩
  · rintro t as m hm ⟨hmmsis, h⟩
    exact ⟨kept_mmsis.message m hm hmmsis, hconcat h fun _ he => nomatch he⟩
  · rintro t as b hb ⟨hmmsis, h⟩
    refine ⟨kept_mmsis.registered hb hmmsis, hconcat h ?_⟩
    rintro m rfl
    obtain ⟨hnew, hlong⟩ := not_or.1 hb
    exact ⟨hlong, fun a ha e => hnew (Registry.contains_eq_true_iff.2 ((hmmsis m.mmsi).2 ⟨a, ha, e⟩))⟩
  · rintro t as mmsi l ⟨hmmsis, h⟩
    exact ⟨kept_mmsis.label mmsi l hmmsis, h⟩
  · rintro t as n ⟨hmmsis, h⟩
    exact ⟨kept_mmsis.count n hmmsis, h⟩

/-- The targets without an MMSI are those that no message got to. -/
theorem kept_none_iff : Kept fun (t : Tracker α) as =>
    (∀ mmsi, mmsi ∈ t.registry.mmsis ↔ ∃ a ∈ as, a.mmsi = mmsi) ∧
      ∀ mmsi x, t.find? mmsi = some x → x.IsOf mmsi ∧ (x.mmsi = none ↔ ∀ m, .message m ∈ as → m.mmsi ≠ mmsi) := by
  refine kept_mmsis.of_targets ?_ ?_ ?_ fun _ h => h
  · -- For a vessel without a target nothing can have arrived.
    intro t as mmsi hmmsis hnone
    have hnew : mmsi ∉ t.registry.mmsis := by
      rw [← Registry.isSome_find?_iff, ← find?, hnone]
      exact Bool.false_ne_true
    exact ⟨Target.isOf_unknown mmsi, iff_of_true rfl fun m hm e => hnew ((hmmsis mmsi).2 ⟨_, hm, e⟩)⟩
  · rintro x as keep m ⟨hown, -⟩
    have hmmsi : (x.update keep (.message m)).state.mmsi = some m.mmsi := Target.mmsi_update hown
    refine ⟨Or.inr hmmsi, ?_⟩
    rw [hmmsi]
    simp
  · rintro mmsi x as a ha ⟨hown, hnone⟩
    refine ⟨hown, hnone.trans ⟨fun h m hm => ?_, fun h m hm => h m (List.mem_append_left _ hm)⟩⟩
    rcases List.mem_append.1 hm with hm | hm
    · exact h m hm
    · exact ha m (List.mem_singleton.1 hm).symm

/-! ## Faults of operations -/

omit [Navigation α] in
/-- Giving a vessel a target answers with its index, unless the target is new and cannot be told of. -/
theorem getOrCreate_result (t : Tracker α) (mmsi : Int) :
    (t.getOrCreate mmsi).result =
      if t.Admits mmsi then .ok ((t.registry.indexOf? mmsi).getD t.size) else .error (.number .tooLongToWrite) := by
  rw [getOrCreate]
  split
  · rename_i remarks hr
    refine (if_pos ?_).symm
    by_contra hn
    rw [ensureRemarks_of_not_admits hn] at hr
    cases hr
  · rename_i e he
    have hn : ¬t.Admits mmsi := fun ha => by
      obtain ⟨remarks, hr⟩ := ensureRemarks_of_admits ha
      rw [hr] at he
      cases he
    rw [ensureRemarks_of_not_admits hn] at he
    cases he
    exact (if_neg hn).symm

/-- A message meets no conflict in a tracker whose targets are of their vessels. -/
theorem category_ne_of_apply {t : Tracker α} (h : t.Consistent) {m : Message α} {e : Fault} (he : (t.apply m).result = .error e) :
    e.category ≠ .identityConflict := by
  by_cases hm : t.Admits m.mmsi
  · rw [(apply_eq hm).2] at he
    exact Target.category_ne_of_update (h.isOf m.mmsi) he
  · rw [apply_of_not_admits hm] at he
    cases he
    exact nofun

/-- An item meets no conflict in a tracker whose targets are of their vessels. -/
theorem category_ne_of_ingest {t : Tracker α} (h : t.Consistent) {i : Item α} {e : Fault} (he : (t.ingest i).result = .error e) :
    e.category ≠ .identityConflict := by
  cases i with
  | failure f => cases he
  | message m => exact category_ne_of_apply h (map_eq_error_iff.1 he)

/-- A stream meets no conflict in a tracker whose targets are of their vessels. -/
theorem category_ne_of_ingestAll {t : Tracker α} (h : t.Consistent) {items : List (Item α)} {e : Fault}
    (he : (t.ingestAll items).result = .error e) : e.category ≠ .identityConflict := by
  induction items generalizing t with
  | nil => cases he
  | cons i rest ih =>
    rw [ingestAll] at he
    cases hi : (t.ingest i).result with
    | error e' =>
      rw [hi] at he
      cases he
      exact category_ne_of_ingest h hi
    | ok applied =>
      rw [hi] at he
      have hnext : (t.ingest i).state.Consistent := kept_consistent.ingest (a := []) h i
      exact ih hnext (map_eq_error_iff.1 he)

/-- The one conflict that an operation can end in is that in which a stream ended by itself. -/
theorem fault_of_identityConflict {t : Tracker α} (h : t.Consistent) {o : Operation α} {e : Fault} (he : o.fault? t = some e)
    (hc : e.category = .identityConflict) : ∃ source, o = .read source ∧ source.fault = some e := by
  cases o with
  | ingest i => exact absurd hc (category_ne_of_ingest h (Outcome.fault?_eq_some_iff.1 he))
  | push subscriptions i => exact absurd hc (category_ne_of_ingestAll h (Outcome.fault?_eq_some_iff.1 he))
  | getOrCreate mmsi =>
    have hresult := Outcome.fault?_eq_some_iff.1 he
    rw [getOrCreate_result] at hresult
    split at hresult
    · cases hresult
    · cases hresult
      cases hc
  | ask => cases he
  | update i =>
    have hresult := Outcome.fault?_eq_some_iff.1 he
    cases i with
    | message m => exact absurd hc (category_ne_of_apply h hresult)
    | failure f =>
      cases hresult
      cases hc
  | label mmsi l =>
    have hresult := Outcome.fault?_eq_some_iff.1 he
    rw [labelTarget] at hresult
    cases hx : t.find? mmsi with
    | none =>
      rw [hx] at hresult
      cases hresult
      cases hc
    | some x =>
      rw [hx] at hresult
      cases hresult
  | read source =>
    rcases fault_of_readStream (Outcome.fault?_eq_some_iff.1 he) with hitem | hown
    · exact absurd hc (category_ne_of_ingestAll h hitem)
    · exact ⟨source, rfl, hown⟩

/-! ## The registry of a tracker -/

/-- The registry of a tracker and what has arrived at it: the vessels of the arrivals are numbered one-to-one by the places of the
targets, and the target of a vessel has its MMSI, or none before a message of the vessel got to it. All messages do, but for the first
one of a vessel whose MMSI cannot be written. -/
structure Registered (t : Tracker α) (as : List (Arrival α)) : Prop where
  known : ∀ mmsi, (∃ i, t.registry.indexOf? mmsi = some i) ↔ ∃ a ∈ as, a.mmsi = mmsi
  injective : ∀ mmsi mmsi' i, t.registry.indexOf? mmsi = some i → t.registry.indexOf? mmsi' = some i → mmsi = mmsi'
  range : ∀ i, (∃ mmsi, t.registry.indexOf? mmsi = some i) ↔ i < t.size
  target : ∀ mmsi x, t.target mmsi = .ok x ↔ ∃ i, t.registry.indexOf? mmsi = some i ∧ t.targets[i]? = some x
  own : ∀ mmsi x, t.target mmsi = .ok x → x.mmsi = none ∨ x.mmsi = some mmsi
  none_iff : ∀ mmsi x, t.target mmsi = .ok x → (x.mmsi = none ↔ ∀ m, .message m ∈ as → m.mmsi ≠ mmsi)
  stopped : Arrival.StopsFirst as
  distinct : ∀ (i j : Nat) x y mmsi, t.targets[i]? = some x → t.targets[j]? = some y →
    x.mmsi = some mmsi → y.mmsi = some mmsi → i = j

/-- After any operations the registry of a tracker agrees with what arrived. -/
theorem registered_run (keep : Retention α) (operations : List (Operation α)) :
    Registered ((fresh keep).run operations) ((fresh keep).arrivals operations) := by
  have hnothing : ∀ mmsi, mmsi ∈ (fresh keep : Tracker α).registry.mmsis ↔ ∃ a ∈ ([] : List (Arrival α)), a.mmsi = mmsi := by
    simp [fresh, Registry.empty, Registry.mmsis]
  obtain ⟨hmmsis, hown⟩ := kept_none_iff.run_fresh ⟨hnothing, fun _ _ hx => by cases hx⟩ operations
  have hstopped := (kept_stopsFirst.run_fresh ⟨hnothing, fun _ hm => absurd hm List.not_mem_nil, List.Pairwise.nil⟩ operations).2
  generalize (fresh keep).run operations = t at hmmsis hown ⊢
  refine
    { known := fun mmsi => Registry.exists_indexOf?_iff.trans (hmmsis mmsi)
      injective := fun mmsi mmsi' i h h' => ?_
      range := t.exists_indexOf?_iff_lt
      target := fun mmsi x => target_eq_ok_iff_indexOf?
      own := fun mmsi x hx => (hown mmsi x (target_eq_ok_iff.1 hx)).1
      none_iff := fun mmsi x hx => (hown mmsi x (target_eq_ok_iff.1 hx)).2
      stopped := hstopped
      distinct := fun i j x y mmsi hx hy hxm hym => ?_ }
  · rw [Registry.indexOf?_eq_some_iff] at h h'
    exact Option.some.inj (h.symm.trans h')
  · -- The vessels at both places are the one whose MMSI both targets have.
    have hplace : ∀ (k : Nat) z, t.targets[k]? = some z → z.mmsi = some mmsi → t.registry.indexOf? mmsi = some k := by
      intro k z hz hzm
      have hlt : k < t.size := by
        have := (List.getElem?_eq_some_iff.1 hz).1
        rwa [targets, Registry.targets, List.length_map] at this
      obtain ⟨mmsi', hk⟩ := (t.exists_indexOf?_iff_lt k).2 hlt
      have hfind := Registry.find?_eq_some_iff.2 ⟨k, hk, hz⟩
      rcases (hown mmsi' z hfind).1 with hn | hs
      · rw [hn] at hzm
        cases hzm
      · rw [hs] at hzm
        exact Option.some.inj hzm ▸ hk
    exact Option.some.inj ((hplace i x hx hxm).symm.trans (hplace j y hy hym))

/-- The index that a vessel is given stays its index, whatever is done afterwards. A new vessel whose MMSI cannot be written is given one
too, but it is told only when the vessel is asked for again. -/
theorem indexOf?_run (t : Tracker α) (mmsi : Int) :
    ∃ i, (t.getOrCreate mmsi).result = (if t.Admits mmsi then .ok i else .error (.number .tooLongToWrite)) ∧ ∀ later,
      ((t.getOrCreate mmsi).state.run later).registry.indexOf? mmsi = some i ∧
        (((t.getOrCreate mmsi).state.run later).getOrCreate mmsi).result = .ok i := by
  refine ⟨_, t.getOrCreate_result mmsi, fun later => ?_⟩
  rw [state_getOrCreate]
  have hfront : (t.registry.ensure mmsi).mmsis <+: ((t.ensure mmsi).run later).registry.mmsis :=
    (kept_in_front (t.registry.ensure mmsi)).run (a := []) List.prefix_rfl later
  have hindex := Registry.indexOf?_mono hfront (t.registry.indexOf?_ensure mmsi)
  have hknown : ((t.ensure mmsi).run later).Admits mmsi :=
    Or.inl (Registry.contains_eq_true_iff.2 (Registry.exists_indexOf?_iff.1 ⟨_, hindex⟩))
  refine ⟨hindex, ?_⟩
  rw [getOrCreate_result, if_pos hknown, hindex]
  rfl

/-- An operation by which nothing arrives makes no target. -/
theorem mmsis_next_of_arrivals_eq_nil {t : Tracker α} {o : Operation α} (h : o.arrivals t = []) :
    (o.next t).registry.mmsis = t.registry.mmsis := by
  refine (kept_known t.registry).next (a := []) (fun _ => rfl) o ?_
  rw [h]
  intro a ha
  cases ha

end Tracker
end VesselTraffic
