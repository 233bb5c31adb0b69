import VesselTraffic.Proofs.Result
import VesselTraffic.Proofs.Timeline.Putting
import VesselTraffic.Timeline.Query

/-!
# What answers for a time

The samples of a timeline were put there: no cutoff brings any (`mem_samples_insert`). What the timeline shows at a time is the sample
of that time, or it is made from the neighbours of the time among the samples, the last one before it and the first one after it
(`answers_of_query`).
-/

namespace VesselTraffic.Timeline

variable {α : Type}

/-- What is there after a sample was put at its time is that sample or was there before. -/
theorem mem_samples_put {t : Timeline α} {s x : Sample α} (h : x ∈ (t.put s).samples) : x = s ∨ x ∈ t.samples := by
  have hput : x ∈ putLast s t.samples := h
  rw [putLast_eq_place s t.ascending] at hput
  exact mem_place hput

/-- Cutoffs bring no samples. -/
theorem mem_samples_of_mem_retain {keep : Retention α} {t : Timeline α} {x : Sample α} (h : x ∈ (t.retain keep).samples) :
    x ∈ t.samples := by
  rw [retain] at h
  generalize keep.cutoffs t = cutoffs at h
  induction cutoffs generalizing t with
  | nil => exact h
  | cons cutoff rest ih => exact (List.dropWhile_sublist _).subset (ih h)

/-- What is there after a sample was inserted is that sample or was there before. -/
theorem mem_samples_insert {keep : Retention α} {t : Timeline α} {s x : Sample α} (h : x ∈ (t.insert keep s).samples) :
    x = s ∨ x ∈ t.samples :=
  mem_samples_put (mem_samples_of_mem_retain h)

/-- Of ascending samples, those from the first one on that is not before a time are those that are not before it. -/
theorem mem_dropWhile_iff {l : List (Sample α)} (h : Ascending l) {time : Int} {x : Sample α} :
    (x ∈ l.dropWhile fun s => s.timestamp < time) ↔ x ∈ l ∧ time ≤ x.timestamp := by
  induction l with
  | nil => simp
  | cons y rest ih =>
    obtain ⟨hy, hrest⟩ := ascending_cons.1 h
    rw [List.dropWhile_cons]
    split
    · rename_i hlt
      have hyt := of_decide_eq_true hlt
      rw [ih hrest, List.mem_cons]
      refine and_congr_left fun hx => (or_iff_right ?_).symm
      rintro rfl
      omega
    · rename_i hle
      have hyt := of_decide_eq_false (Bool.not_eq_true _ ▸ hle)
      refine (and_iff_left_of_imp fun hx => ?_).symm
      rcases List.mem_cons.1 hx with rfl | hx
      · omega
      · have := hy x hx
        omega

/-- Of ascending samples, those in front of the first one that is not before a time are those that are before it. -/
theorem mem_takeWhile_iff {l : List (Sample α)} (h : Ascending l) {time : Int} {x : Sample α} :
    (x ∈ l.takeWhile fun s => s.timestamp < time) ↔ x ∈ l ∧ x.timestamp < time := by
  constructor
  · intro hx
    exact ⟨(List.takeWhile_sublist _).subset hx, by simpa using List.mem_takeWhile_imp hx⟩
  · rintro ⟨hx, hlt⟩
    rw [← List.takeWhile_append_dropWhile (p := fun s => decide (s.timestamp < time)) (l := l), List.mem_append] at hx
    exact hx.resolve_right fun hdrop => by
      have := ((mem_dropWhile_iff h).1 hdrop).2
      omega

/-- The last sample before a time. -/
structure IsBefore (t : Timeline α) (time : Int) (a : Sample α) : Prop where
  mem : a ∈ t.samples
  lt : a.timestamp < time
  last : ∀ c ∈ t.samples, c.timestamp < time → c.timestamp ≤ a.timestamp

/-- There is only one last sample before a time. -/
theorem IsBefore.unique {t : Timeline α} {time : Int} {a a' : Sample α} (h : t.IsBefore time a) (h' : t.IsBefore time a') : a = a' := by
  have htime : a.timestamp = a'.timestamp := Int.le_antisymm (h'.last a h.mem h.lt) (h.last a' h'.mem h'.lt)
  have hfound := mem_samples_iff.1 h.mem
  rw [htime, mem_samples_iff.1 h'.mem] at hfound
  exact (Option.some.inj hfound).symm

/-- The first sample after a time. -/
structure IsAfter (t : Timeline α) (time : Int) (b : Sample α) : Prop where
  mem : b ∈ t.samples
  lt : time < b.timestamp
  first : ∀ c ∈ t.samples, time < c.timestamp → b.timestamp ≤ c.timestamp

/-- The sample that is found before a time is the last one before it. -/
theorem isBefore_of_before? {t : Timeline α} {time : Int} {a : Sample α} (h : t.before? time = some a) : t.IsBefore time a := by
  obtain ⟨front, hfront⟩ := List.getLast?_eq_some_iff.1 h
  have hmem : ∀ {c}, c ∈ front ++ [a] ↔ c ∈ t.samples ∧ c.timestamp < time := by
    intro c
    rw [← hfront]
    exact mem_takeWhile_iff t.ascending
  obtain ⟨ha, hlt⟩ := hmem.1 (List.mem_append_right _ (List.mem_singleton.2 rfl))
  refine ⟨ha, hlt, fun c hc hct => ?_⟩
  have hascending : Ascending (front ++ [a]) := hfront ▸ t.ascending.sublist (List.takeWhile_sublist _)
  rcases List.mem_append.1 (hmem.2 ⟨hc, hct⟩) with hc | hc
  · exact Int.le_of_lt ((List.pairwise_append.1 hascending).2.2 c hc a (List.mem_singleton.2 rfl))
  · exact Int.le_of_eq (congrArg Sample.timestamp (List.mem_singleton.1 hc))

/-- Without a sample at a time, the sample that is found after it is the first one after it. -/
theorem isAfter_of_after? {t : Timeline α} {time : Int} {b : Sample α} (hnone : t.find? time = none) (h : t.after? time = some b) :
    t.IsAfter time b := by
  obtain ⟨rest, hrest⟩ := List.head?_eq_some_iff.1 h
  have hmem : ∀ {c}, c ∈ b :: rest ↔ c ∈ t.samples ∧ time ≤ c.timestamp := by
    intro c
    rw [← hrest]
    exact mem_dropWhile_iff t.ascending
  obtain ⟨hb, hle⟩ := hmem.1 List.mem_cons_self
  have hne : b.timestamp ≠ time := fun heq => List.find?_eq_none.1 hnone b hb (decide_eq_true heq)
  refine ⟨hb, by omega, fun c hc hct => ?_⟩
  have hascending : Ascending (b :: rest) := hrest ▸ t.ascending.sublist (List.dropWhile_sublist _)
  rcases List.mem_cons.1 (hmem.2 ⟨hc, Int.le_of_lt hct⟩) with rfl | hc
  · exact Int.le_refl _
  · exact Int.le_of_lt ((ascending_cons.1 hascending).1 c hc)

/-- If no sample is found after a time, all are before it. -/
theorem lt_of_after?_eq_none {t : Timeline α} {time : Int} (h : t.after? time = none) : ∀ c ∈ t.samples, c.timestamp < time := by
  intro c hc
  by_contra hle
  have hdrop := (mem_dropWhile_iff t.ascending).2 ⟨hc, Int.not_lt.1 hle⟩
  rw [List.head?_eq_none_iff.1 h] at hdrop
  cases hdrop

variable [Navigation α]

/-- How a sample answers for a time: it is stored, interpolated between the neighbours of the time, or taken from the last sample of
all, which is held in place if it has no motion and reckoned on if it has. -/
inductive Answers (t : Timeline α) (time : Int) : Sample α → Prop where
  | stored {s} (mem : s ∈ t.samples) (timestamp : s.timestamp = time) : Answers t time s
  | interpolated {a b lat lon} (before : t.IsBefore time a) (after : t.IsAfter time b)
      (hlat : Navigation.interpolate time a.timestamp a.position.lat b.timestamp b.position.lat = .ok lat)
      (hlon : Navigation.interpolate time a.timestamp a.position.lon b.timestamp b.position.lon = .ok lon) :
      Answers t time (estimate a time .interpolated ⟨lat, lon⟩)
  | held {a} (before : t.IsBefore time a) (last : ∀ c ∈ t.samples, c.timestamp < time)
      (motion : Navigation.hasMotion a.sog a.cog = .ok false) : Answers t time (estimate a time .extrapolated a.position)
  | reckoned {a p} (before : t.IsBefore time a) (last : ∀ c ∈ t.samples, c.timestamp < time)
      (motion : Navigation.hasMotion a.sog a.cog = .ok true)
      (reach : Navigation.reckon a.position a.cog a.sog (time - a.timestamp) = .ok p) :
      Answers t time (estimate a time .extrapolated p)

/-- What a timeline shows at a time answers for it. -/
theorem answers_of_query {t : Timeline α} {time : Int} {s : Sample α} (h : t.query time = .ok s) : t.Answers time s := by
  rw [query] at h
  cases hfind : t.find? time with
  | some x =>
    rw [hfind] at h
    cases h
    exact .stored (List.mem_of_find?_eq_some hfind) (by simpa using List.find?_some hfind)
  | none =>
    rw [hfind] at h
    cases hbefore : t.before? time with
    | none =>
      rw [hbefore] at h
      cases h
    | some a =>
      have ha := isBefore_of_before? hbefore
      cases hafter : t.after? time with
      | some b =>
        simp only [hbefore, hafter] at h
        obtain ⟨lat, hlat, h⟩ := bind_eq_ok_iff.1 (mapError_eq_ok_iff.1 h)
        obtain ⟨lon, hlon, rfl⟩ := map_eq_ok_iff.1 h
        exact .interpolated ha (isAfter_of_after? hfind hafter) hlat hlon
      | none =>
        simp only [hbefore, hafter] at h
        have hlast := lt_of_after?_eq_none hafter
        obtain ⟨moves, hmotion, h⟩ := bind_eq_ok_iff.1 (mapError_eq_ok_iff.1 h)
        cases moves with
        | false =>
          cases h
          exact .held ha hlast hmotion
        | true =>
          obtain ⟨p, hp, rfl⟩ := map_eq_ok_iff.1 h
          exact .reckoned ha hlast hmotion hp

/-- What a timeline shows at a time is a sample of that time. -/
theorem timestamp_of_query {t : Timeline α} {time : Int} {s : Sample α} (h : t.query time = .ok s) : s.timestamp = time := by
  cases answers_of_query h with
  | stored _ htime => exact htime
  | interpolated | held | reckoned => rfl

end VesselTraffic.Timeline
