import VesselTraffic.Proofs.Timeline.Answering

/-!
# Locality of answers

A query looks at a timeline only between the latest sample up to its time and the first one after it: timelines that agree there answer
alike (`query_congr_of_gap`). So what is inserted in front of that gap or behind it changes no answer, nor does a cutoff that leaves the
latest sample up to the time; and a time without a prior sample stays without one under cutoffs and under later samples
(`query_run_local`).
-/

namespace VesselTraffic

variable {α : Type}

/-- The latest sample up to a time, in a map from times to samples. -/
structure LatestUpTo (m : Int → Option (Sample α)) (time : Int) (b : Sample α) : Prop where
  found : m b.timestamp = some b
  le : b.timestamp ≤ time
  latest : ∀ c, (m c).isSome → c ≤ time → c ≤ b.timestamp

/-- Without a sample at a time, the latest one up to it is the last one before it. -/
theorem LatestUpTo.lastBefore {m : Int → Option (Sample α)} {time : Int} {b : Sample α} (h : LatestUpTo m time b)
    (hnone : m time = none) : LastBefore m time b := by
  have hne : b.timestamp ≠ time := by
    intro heq
    cases hnone.symm.trans (heq ▸ h.found)
  have := h.le
  exact ⟨h.found, by omega, fun c hc hlt => h.latest c hc (Int.le_of_lt hlt)⟩

/-- Maps that agree from the last sample before a time up to the time have the same last sample before it. -/
theorem LastBefore.congr {m m' : Int → Option (Sample α)} {time : Int} {b : Sample α} (h : LastBefore m time b)
    (hagree : ∀ c, b.timestamp ≤ c → c < time → m' c = m c) : LastBefore m' time b := by
  refine ⟨(hagree _ (Int.le_refl _) h.lt).trans h.found, h.lt, fun c hc hlt => ?_⟩
  by_contra hgap
  rw [hagree c (by omega) hlt] at hc
  exact hgap (h.last c hc hlt)

/-- Maps that agree from a time up to the first sample after it have the same first sample after it. -/
theorem FirstAfter.congr {m m' : Int → Option (Sample α)} {time : Int} {a : Sample α} (h : FirstAfter m time a)
    (hagree : ∀ c, time < c → c ≤ a.timestamp → m' c = m c) : FirstAfter m' time a := by
  refine ⟨(hagree _ h.lt (Int.le_refl _)).trans h.found, h.lt, fun c hc hlt => ?_⟩
  by_contra hgap
  rw [hagree c hlt (by omega)] at hc
  exact hgap (h.first c hc hlt)

namespace Timeline

variable [Navigation α] {t u : Timeline α} {time : Int} {b : Sample α}

/-- A query that is answered has a latest sample up to its time. -/
theorem exists_latestUpTo_of_query {r : Sample α} (h : t.query time = .ok r) : ∃ b, LatestUpTo t.find? time b := by
  cases hfind : t.find? time with
  | some x =>
    obtain ⟨-, rfl⟩ := find?_eq_some_iff.1 hfind
    exact ⟨x, hfind, Int.le_refl _, fun _ _ hle => hle⟩
  | none =>
    cases hbefore : t.before? time with
    | none =>
      rw [query, hfind, hbefore] at h
      cases h
    | some b =>
      have hb := before?_eq_some_iff.1 hbefore
      refine ⟨b, hb.found, Int.le_of_lt hb.lt, fun c hc hle => ?_⟩
      rcases Int.lt_or_eq_of_le hle with hlt | rfl
      · exact hb.last c hc hlt
      · rw [hfind] at hc
        cases hc

/-- Timelines that agree from the latest sample up to a time to the first one after it, or from there on if there is none, answer alike.
-/
theorem query_congr_of_gap (hb : LatestUpTo t.find? time b)
    (h : ∀ c, b.timestamp ≤ c → (∀ a, FirstAfter t.find? time a → c ≤ a.timestamp) → u.find? c = t.find? c) :
    u.query time = t.query time := by
  have htime : u.find? time = t.find? time := h time hb.le fun a ha => Int.le_of_lt ha.lt
  cases hfind : t.find? time with
  | some x => rw [query_stored hfind, query_stored (htime.trans hfind)]
  | none =>
    have hnone := htime.trans hfind
    have htb := hb.lastBefore hfind
    have hub : LastBefore u.find? time b := htb.congr fun c hc hlt => h c hc fun a ha => Int.le_of_lt (Int.lt_trans hlt ha.lt)
    have hafter : ∀ c, time < c → (∀ a, FirstAfter t.find? time a → c ≤ a.timestamp) → u.find? c = t.find? c :=
      fun c hlt => h c (Int.le_trans hb.le (Int.le_of_lt hlt))
    cases hfirst : t.after? time with
    | some a =>
      have ha := (after?_eq_some_iff hfind).1 hfirst
      have hua : FirstAfter u.find? time a := by
        refine ha.congr fun c hlt hle => hafter c hlt fun a' ha' => ?_
        rw [ha'.unique ha]
        exact hle
      rw [query_between hfind htb ha, query_between hnone hub hua]
    | none =>
      have hlast := (after?_eq_none_iff hfind).1 hfirst
      have hulast : ∀ c > time, u.find? c = none := by
        intro c hlt
        rw [hafter c hlt, hlast c hlt]
        intro a ha
        cases (hlast _ ha.lt).symm.trans ha.found
      rw [query_beyond hfind htb hlast, query_beyond hnone hub hulast]

/-- A sample that is put in front of the latest one up to a time, behind the first one after it, or at any other time if the time itself
has one, leaves the answer. -/
theorem query_put_of_outside (hb : LatestUpTo t.find? time b) {x : Sample α}
    (hx : x.timestamp < b.timestamp ∨ (∃ a, FirstAfter t.find? time a ∧ a.timestamp < x.timestamp) ∨
      b.timestamp = time ∧ x.timestamp ≠ time) : (t.put x).query time = t.query time := by
  rcases hx with hearlier | ⟨a, ha, hlater⟩ | ⟨rfl, hother⟩
  · refine query_congr_of_gap hb fun c hc _ => ?_
    rw [find?_put, if_neg (by omega)]
  · refine query_congr_of_gap hb fun c _ hc => ?_
    have := hc a ha
    rw [find?_put, if_neg (by omega)]
  · rw [query_stored hb.found, query_stored]
    rw [find?_put, if_neg hother, hb.found]

/-- A cutoff that leaves the latest sample up to a time leaves the answer. -/
theorem query_discardBefore_of_le (hb : LatestUpTo t.find? time b) {cutoff : Int} (hcutoff : cutoff ≤ b.timestamp) :
    (t.discardBefore cutoff).query time = t.query time := by
  refine query_congr_of_gap hb fun c hc _ => ?_
  rw [find?_discardBefore, if_neg (by omega)]

/-- A time without a prior sample has none after a cutoff. -/
theorem query_discardBefore_noPrior (h : t.query time = .error (.noPriorSample time)) (cutoff : Int) :
    (t.discardBefore cutoff).query time = .error (.noPriorSample time) := by
  obtain ⟨hw, hnone⟩ := query_eq_noPrior_iff.1 h
  refine query_noPrior hw fun c hc => ?_
  rw [find?_discardBefore, hnone c hc, ite_self]

/-- A time without a prior sample has none after a later sample was put. -/
theorem query_put_noPrior (h : t.query time = .error (.noPriorSample time)) {x : Sample α} (hx : time < x.timestamp) :
    (t.put x).query time = .error (.noPriorSample time) := by
  obtain ⟨hw, hnone⟩ := query_eq_noPrior_iff.1 h
  refine query_noPrior hw fun c hc => ?_
  rw [find?_put, if_neg (by omega), hnone c hc]

end Timeline

namespace Store

variable [Navigation α]

/-- What a query to a store that keeps a timeline is answered. -/
theorem Keeps.query_eq_ok_iff {s : Store α} {t : Timeline α} (h : s.Keeps t) {time : Int} {r : Sample α} :
    s.query time = .ok r ↔ t.query time = .ok r := by
  rw [h.query_eq, mapError_eq_ok_iff]

/-- When a query to a store that keeps a timeline has no prior sample. -/
theorem Keeps.query_eq_noPrior_iff {s : Store α} {t : Timeline α} (h : s.Keeps t) {time : Int} :
    s.query time = .error (.query (.noPriorSample time)) ↔ t.query time = .error (.noPriorSample time) := by
  rw [h.query_eq]
  cases t.query time <;> simp [Except.mapError]

/-- After any history an answer depends on the samples next to its time only. An answer stays the same when a sample is inserted that is
earlier than the latest one up to the time, or later than the first one after it, or at any other time if the time itself has a sample;
and after a cutoff that is not later than the latest sample up to the time. Where there is no prior sample, there is none after any
cutoff, and none after a later sample was inserted. -/
theorem query_run_local (changes : List (Change α)) (time : Int) :
    ∃ s, run changes = .ok s ∧
      (∀ r, s.query time = .ok r → ∃ b, LatestUpTo s.find? time b ∧
        (∀ x : Sample α, (x.timestamp < b.timestamp ∨ (∃ a, FirstAfter s.find? time a ∧ a.timestamp < x.timestamp) ∨
            b.timestamp = time ∧ x.timestamp ≠ time) →
          ∃ s', s.insert .keepAll x = .ok s' ∧ s'.query time = .ok r) ∧
        ∀ cutoff ≤ b.timestamp, ∃ n s', s.discardBefore cutoff = .ok (n, s') ∧ s'.query time = .ok r) ∧
      (s.query time = .error (.query (.noPriorSample time)) →
        (∀ cutoff, ∃ n s', s.discardBefore cutoff = .ok (n, s') ∧ s'.query time = .error (.query (.noPriorSample time))) ∧
        ∀ x : Sample α, time < x.timestamp →
          ∃ s', s.insert .keepAll x = .ok s' ∧ s'.query time = .error (.query (.noPriorSample time))) := by
  obtain ⟨s, t, hrun, hs, -⟩ := keeps_run changes
  have hfind : s.find? = t.find? := funext hs.found
  refine ⟨s, hrun, fun r hr => ?_, fun hnone => ?_⟩
  · have ht := hs.query_eq_ok_iff.1 hr
    obtain ⟨b, hb⟩ := Timeline.exists_latestUpTo_of_query ht
    rw [hfind]
    refine ⟨b, hb, fun x hx => ?_, fun cutoff hcutoff => ?_⟩
    · obtain ⟨s', hinsert, hs'⟩ := hs.insert follows_keepAll x
      exact ⟨s', hinsert, hs'.query_eq_ok_iff.2 ((Timeline.query_put_of_outside hb hx).trans ht)⟩
    · obtain ⟨s', hdiscard, hs'⟩ := hs.discardBefore cutoff
      exact ⟨_, s', hdiscard, hs'.query_eq_ok_iff.2 ((Timeline.query_discardBefore_of_le hb hcutoff).trans ht)⟩
  · have ht := hs.query_eq_noPrior_iff.1 hnone
    refine ⟨fun cutoff => ?_, fun x hx => ?_⟩
    · obtain ⟨s', hdiscard, hs'⟩ := hs.discardBefore cutoff
      exact ⟨_, s', hdiscard, hs'.query_eq_noPrior_iff.2 (Timeline.query_discardBefore_noPrior ht cutoff)⟩
    · obtain ⟨s', hinsert, hs'⟩ := hs.insert follows_keepAll x
      exact ⟨s', hinsert, hs'.query_eq_noPrior_iff.2 (Timeline.query_put_noPrior ht hx)⟩

end Store
end VesselTraffic
