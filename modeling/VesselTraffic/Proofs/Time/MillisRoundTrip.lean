import VesselTraffic.Geo.Sphere
import VesselTraffic.Proofs.Number.Quotients
import VesselTraffic.Proofs.Timeline.Answering
import VesselTraffic.Proofs.Timeline.Locality
import VesselTraffic.Time.Millis

/-!
# Milliseconds by way of a date

A number of milliseconds becomes a date through a quotient of 53 binary digits, which is rounded to microseconds; the date becomes
milliseconds again by rounding down. Below 2³³ seconds the quotient is off by less than half a microsecond and the milliseconds come back
(`toMicros_near`). From there on, about the year 2242, it may be off by more; where it is too small by that much, the date lies in the
millisecond before, and that is what comes back (`toMicros_far`). Beyond 2³⁴ seconds the nanosecond clock has ended
(`lt_of_fitsNanoseconds`).
-/

namespace VesselTraffic

namespace Millis

/-- The microseconds of a number of milliseconds. -/
theorem eq_of_toMicros {ms micros : Int} (h : toMicros ms = .ok micros) :
    micros = roundHalfEven ((Dyadic.nearest ms 1000).num * 1000000) (Dyadic.nearest ms 1000).den := by
  rw [toMicros, Dyadic.quotient] at h
  split at h
  · exact (Except.ok.inj h).symm
  · cases h

/-- The microseconds of milliseconds that are counted in parts of a second, with the numerator between both roundings. -/
theorem exists_seconds_of_toMicros {ms micros : Int} {k : Nat} (hms : ms ≠ 0) (hk : Dyadic.exponentFor ms.natAbs 1000 = -k)
    (h : toMicros ms = .ok micros) :
    ∃ m : Int, micros = roundHalfEven (m * 1000000) (pow2 k) ∧ 2 * (ms * pow2 k - m * 1000) ≤ 1000 ∧
      -1000 ≤ 2 * (ms * pow2 k - m * 1000) := by
  have hexponent : (Dyadic.nearest ms 1000).exponent = -k := (Dyadic.nearest_exponent hms 1000).trans hk
  refine ⟨(Dyadic.nearest ms 1000).mantissa, ?_, Dyadic.nearest_within hms (by decide) hk⟩
  rw [eq_of_toMicros h, Dyadic.num_eq_mantissa hexponent, Dyadic.den_eq_pow2 hexponent]

/-- Below 2³³ seconds a number of milliseconds has its very microseconds. -/
theorem toMicros_near {ms micros : Int} (hms : ms.natAbs < 1000 * pow2 33) (h : toMicros ms = .ok micros) : micros = 1000 * ms := by
  by_cases hzero : ms = 0
  · subst hzero
    rw [eq_of_toMicros h]
    rfl
  · have hexponent : Dyadic.exponentFor ms.natAbs 1000 + 52 < 33 :=
      Int.not_le.1 fun hle => Nat.not_le.2 hms ((Dyadic.le_exponentFor_iff (Int.natAbs_ne_zero.2 hzero) (by decide) 33).1 hle)
    obtain ⟨k, hk⟩ := Int.eq_ofNat_of_zero_le (show 0 ≤ -Dyadic.exponentFor ms.natAbs 1000 by omega)
    obtain ⟨m, rfl, hle, hge⟩ := exists_seconds_of_toMicros (k := k) hzero (by omega) h
    -- Half a unit of the quotient makes up to half a million of its parts, of which there are more than a million.
    have hparts : 1048576 ≤ pow2 k := pow2_le (show 20 ≤ k by omega)
    have hassoc : 1000 * ms * (pow2 k : Int) = 1000 * (ms * pow2 k) := Int.mul_assoc _ _ _
    refine roundHalfEven_eq ?_ ?_ <;> rw [hassoc] <;> omega

/-- The milliseconds that do not come back: they are 2³³ seconds away at least, and their quotient is too small by more than half a
microsecond. Of 125 milliseconds in a row, that is so for thirty. -/
def Slips (ms : Int) : Prop := 1000 * pow2 33 ≤ ms.natAbs ∧ 33 ≤ 36 * ms % 125 ∧ 36 * ms % 125 ≤ 62

instance : DecidablePred Slips := fun _ => inferInstanceAs (Decidable (_ ∧ _ ∧ _))

/-- Where the remainder of a number that is near zero is. -/
theorem emod_between_iff {g : Int} (h : -62 ≤ g ∧ g ≤ 62) : (33 ≤ g % 125 ∧ g % 125 ≤ 62) ↔ 33 ≤ g := by omega

/-- Between 2³³ and 2³⁴ seconds the microseconds of a number of milliseconds are in that millisecond or, if it slips, in the one before.
-/
theorem toMicros_far {ms micros : Int} (hlow : 1000 * pow2 33 ≤ ms.natAbs) (hhigh : ms.natAbs < 1000 * pow2 34)
    (h : toMicros ms = .ok micros) : micros / 1000 = if Slips ms then ms - 1 else ms := by
  have habs : ms.natAbs ≠ 0 := by
    have hpos : 0 < 1000 * pow2 33 := by decide
    omega
  have hge33 : (33 : Nat) ≤ Dyadic.exponentFor ms.natAbs 1000 + 52 := (Dyadic.le_exponentFor_iff habs (by decide) 33).2 hlow
  have hlt34 : Dyadic.exponentFor ms.natAbs 1000 + 52 < (34 : Nat) :=
    Int.not_le.1 fun hle => Nat.not_le.2 hhigh ((Dyadic.le_exponentFor_iff habs (by decide) 34).1 hle)
  obtain ⟨m, rfl, hle, hge⟩ := exists_seconds_of_toMicros (k := 19) (Int.natAbs_ne_zero.1 habs) (by omega) h
  obtain ⟨hmicros, hmicros'⟩ := roundHalfEven_within (m * 1000000) (pow2_pos 19)
  have hparts : (pow2 19 : Int) = 524288 := rfl
  rw [hparts] at hle hge hmicros hmicros'
  generalize roundHalfEven (m * 1000000) (pow2 19) = micros at *
  -- The quotient is off by a multiple of eight of its parts.
  obtain ⟨g, hg⟩ : ∃ g, g = 65536 * ms - 125 * m := ⟨_, rfl⟩
  have hbound : -62 ≤ g ∧ g ≤ 62 := by omega
  have hmod : 36 * ms % 125 = g % 125 := by omega
  have hslips : Slips ms ↔ 33 ≤ g := by
    rw [Slips, and_iff_right hlow, hmod]
    exact emod_between_iff hbound
  split
  · rename_i hs
    have hshort := hslips.1 hs
    omega
  · rename_i hs
    have hlong := mt hslips.2 hs
    omega

/-- Microseconds that the nanosecond clock holds are those of milliseconds below 2³⁴ seconds. -/
theorem lt_of_fitsNanoseconds {ms micros : Int} (h : toMicros ms = .ok micros) (hfits : fitsNanoseconds micros = true) :
    ms.natAbs < 1000 * pow2 34 := by
  refine Nat.not_le.1 fun hle => ?_
  have hseconds := Dyadic.pow2_mul_den_le (by decide) hle
  have hmicros : pow2 34 * 1000000 ≤ micros.natAbs := by
    rw [eq_of_toMicros h]
    refine le_natAbs_roundHalfEven (pow2_pos _) ?_
    rw [Int.natAbs_mul, Nat.mul_right_comm]
    exact Nat.mul_le_mul_right _ hseconds
  have hlimit : nanosecondLimit = 9223372036854775807 := rfl
  have hpow : pow2 34 = 17179869184 := rfl
  simp only [fitsNanoseconds, hlimit, Bool.and_eq_true, decide_eq_true_eq] at hfits
  omega

/-- A date that is made of milliseconds shows their microseconds. -/
theorem exists_micros_of_toDateTime {ms : Int} {t : DateTime} (h : toDateTime ms = .ok t) :
    ∃ micros, toMicros ms = .ok micros ∧ t = .utc micros := by
  unfold toDateTime at h
  cases hmicros : toMicros ms with
  | error e =>
    rw [hmicros] at h
    cases h
  | ok micros =>
    simp only [hmicros] at h
    repeat' split at h
    all_goals cases h
    exact ⟨micros, rfl, rfl⟩

/-- What a date in universal time comes to in milliseconds. -/
theorem ofDateTime_utc_eq_ok_iff {micros n : Int} :
    ofDateTime (.utc micros) = .ok n ↔ fitsNanoseconds micros = true ∧ n = micros / 1000 := by
  have hinstant : (DateTime.utc micros).instant = micros := Int.sub_zero micros
  rw [ofDateTime, hinstant]
  split
  · rename_i hfits
    rw [Except.ok.injEq, and_iff_right hfits, eq_comm]
  · rename_i hnot
    simp [hnot]

/-- What comes back of milliseconds by way of a date. -/
theorem eq_of_ofDateTime_toDateTime {ms n : Int} {t : DateTime} (ht : toDateTime ms = .ok t) (hn : ofDateTime t = .ok n) :
    n = if Slips ms then ms - 1 else ms := by
  obtain ⟨micros, hmicros, rfl⟩ := exists_micros_of_toDateTime ht
  obtain ⟨hfits, rfl⟩ := ofDateTime_utc_eq_ok_iff.1 hn
  by_cases hlow : 1000 * pow2 33 ≤ ms.natAbs
  · exact toMicros_far hlow (lt_of_fitsNanoseconds hmicros hfits) hmicros
  · rw [if_neg fun h => hlow h.1, toMicros_near (Nat.not_le.1 hlow) hmicros]
    exact Int.mul_ediv_cancel_left ms (by decide)

end Millis

namespace Store

/-- What comes back of milliseconds by way of a date, if there is one and the nanosecond clock holds it: the milliseconds themselves
exactly if they do not slip, and else the ones before. So after any history of a store the answer for the time of a stored sample, given
as the date of that sample, is the sample itself exactly if its time does not slip. -/
theorem query_ofDateTime_toDateTime {α : Type} [Navigation α] {ms n : Int} {t : DateTime} (ht : Millis.toDateTime ms = .ok t)
    (hn : Millis.ofDateTime t = .ok n) (changes : List (Change α)) :
    (n = ms ↔ ¬Millis.Slips ms) ∧ (n = if Millis.Slips ms then ms - 1 else ms) ∧
      ∃ s l, run changes = .ok s ∧ s.samples = .ok l ∧
        ∀ x ∈ l, x.timestamp = ms → (s.query n = .ok x ↔ ¬Millis.Slips ms) := by
  have hback := Millis.eq_of_ofDateTime_toDateTime ht hn
  have hiff : n = ms ↔ ¬Millis.Slips ms := by
    rw [hback]
    split <;> rename_i hslips
    · exact iff_of_false (by omega) (not_not.2 hslips)
    · exact iff_of_true rfl hslips
  obtain ⟨s, t, hrun, hs, -⟩ := keeps_run changes
  refine ⟨hiff, hback, s, t.samples, hrun, hs.samples_eq, fun x hx htime => ?_⟩
  rw [hs.query_eq_ok_iff, ← hiff]
  constructor
  · intro h
    rw [← Timeline.timestamp_of_query h, htime]
  · rintro rfl
    exact Timeline.query_stored (htime ▸ Timeline.mem_samples_iff.1 hx)

/-- Nine billion seconds come back, and one millisecond more does not. -/
theorem query_ofDateTime_toDateTime_next :
    (Millis.toDateTime 9000000000000 = .ok (.utc 9000000000000000) ∧ Millis.ofDateTime (.utc 9000000000000000) = .ok 9000000000000 ∧
      ∃ (x : Sample Quantity) (s : Store Quantity), x.timestamp = 9000000000000 ∧ run [.insert x []] = .ok s ∧ s.samples = .ok [x] ∧
        s.query 9000000000000 = .ok x) ∧
    Millis.toDateTime 9000000000001 = .ok (.utc 9000000000000999) ∧ Millis.ofDateTime (.utc 9000000000000999) = .ok 9000000000000 := by
  have ht : Millis.toDateTime 9000000000000 = .ok (.utc 9000000000000000) := by decide +kernel
  have hn : Millis.ofDateTime (.utc 9000000000000000) = .ok 9000000000000 := by decide +kernel
  have ht' : Millis.toDateTime 9000000000001 = .ok (.utc 9000000000000999) := by decide +kernel
  have hn' : Millis.ofDateTime (.utc 9000000000000999) = .ok 9000000000000 := by decide +kernel
  let x : Sample Quantity := ⟨9000000000000, ⟨.whole 1, .whole 2⟩, .whole 0, .whole 0, 0, .observed⟩
  obtain ⟨-, -, s, l, hrun, hl, hquery⟩ := query_ofDateTime_toDateTime ht hn [.insert x []]
  have hstore : run [.insert x []] = .ok ⟨#[9000000000000], [(9000000000000, x)]⟩ := by decide +kernel
  obtain rfl := Except.ok.inj (hrun.symm.trans hstore)
  obtain rfl : l = [x] := Except.ok.inj (hl.symm.trans (by decide +kernel))
  exact ⟨⟨ht, hn, x, _, rfl, hrun, hl, (hquery x (List.mem_singleton.2 rfl) rfl).2 (by decide)⟩, ht', hn'⟩

/-- The time of a stored sample does not always come back by way of its date: one millisecond after 2³³ seconds it comes to the
millisecond before, where there is no prior sample. -/
theorem query_ofDateTime_toDateTime_false :
    Millis.toDateTime 8589934592001 = .ok (.utc 8589934592000999) ∧ Millis.ofDateTime (.utc 8589934592000999) = .ok 8589934592000 ∧
      ∃ (x : Sample Quantity) (s : Store Quantity), x.timestamp = 8589934592001 ∧ run [.insert x []] = .ok s ∧ s.samples = .ok [x] ∧
        s.query 8589934592000 = .error (.query (.noPriorSample 8589934592000)) :=
  ⟨by decide +kernel, by decide +kernel, ⟨8589934592001, ⟨.whole 1, .whole 2⟩, .whole 0, .whole 0, 0, .observed⟩,
    ⟨#[8589934592001], [(8589934592001, ⟨8589934592001, ⟨.whole 1, .whole 2⟩, .whole 0, .whole 0, 0, .observed⟩)]⟩,
    rfl, by decide +kernel, by decide +kernel, by decide +kernel⟩

end Store
end VesselTraffic
