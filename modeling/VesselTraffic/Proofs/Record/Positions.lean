import VesselTraffic.Proofs.Geo.Motion
import VesselTraffic.Proofs.Number.QuantityOrder
import VesselTraffic.Proofs.Record.Rows

/-!
# Rows that report a position

What a position needs is a kind, a sender, a time and two coordinates that lie on the earth; course, speed and heading may be missing.
Such a row becomes a valid report of just that position (`Row.Locates.exists_report`), in which a course or a speed that is missing
stands as the tenths that say that it is not available.
-/

namespace VesselTraffic

namespace Cell

/-- A cell that is read as a double is no list, so it can be said whether it is missing. -/
theorem isMissing_of_toDouble {c : Cell} {x : Float} (h : c.toDouble = .ok x) : c.isMissing = .ok c.isAbsent :=
  isMissing_of_ne_list fun _ hlist => by
    rw [hlist] at h
    cases h

/-- A cell that is read as an integer is no list, so it can be said whether it is missing. -/
theorem isMissing_of_toInteger {c : Cell} {n : Int} (h : c.toInteger = .ok n) : c.isMissing = .ok c.isAbsent :=
  isMissing_of_ne_list fun _ hlist => by
    rw [hlist] at h
    cases h

/-- A cell that is read as a number is not missing. -/
theorem isMissing_of_isNumber {c : Cell} {x : Float} (h : c.toDouble = .ok x) (hx : (Quantity.real x).IsNumber) :
    c.isMissing = .ok false := by
  rw [isMissing_of_toDouble h]
  cases c with
  | null => cases h
  | real y =>
    cases h
    obtain ⟨q, hq⟩ := hx
    have hnan : DoubleParts.ofDouble x ≠ .nan := by
      intro hnan
      rw [Quantity.value?, hnan] at hq
      cases hq
    exact congrArg Except.ok (decide_eq_false hnan)
  | flag _ | whole _ | text _ | time _ | list _ | record _ => rfl

/-- A cell that is missing or is read as an integer of at most fifteen digits. -/
def Small (c : Cell) (read : Cell → Except CellFault Int) : Prop :=
  c.isMissing = .ok true ∨ ∃ n, read c = .ok n ∧ n.natAbs < pow10 15

/-- A cell that is missing or read as a small integer gives a small integer, the default if it is missing. -/
theorem exists_orDefault {c : Cell} {read : Cell → Except CellFault Int} (h : c.Small read) (default : Int)
    (hdefault : default.natAbs < pow10 15) (hread : ∀ n, read c = .ok n → c.isMissing = .ok c.isAbsent) :
    ∃ n, c.orDefault default read = .ok n ∧ n.natAbs < pow10 15 ∧ (c.isMissing = .ok true → n = default) := by
  rcases h with hmissing | ⟨n, hn, hsmall⟩
  · exact ⟨default, by rw [orDefault, hmissing]; rfl, hdefault, fun _ => rfl⟩
  · rw [orDefault, hread n hn]
    cases hb : c.isAbsent with
    | true => exact ⟨default, rfl, hdefault, fun _ => rfl⟩
    | false => exact ⟨n, hn, hsmall, fun htrue => by cases htrue⟩

/-- A cell that is missing or has small tenths gives small tenths. -/
theorem exists_tenthsOr {c : Cell} (h : c.Small toTenths) (default : Int) (hdefault : default.natAbs < pow10 15) :
    ∃ n, c.tenthsOr default = .ok n ∧ n.natAbs < pow10 15 ∧ (c.isMissing = .ok true → n = default) := by
  refine exists_orDefault h default hdefault fun n hn => ?_
  obtain ⟨x, hx, -⟩ := bind_eq_ok_iff.1 hn
  exact isMissing_of_toDouble hx

end Cell

namespace Row

/-- A row that reports a position on the earth. The course, the speed and the heading may each be missing, the heading even without a
column. -/
structure Locates (row : Row) (mmsi time : Int) (lat lon : Float) : Prop where
  kind : ∃ c kind, row.need "message_id" = .ok c ∧ c.toInteger = .ok kind ∧ kind ∈ positionKinds
  sender : ∃ c, row.need "MMSI" = .ok c ∧ c.toInteger = .ok mmsi
  timestamp : ∃ c, row.need "timestamp" = .ok c ∧ c.toMillis = .ok time
  latitude : ∃ c, row.need "lat" = .ok c ∧ c.toDouble = .ok lat
  longitude : ∃ c, row.need "lon" = .ok c ∧ c.toDouble = .ok lon
  latitude_bounds : ∃ q, (Quantity.real lat).value? = some q ∧ -90 ≤ q ∧ q ≤ 90
  longitude_bounds : ∃ q, (Quantity.real lon).value? = some q ∧ -180 ≤ q ∧ q ≤ 180
  course : ∃ c, row.need "course" = .ok c ∧ c.Small Cell.toTenths
  speed : ∃ c, row.need "speed" = .ok c ∧ c.Small Cell.toTenths
  heading : (row.cell "heading").Small Cell.toInteger

/-- A row without a course or without a speed. -/
def Motionless (row : Row) : Prop := ∃ column ∈ ["course", "speed"], ∃ c, row.need column = .ok c ∧ c.isMissing = .ok true

/-- What a row reports of its position: the report is valid and just of that position, its tenths are small, and without a course or a
speed they say that one of them is not available. -/
structure Reports (row : Row) (mmsi time : Int) (lat lon : Float) (r : PositionReport Quantity) : Prop where
  isValid : r.isValid = true
  sender : r.mmsi = mmsi
  timestamp : r.timestamp = time
  position : r.position = ⟨.real lat, .real lon⟩
  cog_lt : r.cog.natAbs < pow10 15
  sog_lt : r.sog.natAbs < pow10 15
  notAvailable : row.Motionless → r.sog = speedNotAvailable ∨ r.cog = courseNotAvailable

variable {row : Row} {mmsi time : Int} {lat lon : Float}

/-- A quantity whose number lies between two integers. -/
theorem between_of_value {m n : Int} {a : Quantity} (h : ∃ q, a.value? = some q ∧ (m : ℚ) ≤ q ∧ q ≤ n) :
    ((Quantity.whole m).le a && a.le (.whole n)) = true := by
  obtain ⟨q, hq, hm, hn⟩ := h
  rw [Bool.and_eq_true]
  exact ⟨(Quantity.le_iff rfl hq).2 hm, (Quantity.le_iff hq rfl).2 hn⟩

/-- A report that is flagged valid and has the position of a row is valid. -/
theorem Locates.isValid (h : row.Locates mmsi time lat lon) {r : PositionReport Quantity} (hv : r.valid = true)
    (hposition : r.position = ⟨.real lat, .real lon⟩) : r.isValid = true := by
  have hlatitude := between_of_value (m := -90) (n := 90) (by exact_mod_cast h.latitude_bounds)
  have hlongitude := between_of_value (m := -180) (n := 180) (by exact_mod_cast h.longitude_bounds)
  rw [PositionReport.isValid, hv, hposition, Bool.true_and]
  exact Bool.and_eq_true_iff.2 ⟨hlatitude, hlongitude⟩

/-- Two coordinates that are numbers are a position. -/
theorem position_eq {c d : Cell} (hc : c.toDouble = .ok lat) (hd : d.toDouble = .ok lon) (hlat : (Quantity.real lat).IsNumber)
    (hlon : (Quantity.real lon).IsNumber) : position c d = .ok (⟨.real lat, .real lon⟩, true) := by
  rw [position, Cell.isMissing_of_isNumber hc hlat, Cell.isMissing_of_isNumber hd hlon, hc, hd]
  rfl

/-- The position report of a row that reports a position. -/
theorem Locates.exists_positionReport (h : row.Locates mmsi time lat lon) (kind : Int) :
    ∃ r, row.positionReport kind mmsi time = .ok r ∧ row.Reports mmsi time lat lon r := by
  obtain ⟨latCell, hlatCell, hlat⟩ := h.latitude
  obtain ⟨lonCell, hlonCell, hlon⟩ := h.longitude
  obtain ⟨courseCell, hcourseCell, hcourse⟩ := h.course
  obtain ⟨speedCell, hspeedCell, hspeed⟩ := h.speed
  have hplace := position_eq hlat hlon (h.latitude_bounds.imp fun _ hq => hq.1) (h.longitude_bounds.imp fun _ hq => hq.1)
  obtain ⟨cog, hcog, hcogSmall, hcogMissing⟩ := Cell.exists_tenthsOr hcourse courseNotAvailable (by decide +kernel)
  obtain ⟨sog, hsog, hsogSmall, hsogMissing⟩ := Cell.exists_tenthsOr hspeed speedNotAvailable (by decide +kernel)
  obtain ⟨heading, hheading, -⟩ := Cell.exists_orDefault h.heading headingNotAvailable (by decide +kernel)
    fun n hn => Cell.isMissing_of_toInteger hn
  refine ⟨{ mmsi, timestamp := time, position := ⟨.real lat, .real lon⟩, cog, sog, heading, valid := true, kind }, ?_,
    h.isValid rfl rfl, rfl, rfl, rfl, hcogSmall, hsogSmall, ?_⟩
  · unfold positionReport
    rw [hlatCell, hlonCell, hcourseCell, hspeedCell, Cell.integerOr, hheading]
    simp only [bind, Except.bind, hplace, hcog, hsog, Except.mapError]
    rfl
  · rintro ⟨column, hcolumn, c, hc, hmissing⟩
    simp only [List.mem_cons, List.not_mem_nil, or_false] at hcolumn
    rcases hcolumn with rfl | rfl
    · cases hcourseCell.symm.trans hc
      exact Or.inr (hcogMissing hmissing)
    · cases hspeedCell.symm.trans hc
      exact Or.inl (hsogMissing hmissing)

/-- A row that reports a position becomes the message of its report. -/
theorem Locates.exists_report (h : row.Locates mmsi time lat lon) :
    ∃ r, row.item = .ok (.message (.position r)) ∧ row.Reports mmsi time lat lon r := by
  obtain ⟨kindCell, kind, hkindCell, hkind, hposition⟩ := h.kind
  obtain ⟨senderCell, hsenderCell, hsender⟩ := h.sender
  obtain ⟨timeCell, htimeCell, htime⟩ := h.timestamp
  obtain ⟨r, hreport, hr⟩ := h.exists_positionReport kind
  have hmessage : row.message = .ok (.position r) := by
    unfold message
    rw [hkindCell, hsenderCell, htimeCell]
    simp only [bind, Except.bind, hkind, hsender, htime, Except.mapError, if_pos hposition, hreport]
    rfl
  exact ⟨r, by rw [item, hmessage], hr⟩

end Row
end VesselTraffic
