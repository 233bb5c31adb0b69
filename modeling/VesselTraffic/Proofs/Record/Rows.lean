import VesselTraffic.Proofs.Record.Cells
import VesselTraffic.Proofs.Tracking.Operations

/-!
# What becomes of the rows of a table

A row of plain cells is converted, or it has a fault. Most faults are the row's own and make it a failure in its place; but a boundless
cell may make one that is out of range (`Row.yields_message`), and a row with an integer that is too long to be written may have no raw
text to be told of by (`Row.yields_raw`). Either ends the reading: the rows behind are lost. So a table gives one item for each row up to
the first one that ends it (`reads_ofRows`). A tracker that reads it applies the rows that were converted and counts the others, for the
messages that come of rows are all accepted by their targets, if they get there. `readStream_ofTable` says that all rows are accounted for
exactly if none ends the reading and all senders are admitted, and `readStream_ofTable_false` is a table that loses a row.
-/

namespace VesselTraffic

namespace Row

/-- A row of plain cells. -/
def Plain (row : Row) : Prop := ∀ e ∈ row, e.2.Plain

/-- A boundless cell in a row. -/
def HasBoundless (row : Row) : Prop := ∃ e ∈ row, e.2.Boundless

/-- An integer in a row that cannot be written. -/
def HasUnwritable (row : Row) : Prop := ∃ e ∈ row, e.2.Unwritable

/-- A cell of a row, or nothing in the place of one. -/
def Gives (row : Row) (c : Cell) : Prop := c = .null ∨ ∃ e ∈ row, e.2 = c

/-- The faults that a plain row can have: its own ones, and those that are out of range for a boundless cell. -/
def Explains (row : Row) (e : RowFault) : Prop := e.isMalformedRow = true ∨ e.category = .outOfRange ∧ row.HasBoundless

/-- What explains a fault of a cell explains it as a fault of the row. -/
theorem Gives.explains {row : Row} {c : Cell} (h : row.Gives c) {e : RowFault} (he : c.Explains e.category) : row.Explains e := by
  rcases he with he | he | ⟨he, hc⟩
  · exact Or.inl (by simp [RowFault.isMalformedRow, he])
  · exact Or.inl (by simp [RowFault.isMalformedRow, he])
  · rcases h with rfl | ⟨f, hf, rfl⟩
    · exact hc.elim
    · exact Or.inr ⟨he, f, hf, hc⟩

/-- A cell that a plain row gives is plain. -/
theorem Gives.plain {row : Row} {c : Cell} (h : row.Gives c) (hrow : row.Plain) : c.Plain := by
  rcases h with rfl | ⟨f, hf, rfl⟩
  · trivial
  · exact hrow f hf

/-- The cell that is found for a column is in the row. -/
theorem gives_of_lookup {row : Row} {column : Text} {c : Cell} (h : row.lookup column = some c) : row.Gives c := by
  induction row with
  | nil => cases h
  | cons e rest ih =>
    obtain ⟨k, v⟩ := e
    by_cases hk : column = k
    · rw [hk, KeyedList.lookup_cons_self] at h
      exact Or.inr ⟨(k, v), List.mem_cons_self, Option.some.inj h⟩
    · rw [KeyedList.lookup_cons_ne hk] at h
      exact (ih h).imp_right fun ⟨f, hf, hc⟩ => ⟨f, List.mem_cons_of_mem _ hf, hc⟩

/-- The cell of a column, or nothing without the column. -/
theorem gives_cell (row : Row) (column : String) : row.Gives (row.cell column) := by
  unfold cell
  cases h : row.lookup column.toList with
  | none => exact Or.inl rfl
  | some c => exact gives_of_lookup h

/-- A column that a row needs and lacks is a fault of the row. -/
theorem yields_need (row : Row) (column : String) : Yields row.Gives row.Explains (row.need column) := by
  unfold need
  cases h : row.lookup column.toList with
  | none => exact Or.inl rfl
  | some c => exact gives_of_lookup h

variable {row : Row}

/-- A cell that a plain row gives and that is read as `read` does, its faults taken for those of the row. -/
theorem Gives.yields {α : Type} {V : α → Prop} {c : Cell} (h : row.Gives c) {x : Except CellFault α}
    (hx : Yields V (fun e => c.Explains e.category) x) : Yields V row.Explains (x.mapError .cell) :=
  Yields.mapError (hx.mono (fun _ hv => hv) fun _ he => h.explains he)

/-- A plain cell as an integer, or the default. -/
theorem yields_integerOr (hrow : row.Plain) (column : String) (default : Int) :
    Yields (fun _ => True) (fun e => row.Explains (.cell e)) ((row.cell column).integerOr default) := by
  have h := gives_cell row column
  have hplain := h.plain hrow
  exact (Cell.yields_orDefault hplain trivial (Cell.yields_toInteger hplain)).mono (fun _ hv => hv) fun _ he => h.explains he

/-- The position of a plain row. -/
theorem yields_position (hrow : row.Plain) {lat lon : Cell} (hlat : row.Gives lat) (hlon : row.Gives lon) :
    Yields (fun _ => True) row.Explains ((position lat lon).mapError .cell) := by
  refine Yields.mapError ?_
  unfold position
  rw [Cell.isMissing_of_plain (hlat.plain hrow), Cell.isMissing_of_plain (hlon.plain hrow)]
  have hread : ∀ {c : Cell}, row.Gives c → Yields (fun _ => True) (fun e => row.Explains (.cell e)) c.toDouble := fun hc =>
    (Cell.yields_toDouble (hc.plain hrow)).mono (fun _ _ => trivial) fun _ he => hc.explains he
  have hjoin : ∀ absent : Bool, Yields (fun _ => True) (fun e => row.Explains (.cell e))
      (if absent then pure (⟨.real latitudeNotAvailable, .real longitudeNotAvailable⟩, false)
        else do return (⟨.real (← lat.toDouble), .real (← lon.toDouble)⟩, true) : Except CellFault (Position Quantity × Bool)) := by
    intro absent
    split
    · trivial
    · exact Yields.bind (hread hlat) fun _ _ => Yields.bind (hread hlon) fun _ _ => trivial
  cases lat.isAbsent
  · exact hjoin lon.isAbsent
  · exact hjoin true

/-- A report is accepted by its target if its course and its speed can be made doubles. -/
theorem acceptable_position {r : PositionReport Quantity} (hcog : ∃ x, Double.ofInt r.cog = .ok x)
    (hsog : ∃ x, Double.ofInt r.sog = .ok x) : (Message.position r).Acceptable := by
  intro r' hr'
  rw [Message.validReport?] at hr'
  split at hr'
  · cases hr'
    obtain ⟨x, hx⟩ := hcog
    obtain ⟨y, hy⟩ := hsog
    have htenths : ∀ {n z}, Double.ofInt n = .ok z → Navigation.tenths n = .ok (Quantity.real (z / 10)) := by
      intro n z hz
      show Sphere.tenths n = _
      rw [Sphere.tenths, hz]
      rfl
    rw [Sample.ofReport, htenths hx, htenths hy]
    exact ⟨_, rfl⟩
  · cases hr'

/-- The position report of a plain row is accepted by its target. -/
theorem yields_positionReport (hrow : row.Plain) (kind mmsi timestamp : Int) :
    Yields (fun r => (Message.position r).Acceptable) row.Explains (row.positionReport kind mmsi timestamp) := by
  unfold positionReport
  have htenths : ∀ {c : Cell} {n : Int}, row.Gives c → (∃ x, Double.ofInt n = .ok x) →
      Yields (fun n => ∃ x, Double.ofInt n = .ok x) row.Explains ((c.tenthsOr n).mapError .cell) := fun hc hn =>
    hc.yields (Cell.yields_orDefault (hc.plain hrow) hn (Cell.yields_toTenths (hc.plain hrow)))
  have hdefault : ∀ n ∈ [courseNotAvailable, speedNotAvailable], ∃ x, Double.ofInt n = .ok x := by
    intro n hn
    refine Double.exists_ofInt ?_
    simp only [List.mem_cons, List.not_mem_nil, or_false] at hn
    rcases hn with rfl | rfl <;> decide +kernel
  refine Yields.bind (yields_need row _) fun lat hlat => ?_
  refine Yields.bind (yields_need row _) fun lon hlon => ?_
  refine Yields.bind (yields_position hrow hlat hlon) fun place _ => ?_
  refine Yields.bind (yields_need row _) fun course hcourse => ?_
  refine Yields.bind (htenths hcourse (hdefault _ (by simp))) fun cog hcog => ?_
  refine Yields.bind (yields_need row _) fun speed hspeed => ?_
  refine Yields.bind (htenths hspeed (hdefault _ (by simp))) fun sog hsog => ?_
  refine Yields.bind (Yields.mapError (yields_integerOr hrow _ _)) fun heading _ => ?_
  exact acceptable_position hcog hsog

/-- The static report of a plain row. -/
theorem yields_staticReport (hrow : row.Plain) (kind mmsi timestamp : Int) :
    Yields (fun _ => True) row.Explains ((row.staticReport kind mmsi timestamp).mapError .cell) := by
  refine Yields.mapError ?_
  unfold staticReport dimensions
  have hinteger := yields_integerOr hrow
  have htext : ∀ column, Yields (fun _ => True) (fun e => row.Explains (.cell e)) (row.cell column).textOrEmpty := by
    intro column
    have hplain := (gives_cell row column).plain hrow
    refine Cell.yields_orDefault hplain trivial (Yields.mapError ((Cell.yields_display hplain).mono (fun _ hv => hv) fun e he => ?_))
    rw [he.1]
    exact Or.inl rfl
  refine Yields.bind (htext _) fun name _ => ?_
  refine Yields.bind (V := fun _ => True) ?_ fun dimensions _ => ?_
  · exact Yields.bind (hinteger _ _) fun _ _ => Yields.bind (hinteger _ _) fun _ _ => Yields.bind (hinteger _ _) fun _ _ =>
      Yields.bind (hinteger _ _) fun _ _ => trivial
  · exact Yields.bind (hinteger _ _) fun _ _ => Yields.bind (htext _) fun _ _ => trivial

/-- The message of a plain row is accepted by its target; without one the row has a fault of its own, or a boundless cell. -/
theorem yields_message (hrow : row.Plain) : Yields Message.Acceptable row.Explains row.message := by
  unfold message
  have hinteger : ∀ {c : Cell}, row.Gives c → Yields (fun _ => True) row.Explains (c.toInteger.mapError .cell) := fun hc =>
    hc.yields (Cell.yields_toInteger (hc.plain hrow))
  have htime : ∀ {c : Cell}, row.Gives c → Yields (fun _ => True) row.Explains (c.toMillis.mapError .time) := fun hc =>
    Yields.mapError ((Cell.yields_toMillis (hc.plain hrow)).mono (fun _ hv => hv) fun _ he => hc.explains he)
  refine Yields.bind (yields_need row _) fun c hc => Yields.bind (hinteger hc) fun kind _ => ?_
  refine Yields.bind (yields_need row _) fun c hc => Yields.bind (hinteger hc) fun mmsi _ => ?_
  refine Yields.bind (yields_need row _) fun c hc => Yields.bind (htime hc) fun timestamp _ => ?_
  split
  · exact Yields.bind (yields_positionReport hrow kind mmsi timestamp) fun r hr => hr
  · split
    · exact Yields.bind (yields_staticReport hrow kind mmsi timestamp) fun r _ => fun r' hr' => by cases hr'
    · exact fun r' hr' => by cases hr'

/-! ## Items -/

/-- A row that is converted. -/
def converts (row : Row) : Bool := row.message.isOk

/-- The fault of a row that is not converted. -/
def fault? (row : Row) : Option RowFault :=
  match row.message with
  | .ok _ => none
  | .error e => some e

/-- A row with a fault that is out of range. -/
def isBeyond (row : Row) : Bool := row.fault?.any fun e => e.category = .outOfRange

/-- A row with a fault of its own and without a raw text to be told of by. -/
def isUntold (row : Row) : Bool := row.fault?.any RowFault.isMalformedRow && !row.raw.isOk

/-- A row that ends the reading. -/
def ends (row : Row) : Bool := row.isBeyond || row.isUntold

/-- The fault of a row that ends the reading. -/
def ending? (row : Row) : Option RowFault := if row.isBeyond then row.fault? else some (.cell (.number .tooLongToWrite))

/-- What a row is converted to: its message, or a failure with its raw text and the reason. -/
inductive Becomes (row : Row) : Item Quantity → Prop
  | message {m : Message Quantity} (h : row.message = .ok m) : Becomes row (.message m)
  | failure {e : RowFault} {raw : Text} (h : row.message = .error e) (hraw : row.raw = .ok raw) :
      Becomes row (.failure ⟨raw, e.reason⟩)

/-- A failure takes the place of a row that is not converted. -/
theorem Becomes.isFailure {i : Item Quantity} (h : row.Becomes i) : i.isFailure = !row.converts := by
  cases h with
  | message h =>
    rw [converts, h]
    rfl
  | failure h hraw =>
    rw [converts, h]
    rfl

/-- The message of a plain row is accepted by its target. -/
theorem Becomes.acceptable {m : Message Quantity} (h : row.Becomes (.message m)) (hrow : row.Plain) : m.Acceptable := by
  cases h with
  | message h => exact (yields_message hrow).of_ok h

/-- A plain row has a raw text, unless there is an integer in it that cannot be written. -/
theorem yields_raw (hrow : row.Plain) :
    Yields (fun _ => True) (fun e => e = .cell (.number .tooLongToWrite) ∧ row.HasUnwritable) row.raw := by
  have hgives := gives_cell row "raw_message"
  have hrecord : Yields (fun _ => True) (fun e => e = .tooLongToWrite ∧ row.HasUnwritable) (Cell.record row).literal := by
    rw [Cell.literal]
    exact Yields.map ((Cell.yields_fieldLiterals hrow).mono (fun _ _ => trivial) fun _ he => he)
  have hcell : Yields (fun _ => True) (fun e => e = .tooLongToWrite ∧ row.HasUnwritable) (row.cell "raw_message").display := by
    refine (Cell.yields_display (hgives.plain hrow)).mono (fun _ hv => hv) fun e he => he.imp_right fun hu => ?_
    rcases hgives with hnull | ⟨f, hf, hcell⟩
    · rw [hnull] at hu
      exact hu.elim
    · exact ⟨f, hf, hcell ▸ hu⟩
  rw [raw, Cell.isMissing_of_plain (hgives.plain hrow)]
  refine Yields.mapError (Yields.mono (F := fun e => e = .tooLongToWrite ∧ row.HasUnwritable) ?_ (fun _ hv => hv) fun e he => ?_)
  · split
    · exact hrecord
    · exact hcell
  · exact ⟨by rw [he.1], he.2⟩

/-- A row is out of range exactly if its fault is. -/
theorem isBeyond_iff : row.isBeyond = true ↔ ∃ e, row.message = .error e ∧ e.category = .outOfRange := by
  unfold isBeyond fault?
  cases row.message <;> simp

/-- A row cannot be told of exactly if it has a fault of its own and no raw text. -/
theorem isUntold_iff : row.isUntold = true ↔
    (∃ e, row.message = .error e ∧ e.isMalformedRow = true) ∧ ∃ e, row.raw = .error e := by
  unfold isUntold fault?
  cases row.message <;> cases row.raw <;> simp [Except.isOk, Except.toBool]

/-- A row that cannot be told of has an integer that cannot be written, and that is the fault. -/
theorem raw_of_isUntold (hrow : row.Plain) (h : row.isUntold = true) :
    row.raw = .error (.cell (.number .tooLongToWrite)) ∧ row.HasUnwritable := by
  obtain ⟨-, e, hraw⟩ := isUntold_iff.1 h
  obtain ⟨rfl, hu⟩ := (yields_raw hrow).of_error hraw
  exact ⟨hraw, hu⟩

/-- A row that is out of range has a boundless cell. -/
theorem hasBoundless_of_isBeyond (hrow : row.Plain) (h : row.isBeyond = true) : row.HasBoundless := by
  obtain ⟨e, hm, hcategory⟩ := isBeyond_iff.1 h
  rcases (yields_message hrow).of_error hm with he | he
  · simp [RowFault.isMalformedRow, hcategory] at he
  · exact he.2

/-- A plain row that does not end the reading gives an item. -/
theorem item_of_not_ends (hrow : row.Plain) (h : row.ends = false) : ∃ i, row.item = .ok i ∧ row.Becomes i := by
  obtain ⟨hbeyond, huntold⟩ := Bool.or_eq_false_iff.1 h
  unfold item
  cases hm : row.message with
  | ok m => exact ⟨_, rfl, .message hm⟩
  | error e =>
    have hcategory : e.category ≠ .outOfRange := by
      intro hc
      rw [isBeyond_iff.2 ⟨e, hm, hc⟩] at hbeyond
      cases hbeyond
    have hown : e.isMalformedRow = true := ((yields_message hrow).of_error hm).resolve_right fun he => hcategory he.1
    cases hraw : row.raw with
    | error e' =>
      rw [isUntold_iff.2 ⟨⟨e, hm, hown⟩, e', hraw⟩] at huntold
      cases huntold
    | ok raw => exact ⟨.failure ⟨raw, e.reason⟩, if_pos hown, .failure hm hraw⟩

/-- A plain row that ends the reading gives no item but a fault. -/
theorem item_of_ends (hrow : row.Plain) (h : row.ends = true) : ∃ e, row.ending? = some e ∧ row.item = .error e := by
  unfold ending? item
  split
  · rename_i hbeyond
    obtain ⟨e, hm, hcategory⟩ := isBeyond_iff.1 hbeyond
    have hother : e.isMalformedRow = false := by simp [RowFault.isMalformedRow, hcategory]
    simp [fault?, hm, hother]
  · rename_i hbeyond
    have huntold : row.isUntold = true := by simpa [ends, hbeyond] using h
    obtain ⟨⟨e, hm, hown⟩, -⟩ := isUntold_iff.1 huntold
    obtain ⟨hraw, -⟩ := raw_of_isUntold hrow huntold
    simp [hm, hown, hraw, Except.map]

end Row

/-! ## Tables -/

namespace Source

/-- A source that reads rows: it has an item for each row up to the first one that ends the reading, whose fault is that of the source. -/
structure Reads (source : Source Quantity) (rows : List Row) : Prop where
  items : List.Forall₂ Row.Becomes (rows.takeWhile fun row => !row.ends) source.items
  fault : source.fault = ((rows.find? Row.ends).bind Row.ending?).map .row

/-- Plain rows are read. -/
theorem reads_ofRows {rows : List Row} (h : ∀ row ∈ rows, row.Plain) : (ofRows rows).Reads rows := by
  induction rows with
  | nil => exact ⟨.nil, rfl⟩
  | cons row rest ih =>
    obtain ⟨hrow, hrest⟩ := List.forall_mem_cons.1 h
    obtain ⟨hitems, hfault⟩ := ih hrest
    rw [ofRows]
    cases hb : row.ends with
    | true =>
      obtain ⟨e, he, hitem⟩ := Row.item_of_ends hrow hb
      rw [hitem]
      refine ⟨?_, ?_⟩
      · simp [hb]
      · simp [hb, he]
    | false =>
      obtain ⟨i, hitem, hbecomes⟩ := Row.item_of_not_ends hrow hb
      rw [hitem]
      refine ⟨?_, ?_⟩
      · simpa [hb] using ⟨hbecomes, hitems⟩
      · simpa [hb] using hfault

/-- The reading of plain rows ends without a fault exactly if none of them ends it. -/
theorem Reads.fault_eq_none_iff {source : Source Quantity} {rows : List Row} (h : source.Reads rows)
    (hrows : ∀ row ∈ rows, row.Plain) : source.fault = none ↔ ∀ row ∈ rows, row.ends = false := by
  rw [h.fault, Option.map_eq_none_iff]
  constructor
  · intro hnone row hrow
    cases hfound : rows.find? Row.ends with
    | none => exact Bool.not_eq_true _ ▸ List.find?_eq_none.1 hfound row hrow
    | some found =>
      obtain ⟨e, he, -⟩ := Row.item_of_ends (hrows found (List.mem_of_find?_eq_some hfound)) (List.find?_some hfound)
      rw [hfound, Option.bind_some, he] at hnone
      cases hnone
  · intro hall
    have hfound : rows.find? Row.ends = none := List.find?_eq_none.2 fun row hrow => by simp [hall row hrow]
    rw [hfound]
    rfl

end Source

namespace Table

/-- A row of plain cells that are put under columns is plain. -/
theorem plain_ofCells {columns : List Text} {cells : List Cell} (h : ∀ c ∈ cells, c.Plain) : (Row.ofCells columns cells).Plain := by
  have hwrite : ∀ (column : Text) (c : Cell) (row : Row), c.Plain → row.Plain → (row.write column c).Plain := by
    intro column c row hc hrow
    induction row with
    | nil =>
      intro e he
      rw [List.mem_singleton.1 he]
      exact hc
    | cons e rest ih =>
      obtain ⟨he, hrest⟩ := List.forall_mem_cons.1 hrow
      rw [Row.write]
      split
      · exact List.forall_mem_cons.2 ⟨hc, hrest⟩
      · exact List.forall_mem_cons.2 ⟨he, ih hrest⟩
  have hfold : ∀ (pairs : List (Text × Cell)) (row : Row), (∀ e ∈ pairs, e.2.Plain) → row.Plain →
      (pairs.foldl (fun row e => row.write e.1 e.2) row).Plain := by
    intro pairs
    induction pairs with
    | nil => exact fun row _ hrow => hrow
    | cons e rest ih =>
      intro row hpairs hrow
      obtain ⟨he, hrest⟩ := List.forall_mem_cons.1 hpairs
      exact ih _ hrest (hwrite e.1 e.2 row he hrow)
  exact hfold _ [] (fun e he => h e.2 (List.of_mem_zip he).2) fun e he => absurd he List.not_mem_nil

/-- A table with columns has all its rows. -/
theorem length_rows {columns : List Text} {cells : List (List Cell)} {rows : List Row} (h : Table.rows columns cells = .ok rows)
    (hc : columns ≠ []) : rows.length = cells.length := by
  unfold Table.rows at h
  split at h
  · rename_i hempty
    cases h
    rcases hempty with hempty | hempty
    · rw [hempty]
      rfl
    · exact absurd hempty.1 hc
  · split at h
    · cases h
    · cases h
      exact List.length_map _

/-- The rows of a table of plain cells are plain. -/
theorem plain_of_rows {columns : List Text} {cells : List (List Cell)} {rows : List Row} (h : Table.rows columns cells = .ok rows)
    (hplain : ∀ row ∈ cells, ∀ c ∈ row, c.Plain) : ∀ row ∈ rows, row.Plain := by
  unfold Table.rows at h
  split at h
  · cases h
    exact fun row hrow => absurd hrow List.not_mem_nil
  · split at h
    · cases h
    · cases h
      refine List.forall_mem_map.2 fun row hrow => plain_ofCells fun c hc => ?_
      rcases List.mem_append.1 hc with hc | hc
      · exact hplain row hrow c hc
      · rw [List.eq_of_mem_replicate hc]
        trivial

end Table

namespace Tracker

/-- The messages that plain rows become are accepted by their targets, and every other row becomes a failure. -/
theorem acceptable_of_becomes {rows : List Row} {items : List (Item Quantity)} (h : List.Forall₂ Row.Becomes rows items)
    (hplain : ∀ row ∈ rows, row.Plain) :
    (∀ m ∈ Item.messages items, m.Acceptable) ∧ items.map Item.isFailure = rows.map fun row => !row.converts := by
  induction h with
  | nil => exact ⟨fun m hm => absurd hm List.not_mem_nil, rfl⟩
  | @cons row i rows items hrow _ ih =>
    obtain ⟨hp, hrest⟩ := List.forall_mem_cons.1 hplain
    obtain ⟨haccept, hfailures⟩ := ih hrest
    refine ⟨?_, by rw [List.map_cons, List.map_cons, hrow.isFailure, hfailures]⟩
    cases i with
    | failure f => exact haccept
    | message m => exact List.forall_mem_cons.2 ⟨hrow.acceptable hp, haccept⟩

/-- A row whose message comes from a vessel that a tracker admits, if it is converted. -/
def AdmitsRow (t : Tracker Quantity) (row : Row) : Prop := ∀ m, row.message = .ok m → t.Admits m.mmsi

/-- The senders of the messages that rows become are those of the rows. -/
theorem forall_admits_iff {t : Tracker Quantity} {rows : List Row} {items : List (Item Quantity)}
    (h : List.Forall₂ Row.Becomes rows items) :
    (∀ m ∈ Item.messages items, t.Admits m.mmsi) ↔ ∀ row ∈ rows, t.AdmitsRow row := by
  induction h with
  | nil => simp
  | @cons row i rows items hrow _ ih =>
    rw [List.forall_mem_cons, ← ih]
    cases hrow with
    | message hm =>
      rw [Item.messages_cons_message, List.forall_mem_cons]
      refine and_congr_left' ⟨fun ha m' hm' => ?_, fun ha => ha _ hm⟩
      rw [hm] at hm'
      exact Except.ok.inj hm' ▸ ha
    | failure hm hraw =>
      rw [Item.messages_cons_failure]
      refine (and_iff_right fun m' hm' => ?_).symm
      rw [hm] at hm'
      cases hm'

/-- A consistent tracker ingests what rows become exactly if it admits their senders. It applies the rows that were converted, in their
order, and counts the others. -/
theorem ingestAll_of_reads {t : Tracker Quantity} (ht : t.Consistent) {source : Source Quantity} {rows : List Row}
    (hrows : ∀ row ∈ rows, row.Plain) (h : source.Reads rows) :
    let read := rows.takeWhile fun row => !row.ends
    ((∃ answers, (t.ingestAll source.items).result = .ok answers) ↔ ∀ row ∈ read, t.AdmitsRow row) ∧
      ((∀ row ∈ read, t.AdmitsRow row) →
        (t.ingestAll source.items).result = .ok (read.map Row.converts) ∧
          (t.ingestAll source.items).state.malformed = t.malformed + read.countP fun row => !row.converts) := by
  intro read
  have hread : ∀ row ∈ read, row.Plain := fun row hrow => hrows row ((List.takeWhile_sublist _).subset hrow)
  obtain ⟨haccept, hfailures⟩ := acceptable_of_becomes h.items hread
  have hiff : (∃ answers, (t.ingestAll source.items).result = .ok answers) ↔ ∀ row ∈ read, t.AdmitsRow row := by
    rw [ht.ingestAll_ok_iff, ← forall_admits_iff h.items]
    exact forall₂_congr fun m hm => and_iff_left (haccept m hm)
  refine ⟨hiff, fun hadmits => ?_⟩
  obtain ⟨answers, hall⟩ := hiff.2 hadmits
  have hanswers : answers = (source.items.map Item.isFailure).map (! ·) := by
    rw [answers_ingestAll hall, List.map_map]
    rfl
  have hcount : source.items.countP Item.isFailure = (source.items.map Item.isFailure).countP id := by
    rw [List.countP_map]
    rfl
  refine ⟨?_, ?_⟩
  · rw [hall, hanswers, hfailures, List.map_map]
    simp [Function.comp_def, read]
  · rw [malformed_ingestAll hall, hcount, hfailures, List.countP_map]
    rfl

/-- What becomes of a table of plain cells. One item comes of each row in order up to the first row that ends the reading: one with a
fault that is out of range, which has a boundless cell, or one with a fault of its own that cannot be told of, which has an integer that
cannot be written. A tracker applies the rows that were converted and counts the others, as long as it admits their senders. All rows are
accounted for, the applied ones and the malformed ones together, exactly if no row ends the reading and all senders are admitted. -/
theorem readStream_ofTable {columns : List Text} {cells : List (List Cell)} {rows : List Row}
    (hrows : Table.rows columns cells = .ok rows) (hplain : ∀ row ∈ cells, ∀ c ∈ row, c.Plain) {t : Tracker Quantity}
    (ht : t.Consistent) :
    let source := Source.ofTable columns cells
    let o := t.readStream source
    let read := rows.takeWhile fun row => !row.ends
    (columns ≠ [] → rows.length = cells.length) ∧ source.Reads rows ∧
      (∀ row ∈ rows, (row.isBeyond = true → row.HasBoundless) ∧ (row.isUntold = true → row.HasUnwritable)) ∧
      ((∀ row ∈ read, t.AdmitsRow row) →
        (t.ingestAll source.items).result = .ok (read.map Row.converts) ∧
          o.state.malformed = t.malformed + read.countP fun row => !row.converts) ∧
      ((source.fault = none ∧ source.items.length = rows.length ∧
          ∃ applied, o.result = .ok applied ∧ applied = rows.countP Row.converts ∧
            applied + o.state.malformed = t.malformed + rows.length) ↔
        ∀ row ∈ rows, row.ends = false ∧ t.AdmitsRow row) := by
  intro source o read
  have hp := Table.plain_of_rows hrows hplain
  have hreads : source.Reads rows := by
    have hsource : source = Source.ofRows rows := by
      show Source.ofTable columns cells = _
      rw [Source.ofTable, hrows]
    exact hsource ▸ Source.reads_ofRows hp
  obtain ⟨hingested, hcounted⟩ := ingestAll_of_reads ht hp hreads
  have hstate : o.state = (t.ingestAll source.items).state := state_readStream t source
  refine ⟨fun hc => Table.length_rows hrows hc, hreads, fun row hrow =>
    ⟨fun hb => Row.hasBoundless_of_isBeyond (hp row hrow) hb, fun hu => (Row.raw_of_isUntold (hp row hrow) hu).2⟩,
    fun hadmits => hstate ▸ hcounted hadmits, ?_⟩
  rw [forall₂_and, ← hreads.fault_eq_none_iff hp]
  have hwhole : source.fault = none → read = rows := fun hnone =>
    List.takeWhile_eq_self_iff.2 fun row hrow => by simp [(hreads.fault_eq_none_iff hp).1 hnone row hrow]
  constructor
  · rintro ⟨hnone, -, applied, hresult, -⟩
    obtain ⟨-, answers, hall, -⟩ := readStream_eq_ok_iff.1 hresult
    exact ⟨hnone, hwhole hnone ▸ hingested.1 ⟨answers, hall⟩⟩
  · rintro ⟨hnone, hadmits⟩
    have hread : (rows.takeWhile fun row => !row.ends) = rows := hwhole hnone
    rw [hread] at hcounted
    obtain ⟨hanswers, hmalformed⟩ := hcounted hadmits
    refine ⟨hnone, ?_, rows.countP Row.converts, ?_, rfl, ?_⟩
    · rw [← hreads.items.length_eq, hread]
    · refine readStream_eq_ok_iff.2 ⟨hnone, _, hanswers, ?_⟩
      rw [List.count_eq_countP, List.countP_map]
      simp [Function.comp_def]
    · have hlength := List.length_eq_countP_add_countP Row.converts (l := rows)
      rw [hstate, hmalformed]
      simp only [Bool.not_eq_true, Bool.decide_eq_false] at hlength
      omega

/-- A row with a sender that is no integer is counted, and the row in front of it is applied. -/
theorem readStream_ofTable_malformed_row :
    let o := (fresh .keepAll).readStream
      (.ofTable ["timestamp".toList, "message_id".toList, "MMSI".toList]
        [[.whole 0, .whole 4, .whole 2], [.whole 0, .whole 4, .text ['x']]])
    o.result = .ok 1 ∧ o.state.malformed = 1 := by
  intro o
  have hrows : Table.rows ["timestamp".toList, "message_id".toList, "MMSI".toList]
      [[.whole 0, .whole 4, .whole 2], [.whole 0, .whole 4, .text ['x']]] =
      .ok [[("timestamp".toList, .whole 0), ("message_id".toList, .whole 4), ("MMSI".toList, .whole 2)],
        [("timestamp".toList, .whole 0), ("message_id".toList, .whole 4), ("MMSI".toList, .text ['x'])]] := rfl
  have hplain : ∀ row ∈ [[Cell.whole 0, .whole 4, .whole 2], [.whole 0, .whole 4, .text ['x']]], ∀ c ∈ row, c.Plain := by
    simp [Cell.Plain]
  have hadmitted : ∀ row ∈ [[("timestamp".toList, Cell.whole 0), ("message_id".toList, .whole 4), ("MMSI".toList, .whole 2)],
      [("timestamp".toList, .whole 0), ("message_id".toList, .whole 4), ("MMSI".toList, .text ['x'])]],
      Row.ends row = false ∧ (fresh Retention.keepAll).AdmitsRow row := by
    simp only [List.forall_mem_cons]
    refine ⟨⟨by decide +kernel, fun m hm => ?_⟩, ⟨by decide +kernel, fun m hm => ?_⟩, fun row hrow => absurd hrow List.not_mem_nil⟩
    · cases hm
      exact Or.inr (by decide +kernel)
    · cases hm
  obtain ⟨-, -, -, -, hall⟩ := readStream_ofTable hrows hplain (consistent_fresh .keepAll)
  obtain ⟨-, -, applied, hresult, hcount, hsum⟩ := hall.2 hadmitted
  have hone : applied = 1 := hcount.trans (by decide +kernel)
  rw [hone] at hresult hsum
  have htwo : 1 + o.state.malformed = 0 + 2 := hsum
  exact ⟨hresult, by omega⟩

/-- Not every row that cannot be converted becomes a failure: a message kind that is infinite ends the reading, and the row behind it is
lost. -/
theorem readStream_ofTable_false :
    ¬∀ (columns : List Text) (cells : List (List Cell)) (rows : List Row), Table.rows columns cells = .ok rows →
      (∀ row ∈ cells, ∀ c ∈ row, c.Plain) →
        (Source.ofTable columns cells).fault = none ∧ (Source.ofTable columns cells).items.length = rows.length := by
  intro h
  have hplain : ∀ row ∈ [[Cell.whole 0, .real (Double.infinity false), .whole 1], [.whole 0, .whole 4, .whole 2]],
      ∀ c ∈ row, c.Plain := by
    simp [Cell.Plain]
  obtain ⟨hfault, -⟩ := h ["timestamp".toList, "message_id".toList, "MMSI".toList] _ _ rfl hplain
  have hended : (Source.ofTable ["timestamp".toList, "message_id".toList, "MMSI".toList]
      [[.whole 0, .real (Double.infinity false), .whole 1], [.whole 0, .whole 4, .whole 2]]).fault ≠ none := by decide +kernel
  exact hended hfault

end Tracker
end VesselTraffic
