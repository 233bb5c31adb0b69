import VesselTraffic.Journal.Formatter
import VesselTraffic.Proofs.Number.IntegerText

/-!
# Layouts that are left installed

A record that cannot be filled in and whose rank has a layout leaves that layout installed; every other record leaves the formatter as it
was (`installed_format`). So all that a formatter remembers of the records before is the layout left by the last such record
(`installed_after`). It shows in records whose rank has no layout of its own: a record comes out as it does from a fresh formatter exactly
if it has a layout of its own, cannot be filled in itself, has a rank with too many digits, which is a fault in any layout, or nothing was
left installed (`formatAll_eq_first_iff`).
-/

namespace VesselTraffic

namespace RecordLayout

/-- A layout that belongs to a rank is coloured. -/
theorem exists_coloured_of_ofRank? {rank : Int} {layout : RecordLayout} (h : ofRank? rank = some layout) :
    ∃ colour bold, layout = coloured colour bold := by
  unfold ofRank? at h
  split_ifs at h <;> exact ⟨_, _, (Option.some.inj h).symm⟩

/-- A rank with a layout has few digits. -/
theorem readable_of_ofRank? {rank : Int} {layout : RecordLayout} (h : ofRank? rank = some layout) : Number.Readable rank := by
  unfold ofRank? at h
  split_ifs at h <;> subst rank <;> decide +kernel

end RecordLayout

namespace Level

/-- A rank has a name, that of a level or one with its number, unless it has too many digits. -/
theorem exists_nameOfRank {rank : Int} (h : Number.Readable rank) : ∃ name, nameOfRank rank = .ok name := by
  rw [nameOfRank, Number.writeInteger_of_readable h]
  repeat' split
  all_goals exact ⟨_, rfl⟩

/-- A rank with too many digits is that of no level. -/
theorem nameOfRank_of_not_readable {rank : Int} (h : ¬Number.Readable rank) : nameOfRank rank = .error .tooLongToWrite := by
  have hne : ∀ n : Int, Number.Readable n → n ≠ rank := fun n hn e => h (e ▸ hn)
  have hlevel : ([debug, info, warning, error, critical].find? fun l => l.rank = rank) = none := by
    refine List.find?_eq_none.2 fun l _ hl => hne l.rank ?_ (of_decide_eq_true hl)
    cases l <;> decide +kernel
  rw [nameOfRank, if_neg (hne 0 (by decide +kernel)).symm, hlevel, Number.writeInteger_of_not_readable h]
  rfl

end Level

namespace LogRecord

/-- The layout that a record leaves installed: that of its rank, if the record cannot be filled in. -/
def left? (r : LogRecord) : Option RecordLayout :=
  match r.filled with
  | .ok _ => none
  | .error _ => RecordLayout.ofRank? r.rank

/-- A record leaves no layout exactly if it can be filled in or has no layout of its own. -/
theorem left?_eq_none_iff {r : LogRecord} :
    r.left? = none ↔ (∃ filled, r.filled = .ok filled) ∨ RecordLayout.ofRank? r.rank = none := by
  unfold left?
  cases r.filled <;> simp

/-- A layout that a record leaves is coloured. -/
theorem exists_coloured_of_left? {r : LogRecord} {layout : RecordLayout} (h : r.left? = some layout) :
    ∃ colour bold, layout = .coloured colour bold := by
  unfold left? at h
  cases hfilled : r.filled with
  | ok filled =>
    rw [hfilled] at h
    cases h
  | error e =>
    rw [hfilled] at h
    exact RecordLayout.exists_coloured_of_ofRank? h

/-- A record whose rank has too many digits cannot be written in any layout. -/
theorem layOut_of_not_readable {r : LogRecord} (h : ¬Number.Readable r.rank) (filled : List CodePoint) (layout : RecordLayout) :
    r.layOut filled layout = .error .tooLongToWrite := by
  cases layout with
  | plain =>
    rw [layOut, Number.writeInteger_of_not_readable h]
    rfl
  | coloured colour bold =>
    rw [layOut, Level.nameOfRank_of_not_readable h]
    rfl

/-- A record whose rank can be written is written in every layout. -/
theorem exists_layOut {r : LogRecord} (h : Number.Readable r.rank) (filled : List CodePoint) (layout : RecordLayout) :
    ∃ written, r.layOut filled layout = .ok written := by
  cases layout with
  | plain => exact ⟨_, by rw [layOut, Number.writeInteger_of_readable h]; rfl⟩
  | coloured colour bold =>
    obtain ⟨name, hname⟩ := Level.exists_nameOfRank h
    exact ⟨_, by rw [layOut, hname]; rfl⟩

/-- A record whose rank can be written does not look the same in a coloured layout and in the plain one: a coloured text begins with a
control sequence, and a rank does not. -/
theorem layOut_coloured_ne {r : LogRecord} (h : Number.Readable r.rank) (filled : List CodePoint) (colour : TerminalColour)
    (bold : Bool) : r.layOut filled (.coloured colour bold) ≠ r.layOut filled .plain := by
  obtain ⟨name, hname⟩ := Level.exists_nameOfRank h
  intro he
  rw [layOut, layOut, hname, Number.writeInteger_of_readable h] at he
  have hhead := congrArg List.head? (Except.ok.inj he)
  cases hrank : Text.ofInt r.rank with
  | nil =>
    rw [hrank] at hhead
    exact absurd (CodePoint.ofChar_inj.1 (Option.some.inj hhead)) (by decide)
  | cons c rest =>
    rw [hrank] at hhead
    have hc : '\x1b' = c := CodePoint.ofChar_inj.1 (Option.some.inj hhead)
    have hmem : '\x1b' ∈ Text.ofInt r.rank := by
      rw [hrank, hc]
      exact List.mem_cons_self
    exact Text.not_mem_ofInt (by decide) (by decide) r.rank hmem

end LogRecord

namespace Formatter

/-- The formatter after records. -/
def after (f : Formatter) (rs : List LogRecord) : Formatter := rs.foldl (fun f r => (f.format r).1) f

/-- What a formatter makes of a record: the record filled in, in its layout. -/
theorem format_snd (f : Formatter) (r : LogRecord) :
    (f.format r).2 = r.filled.bind fun filled => (r.layOut filled (f.layoutFor r)).mapError .number := by
  rw [format]
  cases r.filled.bind fun filled => (r.layOut filled (f.layoutFor r)).mapError .number <;> rfl

/-- A record changes what is installed by the layout that it leaves and by nothing else. -/
theorem installed_format (f : Formatter) (r : LogRecord) : (f.format r).1.installed = r.left?.getD f.installed := by
  unfold format LogRecord.left?
  cases r.filled with
  | error e => rfl
  | ok filled =>
    by_cases hr : Number.Readable r.rank
    · obtain ⟨written, hwritten⟩ := LogRecord.exists_layOut hr filled (f.layoutFor r)
      simp only [Except.bind, hwritten]
      rfl
    · -- A rank with too many digits has no layout, so the one that is left is the one that was there.
      have hown : RecordLayout.ofRank? r.rank = none :=
        Option.eq_none_iff_forall_ne_some.2 fun layout hl => hr (RecordLayout.readable_of_ofRank? hl)
      simp only [Except.bind, LogRecord.layOut_of_not_readable hr, layoutFor, hown]
      rfl

/-- What is installed after records is what the last of those that left a layout has left. -/
theorem installed_after (f : Formatter) (rs : List LogRecord) :
    (f.after rs).installed = ((rs.filterMap LogRecord.left?).getLast?).getD f.installed := by
  induction rs generalizing f with
  | nil => rfl
  | cons r rest ih =>
    have hstep : f.after (r :: rest) = (f.format r).1.after rest := rfl
    rw [hstep, ih, installed_format, List.filterMap_cons]
    cases r.left? with
    | none => rfl
    | some layout =>
      simp only [List.getLast?_cons, Option.getD_some]

/-- The outcome of a record is the one that the formatter after the records before it gives. -/
theorem getElem?_formatAll (f : Formatter) (earlier : List LogRecord) (r : LogRecord) (later : List LogRecord) :
    (f.formatAll (earlier ++ r :: later))[earlier.length]? = some ((f.after earlier).format r).2 := by
  induction earlier generalizing f with
  | nil => rfl
  | cons x rest ih => exact ih (f.format x).1

/-- What a formatter makes of a record is what a fresh one makes of it exactly if the record cannot be filled in, its rank has too many
digits, it has a layout of its own, or the plain layout is installed. -/
theorem format_eq_fresh_iff (f : Formatter) (r : LogRecord) :
    (f.format r).2 = (fresh.format r).2 ↔
      (∃ e, r.filled = .error e) ∨ ¬Number.Readable r.rank ∨ (∃ layout, RecordLayout.ofRank? r.rank = some layout) ∨
        f.installed = .plain := by
  rw [format_snd, format_snd, layoutFor, layoutFor]
  cases r.filled with
  | error e => exact iff_of_true rfl (Or.inl ⟨e, rfl⟩)
  | ok filled =>
    simp only [Except.bind, reduceCtorEq, exists_false, false_or]
    by_cases hr : Number.Readable r.rank
    · cases hown : RecordLayout.ofRank? r.rank with
      | some layout =>
        obtain ⟨written, hwritten⟩ := LogRecord.exists_layOut hr filled layout
        simp only [Option.getD_some, hwritten]
        exact iff_of_true trivial (Or.inr (Or.inl ⟨layout, rfl⟩))
      | none =>
        cases hinstalled : f.installed with
        | plain => exact iff_of_true rfl (Or.inr (Or.inr rfl))
        | coloured colour bold =>
          obtain ⟨written, hwritten⟩ := LogRecord.exists_layOut hr filled (.coloured colour bold)
          obtain ⟨written', hwritten'⟩ := LogRecord.exists_layOut hr filled .plain
          have hne := LogRecord.layOut_coloured_ne hr filled colour bold
          rw [hwritten, hwritten', Ne, Except.ok.injEq] at hne
          have hplain : fresh.installed = .plain := rfl
          simp only [Option.getD_none, hplain, hwritten, hwritten', Except.mapError, Except.ok.injEq, hr, not_true_eq_false,
            reduceCtorEq, exists_false, false_or]
          exact iff_of_false hne id
    · simp only [LogRecord.layOut_of_not_readable hr]
      exact iff_of_true trivial (Or.inl hr)

/-- The plain layout is installed after records on a fresh formatter exactly if none of them left a layout. -/
theorem installed_after_fresh_iff (rs : List LogRecord) :
    (fresh.after rs).installed = .plain ↔ ∀ r ∈ rs, r.left? = none := by
  rw [installed_after, ← List.filterMap_eq_nil_iff, ← List.getLast?_eq_none_iff]
  cases hlast : (rs.filterMap LogRecord.left?).getLast? with
  | none => exact iff_of_true rfl rfl
  | some layout =>
    obtain ⟨r, -, hr⟩ := List.mem_filterMap.1 (List.mem_of_getLast? hlast)
    obtain ⟨colour, bold, rfl⟩ := LogRecord.exists_coloured_of_left? hr
    exact iff_of_false nofun nofun

/-- What becomes of a record among others that one formatter writes. It comes out as if it were the first one exactly if it cannot be
filled in, its rank has too many digits, it has a layout of its own, or none of the records before it left a layout; otherwise it comes
out in the layout that was left last. -/
theorem formatAll_eq_first_iff (earlier : List LogRecord) (r : LogRecord) (later : List LogRecord) :
    ((fresh.formatAll (earlier ++ r :: later))[earlier.length]? = some (fresh.format r).2 ↔
      (∃ e, r.filled = .error e) ∨ ¬Number.Readable r.rank ∨ (∃ layout, RecordLayout.ofRank? r.rank = some layout) ∨
        ∀ x ∈ earlier, (∃ filled, x.filled = .ok filled) ∨ RecordLayout.ofRank? x.rank = none) ∧
      ∀ filled left, r.filled = .ok filled → RecordLayout.ofRank? r.rank = none →
        (earlier.filterMap LogRecord.left?).getLast? = some left →
          (fresh.formatAll (earlier ++ r :: later))[earlier.length]? = some ((r.layOut filled left).mapError .number) := by
  refine ⟨?_, fun filled left hfilled hown hleft => ?_⟩
  · rw [getElem?_formatAll, Option.some.injEq, format_eq_fresh_iff, installed_after_fresh_iff]
    simp only [LogRecord.left?_eq_none_iff]
  · have hinstalled := installed_after fresh earlier
    rw [hleft, Option.getD_some] at hinstalled
    rw [getElem?_formatAll, format_snd, hfilled, layoutFor, hown, hinstalled]
    rfl

/-- A record of the lowest level that cannot be filled in shows in the record after it: the critical one, which has no layout of its own,
comes out in gray. -/
theorem formatAll_eq_map_first_false :
    let failing : LogRecord := ⟨10, ['%', 'd'], [.text ['x']]⟩
    let critical : LogRecord := ⟨50, ['u', 'p'], []⟩
    fresh.formatAll [failing, critical] =
        [.error (.wantsReal 'd' "str"), .ok (Text.codePoints ("\x1b[30m[CRITICAL]\x1b[0m - up".toList))] ∧
      (fresh.format critical).2 = .ok (Text.codePoints "50: up".toList) ∧
      fresh.formatAll [failing, critical] ≠ [failing, critical].map fun r => (fresh.format r).2 := by
  intro failing critical
  have hall : fresh.formatAll [failing, critical] =
      [.error (.wantsReal 'd' "str"), .ok (Text.codePoints ("\x1b[30m[CRITICAL]\x1b[0m - up".toList))] := rfl
  have hfirst : (fresh.format critical).2 = .ok (Text.codePoints "50: up".toList) := by decide +kernel
  refine ⟨hall, hfirst, fun h => ?_⟩
  rw [hall, List.map_cons, List.map_singleton, hfirst, List.cons.injEq, List.cons.injEq, Except.ok.injEq] at h
  exact absurd h.2.1 (by decide)

end Formatter
end VesselTraffic
