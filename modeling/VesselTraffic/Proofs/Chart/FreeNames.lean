import Mathlib.Data.List.Nodup
import Mathlib.Data.List.Perm.Subperm
import Mathlib.Data.Nat.Find
import VesselTraffic.Chart.Plot
import VesselTraffic.Proofs.Number.IntegerText
import VesselTraffic.Proofs.Result

/-!
# Free names of plots

A file name is one part, so it is looked up unless it has too many bytes, and it is taken exactly if the folder has it (`probe_eq`).
The same goes for every numbered form of it. Different numbers give different names (`numbered_injective`), so a folder cannot have all
of the first numbered names, and counting on from one without any bound ends: at the first number that is free, or at the first one
whose name is too long to be looked up (`countsTo_iff`).

How a figure is saved is not known here. Nothing is asked of it but that it takes no file away, and that each plot that goes through
leaves a file under its path. Then the paths of plots that are saved one after another differ, and each was free (`saveAll_keeps`).
-/

namespace VesselTraffic

namespace Text

/-- Different numbers are written differently. -/
theorem ofNat_injective : Function.Injective ofNat := by
  intro m n h
  rw [← Number.ofDigits_ofNat m, ← Number.ofDigits_ofNat n, h]

end Text

namespace Folder

variable {f : Folder} {name : Text}

/-- A file name: one part that is neither the folder of plots nor the folder above. -/
def IsFileName (name : Text) : Prop := name ≠ [] ∧ '/' ∉ name ∧ name ≠ ['.'] ∧ name ≠ above

instance (name : Text) : Decidable (IsFileName name) := inferInstanceAs (Decidable (_ ∧ _))

/-- A file name is the only part of itself. -/
theorem parts_of_isFileName (h : IsFileName name) : parts name = [name] := by
  obtain ⟨hne, hslash, hpoint, -⟩ := h
  rw [parts, List.splitOn_eq_singleton hslash, List.filter_cons_of_pos (by simp [hne, hpoint]), List.filter_nil]

/-- A file name does not begin with a slash. -/
theorem isRooted_of_isFileName (h : IsFileName name) : isRooted name = false :=
  decide_eq_false fun e => h.2.1 (List.mem_of_mem_head? e)

/-- A file name is in its shortest form. -/
theorem plain_of_isFileName (h : IsFileName name) : plain name = name := by
  rw [plain, isRooted_of_isFileName h, parts_of_isFileName h]
  exact List.append_nil name

/-- A file name that can be looked up: it has not too many bytes, or it has a null character and is not looked up at all. -/
def Findable (name : Text) : Prop := '\x00' ∈ name ∨ byteCount name ≤ byteLimit

instance (name : Text) : Decidable (Findable name) := inferInstanceAs (Decidable (_ ∨ _))

/-- A file name is too long to be looked up exactly if it is not findable. -/
theorem isTooLong_iff (h : IsFileName name) : isTooLong name = true ↔ ¬Findable name := by
  have hfirst : firstPart? name = some name := by
    rw [firstPart?, parts_of_isFileName h, List.find?_cons_of_pos (by simp [h.2.2.2])]
  simp [isTooLong, hfirst, Findable]

/-- A file name is taken exactly if the folder has it, if it can be looked up. -/
theorem probe_eq (h : IsFileName name) :
    f.probe name = if Findable name then .ok (decide (name ∈ f.names)) else .error (.nameTooLong (path name)) := by
  have habove : [name].all (· = above) = false := by simp [h.2.2.2]
  have hhas : f.has name = decide (name ∈ f.names) := by
    rw [has, parts_of_isFileName h, habove, Bool.false_or, List.contains_eq_mem]
  rw [probe, hhas]
  by_cases hn : Findable name
  · rw [if_pos hn, if_neg fun hlong => (isTooLong_iff h).1 hlong hn]
  · rw [if_neg hn, if_pos ((isTooLong_iff h).2 hn)]

/-- A file name is found taken exactly if it can be looked up and the folder has it. -/
theorem probe_eq_taken_iff (h : IsFileName name) : f.probe name = .ok true ↔ Findable name ∧ name ∈ f.names := by
  rw [probe_eq h]
  split <;> simp_all

/-- A file name is its stem with its suffix. -/
theorem stem_append_suffix (h : IsFileName name) : (stemAndSuffix name).1 ++ (stemAndSuffix name).2 = name := by
  have hlast : (parts name).getLast?.getD [] = name := by rw [parts_of_isFileName h]; rfl
  unfold stemAndSuffix
  simp only [hlast]
  cases hcut : Text.cutLast '.' name with
  | none => exact List.append_nil name
  | some p =>
    obtain ⟨stem, suffix⟩ := p
    by_cases hs : stem = [] ∨ suffix = []
    · simp only [if_pos hs, List.append_nil]
    · simp only [if_neg hs]
      exact (Text.cutLast_eq_some hcut).1.symm

/-- A numbered form of a file name is a file name. -/
theorem isFileName_numbered (h : IsFileName name) (i : Nat) : IsFileName (numbered name i) := by
  have hbar : '_' ∈ numbered name i := by simp [numbered]
  have hslash : '/' ∉ (stemAndSuffix name).1 ++ (stemAndSuffix name).2 := by
    rw [stem_append_suffix h]
    exact h.2.1
  have hdigits : '/' ∉ Text.ofNat i := Text.not_mem_ofInt (by decide) (by decide) (.ofNat i)
  rw [List.mem_append, not_or] at hslash
  refine ⟨List.ne_nil_of_mem hbar, ?_, ?_, ?_⟩
  · simp [numbered, hslash.1, hslash.2, hdigits]
  · intro e
    rw [e] at hbar
    exact absurd hbar (by decide)
  · intro e
    rw [e] at hbar
    exact absurd hbar (by decide)

/-- Different numbers give different names. -/
theorem numbered_injective (name : Text) : Function.Injective (numbered name) := by
  intro i j h
  have hdigits := List.append_cancel_left (List.append_cancel_right h)
  exact Text.ofNat_injective (List.cons.inj hdigits).2

/-- Among the first numbered names, one more of them than the folder has names, there is one that the folder does not have. -/
theorem exists_free_number (f : Folder) (name : Text) : ∃ i, 1 ≤ i ∧ i < f.names.length + 2 ∧ numbered name i ∉ f.names := by
  by_contra hall
  push Not at hall
  have hnodup : ((List.range' 1 (f.names.length + 1)).map (numbered name)).Nodup :=
    List.Nodup.map (numbered_injective name) List.nodup_range'
  have hsub : (List.range' 1 (f.names.length + 1)).map (numbered name) ⊆ f.names := by
    intro n hn
    obtain ⟨i, hi, rfl⟩ := List.mem_map.1 hn
    have hrange := List.mem_range'_1.1 hi
    exact hall i hrange.1 (by omega)
  have hlength := (List.subperm_of_subset hnodup hsub).length_le
  rw [List.length_map, List.length_range'] at hlength
  omega

/-- Counting on from a number while its name is taken, without a bound: what it ends in. -/
inductive CountsTo (f : Folder) (name : Text) : (start : Nat) → Except FolderFault Nat → Prop
  | free {i : Nat} : f.probe (numbered name i) = .ok false → CountsTo f name i (.ok i)
  | fault {i : Nat} {e : FolderFault} : f.probe (numbered name i) = .error e → CountsTo f name i (.error e)
  | taken {i : Nat} {r : Except FolderFault Nat} : f.probe (numbered name i) = .ok true → CountsTo f name (i + 1) r → CountsTo f name i r

/-- The first number from `i` on whose name is not found taken. -/
structure StopsAt (f : Folder) (name : Text) (i k : Nat) : Prop where
  le : i ≤ k
  taken : ∀ j, i ≤ j → j < k → f.probe (numbered name j) = .ok true
  stop : f.probe (numbered name k) ≠ .ok true

/-- Counting may begin with a number whose name is taken. -/
theorem StopsAt.succ {i k : Nat} (h : StopsAt f name i k) (hi : i < k) : StopsAt f name (i + 1) k :=
  ⟨hi, fun j hj hk => h.taken j (by omega) hk, h.stop⟩

/-- Counting ends at the first number whose name is not found taken, in that number if it is free and else in the fault. -/
theorem countsTo_iff {i : Nat} {r : Except FolderFault Nat} :
    CountsTo f name i r ↔ ∃ k, StopsAt f name i k ∧ r = (f.probe (numbered name k)).map fun _ => k := by
  constructor
  · intro h
    induction h with
    | @free i hfree => exact ⟨i, ⟨Nat.le_refl i, fun j hi hk => absurd hk (by omega), by simp [hfree]⟩, by rw [hfree]; rfl⟩
    | @fault i e hfault => exact ⟨i, ⟨Nat.le_refl i, fun j hi hk => absurd hk (by omega), by simp [hfault]⟩, by rw [hfault]; rfl⟩
    | @taken i r htaken _ ih =>
      obtain ⟨k, hstops, hr⟩ := ih
      refine ⟨k, ⟨Nat.le_of_succ_le hstops.le, fun j hi hk => ?_, hstops.stop⟩, hr⟩
      rcases Nat.eq_or_lt_of_le hi with rfl | hi
      · exact htaken
      · exact hstops.taken j hi hk
  · rintro ⟨k, hstops, rfl⟩
    -- on how far there is still to count
    induction hd : k - i generalizing i with
    | zero =>
      obtain rfl : i = k := Nat.le_antisymm hstops.le (by omega)
      cases hprobe : f.probe (numbered name i) with
      | error e => exact .fault hprobe
      | ok taken =>
        cases taken with
        | true => exact absurd hprobe hstops.stop
        | false => exact .free hprobe
    | succ d ih =>
      have hlt : i < k := by omega
      exact .taken (hstops.taken i (Nat.le_refl i) hlt) (ih (hstops.succ hlt) (by omega))

/-- Counting with a bound comes as far as counting without one, if that ends within the bound. -/
theorem freeNumber_eq_of_stopsAt {i k tries : Nat} (h : StopsAt f name i k) (hk : k < i + tries) :
    f.freeNumber name tries i = (f.probe (numbered name k)).map fun _ => k := by
  induction tries generalizing i with
  | zero => exact absurd h.le (by omega)
  | succ tries ih =>
    rw [freeNumber]
    rcases Nat.eq_or_lt_of_le h.le with rfl | hlt
    · cases hprobe : f.probe (numbered name i) with
      | error e => rfl
      | ok taken =>
        cases taken with
        | true => exact absurd hprobe h.stop
        | false => rfl
    · rw [h.taken i (Nat.le_refl i) hlt]
      exact ih (h.succ hlt) (by omega)

/-- Counting the numbered forms of a file name from one stops, and after no more tries than there are names and one more. -/
theorem exists_stopsAt (f : Folder) (h : IsFileName name) : ∃ k, StopsAt f name 1 k ∧ k < 1 + (f.names.length + 1) := by
  classical
  obtain ⟨i, hi, hlt, hfree⟩ := exists_free_number f name
  have hstop : 1 ≤ i ∧ f.probe (numbered name i) ≠ .ok true :=
    ⟨hi, fun htaken => hfree ((probe_eq_taken_iff (isFileName_numbered h i)).1 htaken).2⟩
  have hexists : ∃ i, 1 ≤ i ∧ f.probe (numbered name i) ≠ .ok true := ⟨i, hstop⟩
  obtain ⟨hone, hfirst⟩ := Nat.find_spec hexists
  refine ⟨Nat.find hexists, ⟨hone, fun j hj hlt => ?_, hfirst⟩, ?_⟩
  · by_contra hn
    exact Nat.find_min hexists hlt ⟨hj, hn⟩
  · have hle := Nat.find_min' hexists hstop
    omega

/-- A file name that cannot be looked up is a fault. -/
theorem freeName_of_not_findable (h : IsFileName name) (hn : ¬Findable name) :
    f.freeName name = .error (.nameTooLong (path name)) := by
  rw [freeName, probe_eq h, if_neg hn]
  rfl

/-- A file name that is free is used as it is. -/
theorem freeName_of_not_mem (h : IsFileName name) (hn : Findable name) (hfree : name ∉ f.names) : f.freeName name = .ok name := by
  rw [freeName, probe_eq h, if_pos hn, decide_eq_false hfree]
  rfl

/-- A file name that is taken gets the number that counting ends in, or the fault. -/
theorem freeName_of_mem (h : IsFileName name) (hn : Findable name) (htaken : name ∈ f.names) :
    ∃ k, StopsAt f name 1 k ∧ f.freeName name = ((f.probe (numbered name k)).map fun _ => k).map (numbered name) := by
  obtain ⟨k, hstops, hlt⟩ := exists_stopsAt f h
  refine ⟨k, hstops, ?_⟩
  rw [freeName, probe_eq h, if_pos hn, decide_eq_true htaken, ← freeNumber_eq_of_stopsAt hstops hlt]
  rfl

/-- The folder does not have the name that a plot is saved under. -/
theorem not_mem_of_freeName (h : IsFileName name) {free : Text} (hfree : f.freeName name = .ok free) : free ∉ f.names := by
  by_cases hn : Findable name
  · by_cases htaken : name ∈ f.names
    · obtain ⟨k, hstops, hname⟩ := freeName_of_mem h hn htaken
      rw [hname, map_eq_ok_iff] at hfree
      obtain ⟨i, hi, rfl⟩ := hfree
      obtain ⟨taken, hprobe, rfl⟩ := map_eq_ok_iff.1 hi
      rw [probe_eq (isFileName_numbered h _)] at hprobe
      split at hprobe
      · rename_i hfindable
        exact fun hmem => hstops.stop ((probe_eq_taken_iff (isFileName_numbered h _)).2 ⟨hfindable, hmem⟩)
      · cases hprobe
    · rw [freeName_of_not_mem h hn htaken] at hfree
      rwa [← Except.ok.inj hfree]
  · rw [freeName_of_not_findable h hn] at hfree
    cases hfree

/-- What is found for a file name that a plot is wanted under. A name that cannot be looked up is a fault, and a name that is free is
used. For a name that is taken, counting ends: all numbers below are taken, and the one that it ends at is free or has a name that
cannot be looked up. -/
structure FindsName (f : Folder) (name : Text) : Prop where
  long : ¬Findable name → f.freeName name = .error (.nameTooLong (path name))
  free : Findable name → name ∉ f.names → f.freeName name = .ok name
  taken : Findable name → name ∈ f.names → ∃ k r, CountsTo f name 1 r ∧ 1 ≤ k ∧
    (∀ j, 1 ≤ j → j < k → Findable (numbered name j) ∧ numbered name j ∈ f.names) ∧
    ((r = .ok k ∧ Findable (numbered name k) ∧ numbered name k ∉ f.names ∧ f.freeName name = .ok (numbered name k)) ∨
      (r = .error (.nameTooLong (path (numbered name k))) ∧ ¬Findable (numbered name k) ∧
        f.freeName name = .error (.nameTooLong (path (numbered name k)))))
  new : ∀ name', f.freeName name = .ok name' → name' ∉ f.names

/-- A name is found, or a fault, for every file name. -/
theorem findsName (f : Folder) (h : IsFileName name) : FindsName f name := by
  refine ⟨freeName_of_not_findable h, freeName_of_not_mem h, fun hn htaken => ?_, fun _ => not_mem_of_freeName h⟩
  obtain ⟨k, hstops, hname⟩ := freeName_of_mem h hn htaken
  have hfile := isFileName_numbered h
  refine ⟨k, _, countsTo_iff.2 ⟨k, hstops, rfl⟩, hstops.le, fun j hj hlt => ?_, ?_⟩
  · exact (probe_eq_taken_iff (hfile j)).1 (hstops.taken j hj hlt)
  · have hstop := hstops.stop
    rw [Ne, probe_eq_taken_iff (hfile k), not_and] at hstop
    rw [hname, probe_eq (hfile k)]
    by_cases hk : Findable (numbered name k)
    · rw [if_pos hk]
      exact Or.inl ⟨rfl, hk, hstop hk, rfl⟩
    · rw [if_neg hk]
      exact Or.inr ⟨rfl, hk, rfl⟩

/-- Different names have different paths. -/
theorem path_injective : Function.Injective path := by
  -- a rooted name is its own path, and no other path begins with a slash
  have hroot : ∀ a b : Text, isRooted a = true → a ≠ folderName ++ '/' :: b := by
    rintro a b ha rfl
    have hp : isRooted (folderName ++ '/' :: b) = false := rfl
    rw [hp] at ha
    cases ha
  intro a b h
  unfold path at h
  by_cases ha : isRooted a = true <;> by_cases hb : isRooted b = true
  · rwa [if_pos ha, if_pos hb] at h
  · rw [if_pos ha, if_neg hb] at h
    exact absurd h (hroot a b ha)
  · rw [if_neg ha, if_pos hb] at h
    exact absurd h.symm (hroot b a hb)
  · rw [if_neg ha, if_neg hb] at h
    exact (List.cons.inj (List.append_cancel_left h)).2

end Folder

namespace Plot

/-- What is asked for when a scenario is to be drawn and saved. -/
structure Request where
  scenario : Tracker Quantity
  name : Option Text
  moment : Option Drawing.Moment

/-- What comes of a request. -/
def Request.save (r : Request) (saver : Saver) (f : Folder) : Outcome Folder Plot := Plot.save saver f r.scenario r.name r.moment

/-- The folder after requests, and what came of each of them. -/
def saveAll (saver : Saver) (f : Folder) : List Request → Folder × List (Except Fault Plot)
  | [] => (f, [])
  | r :: rest =>
    let o := r.save saver f
    let more := saveAll saver o.state rest
    (more.1, o.result :: more.2)

/-- The paths of the plots that were saved. -/
def paths (results : List (Except Fault Plot)) : List Text := results.filterMap fun r => r.toOption.map Plot.path

/-- What holds of the folder before each request and of what came of it. -/
def Throughout (P : Folder → Outcome Folder Plot → Prop) (saver : Saver) (f : Folder) : List Request → Prop
  | [] => True
  | r :: rest => P f (r.save saver f) ∧ Throughout P saver (r.save saver f).state rest

/-- Saving a figure takes no file away. -/
def Saver.KeepsFiles (saver : Saver) : Prop := ∀ f calls name, f.names ⊆ (saver f calls name).state.names

/-- A plot that goes through leaves a file under its path. -/
def LeavesFile (_ : Folder) (o : Outcome Folder Plot) : Prop :=
  ∀ plot, o.result = .ok plot → ∃ n ∈ o.state.names, plot.path = Folder.path n

/-- A request takes no file away, and a plot that goes through has a path that was free before. -/
structure SavesBeside (f : Folder) (o : Outcome Folder Plot) : Prop where
  kept : f.names ⊆ o.state.names
  new : ∀ plot, o.result = .ok plot → ∃ n, plot.path = Folder.path n ∧ n ∉ f.names

/-- A plot that goes through was drawn, a name was found for it, and the figure was saved under that name. -/
theorem saved_of_save {saver : Saver} {f : Folder} {t : Tracker Quantity} {name : Option Text} {moment : Option Drawing.Moment}
    {plot : Plot} (h : (save saver f t name moment).result = .ok plot) :
    ∃ strokes free, Drawing.ofTracker t moment = .ok strokes ∧ f.freeName (Folder.plain (wantedName name)) = .ok free ∧
      (saver f (strokes.map call) free).result = .ok () ∧ plot = ⟨Folder.path free, strokes.map call⟩ ∧
        (save saver f t name moment).state = (saver f (strokes.map call) free).state := by
  unfold save at h ⊢
  cases hdrawing : Drawing.ofTracker t moment with
  | error e =>
    rw [hdrawing] at h
    cases h
  | ok strokes =>
    cases hfree : f.freeName (Folder.plain (wantedName name)) with
    | error e =>
      simp only [hdrawing, hfree] at h
      cases h
    | ok free =>
      cases hsaved : (saver f (strokes.map call) free).result with
      | error e =>
        simp only [hdrawing, hfree, hsaved] at h
        cases h
      | ok =>
        simp only [hdrawing, hfree, hsaved] at h ⊢
        exact ⟨strokes, free, rfl, rfl, hsaved, (Except.ok.inj h).symm, rfl⟩

/-- Saving a plot takes no file away, whatever becomes of it. -/
theorem names_subset_save {saver : Saver} (hkeeps : saver.KeepsFiles) (f : Folder) (t : Tracker Quantity) (name : Option Text)
    (moment : Option Drawing.Moment) : f.names ⊆ (save saver f t name moment).state.names := by
  unfold save
  cases Drawing.ofTracker t moment with
  | error e => exact List.Subset.refl _
  | ok strokes =>
    cases f.freeName (Folder.plain (wantedName name)) with
    | error e => exact List.Subset.refl _
    | ok free =>
      have hkept := hkeeps f (strokes.map call) free
      simp only
      cases (saver f (strokes.map call) free).result <;> exact hkept

/-- A request whose name is a file name is saved beside the files that are there. -/
theorem savesBeside_save {saver : Saver} (hkeeps : saver.KeepsFiles) (f : Folder) {r : Request}
    (hr : Folder.IsFileName (wantedName r.name)) : SavesBeside f (r.save saver f) := by
  refine ⟨names_subset_save hkeeps f _ _ _, fun plot hplot => ?_⟩
  obtain ⟨strokes, free, -, hfree, -, rfl, -⟩ := saved_of_save hplot
  rw [Folder.plain_of_isFileName hr] at hfree
  exact ⟨free, rfl, Folder.not_mem_of_freeName hr hfree⟩

/-- Requests for file names are all saved beside the files that are there, and the folder keeps what it had. -/
theorem throughout_savesBeside {saver : Saver} (hkeeps : saver.KeepsFiles) (f : Folder) {requests : List Request}
    (h : ∀ r ∈ requests, Folder.IsFileName (wantedName r.name)) :
    Throughout SavesBeside saver f requests ∧ f.names ⊆ (saveAll saver f requests).1.names := by
  induction requests generalizing f with
  | nil => exact ⟨trivial, List.Subset.refl _⟩
  | cons r rest ih =>
    obtain ⟨hr, hrest⟩ := List.forall_mem_cons.1 h
    have hstep := savesBeside_save hkeeps f hr
    obtain ⟨hmore, hkept⟩ := ih (r.save saver f).state hrest
    exact ⟨⟨hstep, hmore⟩, List.Subset.trans hstep.kept hkept⟩

/-- The paths of plots that are saved beside the files that are there, and leave files of their own, differ from one another and from
those of the files. -/
theorem nodup_paths {saver : Saver} {f : Folder} {requests : List Request} (hbeside : Throughout SavesBeside saver f requests)
    (hleaves : Throughout LeavesFile saver f requests) :
    (paths (saveAll saver f requests).2).Nodup ∧ ∀ n ∈ f.names, Folder.path n ∉ paths (saveAll saver f requests).2 := by
  induction requests generalizing f with
  | nil => exact ⟨List.nodup_nil, fun _ _ => List.not_mem_nil⟩
  | cons r rest ih =>
    obtain ⟨hnodup, hapart⟩ := ih hbeside.2 hleaves.2
    have hrest : ∀ n ∈ f.names, Folder.path n ∉ paths (saveAll saver (r.save saver f).state rest).2 :=
      fun n hn => hapart n (hbeside.1.kept hn)
    cases hresult : (r.save saver f).result with
    | error e =>
      have hpaths : paths (saveAll saver f (r :: rest)).2 = paths (saveAll saver (r.save saver f).state rest).2 := by
        simp only [saveAll, paths, hresult]
        rfl
      rw [hpaths]
      exact ⟨hnodup, hrest⟩
    | ok plot =>
      have hpaths : paths (saveAll saver f (r :: rest)).2 = plot.path :: paths (saveAll saver (r.save saver f).state rest).2 := by
        simp only [saveAll, paths, hresult]
        rfl
      obtain ⟨left, hleft, hpath⟩ := hleaves.1 plot hresult
      obtain ⟨n, hn, hfree⟩ := hbeside.1.new plot hresult
      rw [hpaths]
      refine ⟨List.nodup_cons.2 ⟨hpath ▸ hapart left hleft, hnodup⟩, fun old hold => ?_⟩
      rw [List.mem_cons, not_or]
      refine ⟨fun e => hfree ?_, hrest old hold⟩
      rwa [← Folder.path_injective (e.trans hn)]

/-- No plot replaces a file. For a file name, counting the numbered names ends, and the plot is saved under a name that the folder does
not have: the wanted name if it is free, and else the one with the least number that is free; unless a name that is tried on the way
there is too long to be looked up, which is a fault. So plots that are saved one after another, whatever names are wanted and whatever
becomes of each plot, have paths that differ and that were free, and all names stay in the folder. -/
theorem saveAll_keeps (f : Folder) :
    (∀ name, Folder.IsFileName name → Folder.FindsName f name) ∧
    ∀ (saver : Saver) (requests : List Request), saver.KeepsFiles → (∀ r ∈ requests, Folder.IsFileName (wantedName r.name)) →
      Throughout LeavesFile saver f requests →
        (paths (saveAll saver f requests).2).Nodup ∧ Throughout SavesBeside saver f requests ∧
          f.names ⊆ (saveAll saver f requests).1.names := by
  refine ⟨fun name h => Folder.findsName f h, fun saver requests hkeeps h hleaves => ?_⟩
  obtain ⟨hbeside, hkept⟩ := throughout_savesBeside hkeeps f h
  exact ⟨(nodup_paths hbeside hleaves).1, hbeside, hkept⟩

/-- A scenario without vessels is drawn as the names of the axes. -/
theorem ofTracker_fresh (keep : Retention Quantity) (moment : Option Drawing.Moment) :
    Drawing.ofTracker (Tracker.fresh keep) moment = .ok [.xAxis, .yAxis] := by
  have hnone : (Tracker.fresh keep).positioned = [] := List.mergeSort_nil
  rw [Drawing.ofTracker, hnone]
  rfl

/-- A folder with a file made under a name has the name and all others. -/
theorem names_of_makeFile {f f' : Folder} {name : Text} (h : f.makeFile name = .ok f') : f'.names = name :: f.names := by
  unfold Folder.makeFile at h
  split at h
  · cases h
  · split at h
    · cases h
    · split at h
      · split at h
        · rw [← Except.ok.inj h]
        · cases h
      · rw [← Except.ok.inj h]

/-- Saving a figure as one file takes no file away. -/
theorem keepsFiles_oneFile : Saver.oneFile.KeepsFiles := by
  intro f calls name
  unfold Saver.oneFile
  cases hmade : f.makeFile name with
  | error e => exact List.Subset.refl _
  | ok f' => exact names_of_makeFile hmade ▸ List.subset_cons_self name f.names

/-- Figures that are saved as one file leave it under the path of the plot. -/
theorem leavesFile_oneFile (f : Folder) (r : Request) : LeavesFile f (r.save .oneFile f) := by
  intro plot hplot
  obtain ⟨strokes, free, -, -, hsaved, rfl, hstate⟩ := saved_of_save hplot
  refine ⟨free, ?_, rfl⟩
  rw [Request.save, hstate]
  unfold Saver.oneFile at hsaved ⊢
  cases hmade : f.makeFile free with
  | error e =>
    rw [hmade] at hsaved
    cases hsaved
  | ok f' => exact names_of_makeFile hmade ▸ List.mem_cons_self

/-- Names that look numbered themselves are wanted among others, where the folder has one of them already. -/
theorem saveAll_keeps_numbered_name :
    let a := "a.png".toList
    let a1 := "a_1.png".toList
    let request := fun name => (⟨Tracker.fresh Retention.keepAll, some name, none⟩ : Request)
    let requests := [request a, request a1, request a]
    Folder.IsFileName a ∧ a ∈ [a1, a] ∧ Folder.FindsName ⟨[a1, a]⟩ a ∧
      Folder.freeName ⟨[a1, a]⟩ a = .ok "a_2.png".toList ∧ Saver.oneFile.KeepsFiles ∧
      (∀ r ∈ requests, Folder.IsFileName (wantedName r.name)) ∧ Throughout LeavesFile .oneFile ⟨[a1]⟩ requests ∧
      (paths (saveAll .oneFile ⟨[a1]⟩ requests).2).Nodup ∧
      paths (saveAll .oneFile ⟨[a1]⟩ requests).2 = ["plots/a.png".toList, "plots/a_1_1.png".toList, "plots/a_2.png".toList] := by
  intro a a1 request requests
  have ha : Folder.IsFileName a := by decide
  have ha1 : Folder.IsFileName a1 := by decide
  have hrequests : ∀ r ∈ requests, Folder.IsFileName (wantedName r.name) := by
    simp only [requests, List.forall_mem_cons]
    exact ⟨ha, ha1, ha, fun r hr => absurd hr List.not_mem_nil⟩
  have hleaves : Throughout LeavesFile .oneFile ⟨[a1]⟩ requests :=
    ⟨leavesFile_oneFile _ _, leavesFile_oneFile _ _, leavesFile_oneFile _ _, trivial⟩
  have hpaths : paths (saveAll .oneFile ⟨[a1]⟩ requests).2 =
      ["plots/a.png".toList, "plots/a_1_1.png".toList, "plots/a_2.png".toList] := by
    simp only [requests, request, saveAll, Request.save, save, ofTracker_fresh, a, a1]
    decide +kernel
  exact ⟨ha, by decide, (saveAll_keeps ⟨[a1, a]⟩).1 a ha, by decide +kernel, keepsFiles_oneFile, hrequests, hleaves,
    ((saveAll_keeps ⟨[a1]⟩).2 .oneFile requests keepsFiles_oneFile hrequests hleaves).1, hpaths⟩

/-- A name is not found for every file name: one of 256 bytes cannot be looked up. -/
theorem saveAll_keeps_overlong_name :
    ¬∀ (f : Folder) (name : Text), Folder.IsFileName name → ∃ free, f.freeName name = .ok free ∧ free ∉ f.names := by
  intro h
  have hfault : Folder.empty.freeName (List.replicate 256 'x') =
      .error (.nameTooLong (Folder.path (List.replicate 256 'x'))) := by decide +kernel
  obtain ⟨free, hfree, -⟩ := h Folder.empty (List.replicate 256 'x') (by decide +kernel)
  rw [hfault] at hfree
  cases hfree

end Plot
end VesselTraffic
