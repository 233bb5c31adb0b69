import VesselTraffic.Proofs.Chart.FreeNames
import VesselTraffic.Proofs.Timeline.Answering
import VesselTraffic.Proofs.Tracking.Interleaving

/-!
# Drawings by vessels

A drawing has a track for each target with a sample and a mark right behind it if the target is shown at the time that is asked about
(`tracks_eq`, `isSome_shown_iff`). It is made as long as no number on the way is out of range, and then the calls are determined by the
vessels' own messages: the order in which the targets are taken does not matter at all, and the way in which the vessels were interleaved
shows in nothing but the sign of a zero in the corner of the box or in the title (`Plot.portrays_run`). A number is on the way as well
if it has to be written: the MMSI of a target without a name, and a time that is before all samples of a target.
-/

namespace VesselTraffic

namespace Drawing

variable {α : Type} [Navigation α]

/-- Where a target is shown at the time that is asked about, if it is shown. -/
def shown (asked : Option Int) (x : Target α) : Option (Sample α) := asked.bind fun time => (x.timeline.query time).toOption

/-- The name that is put to the track of a target. It is empty only if the name cannot be written, and then there is no drawing. -/
def caption (x : Target α) : Text := x.name.toOption.getD []

/-- The track of a target and right behind it its mark, if it is shown. -/
def vessel (extent : Option (Extent α)) (asked : Option Int) (place : Nat) (x : Target α) : List (Stroke α) :=
  .track place (x.timeline.samples.map Sample.position) (caption x) ::
    (shown asked x).toList.map fun s => .mark place s.position (extent.any fun e => !e.contains s.position)

/-- The tracks and the marks of targets in order. -/
def vessels (extent : Option (Extent α)) (asked : Option Int) (xs : List (Target α)) : List (Stroke α) :=
  xs.zipIdx.flatMap fun e => vessel extent asked e.2 e.1

/-- A target that can be drawn with the time that is asked about: its name can be written, and neither whether it moves nor where it is
reckoned or interpolated to is out of range, nor the time itself if it has to be written because no sample is before it. -/
structure Drawable (asked : Option Int) (x : Target α) : Prop where
  named : ∃ name, x.name = .ok name
  answered : ∀ time, asked = some time → ∀ e, x.timeline.query time ≠ .error (.number e)

variable {extent : Option (Extent α)} {asked : Option Int} {x : Target α} {xs : List (Target α)}

omit [Navigation α] in
/-- A target whose name can be written has a track with that name. -/
theorem track_eq (h : ∃ name, x.name = .ok name) (place : Nat) :
    track place x = .ok (.track place (x.timeline.samples.map Sample.position) (caption x)) := by
  obtain ⟨name, hname⟩ := h
  rw [track, caption, hname]
  rfl

/-- A target that can be drawn is marked exactly if it is shown. -/
theorem mark_eq (h : Drawable asked x) (place : Nat) : mark extent (asked.map .ok) place x =
    .ok ((shown asked x).toList.map fun s => .mark place s.position (extent.any fun e => !e.contains s.position)) := by
  cases asked with
  | none => rfl
  | some time =>
    have hanswer := h.answered time rfl
    simp only [Option.map_some, mark, markAt, shown, Option.bind_some]
    cases hq : x.timeline.query time with
    | ok s => rfl
    | error e =>
      cases e with
      | noPriorSample _ => rfl
      | number f => exact absurd hq (hanswer f)

/-- Targets that can be drawn are drawn one after the other. -/
theorem tracks_eq (h : ∀ x ∈ xs, Drawable asked x) (place : Nat) :
    tracks extent (asked.map .ok) place xs = .ok ((xs.zipIdx place).flatMap fun e => vessel extent asked e.2 e.1) := by
  induction xs generalizing place with
  | nil => rfl
  | cons x rest ih =>
    obtain ⟨hx, hrest⟩ := List.forall_mem_cons.1 h
    rw [tracks, track_eq hx.named, mark_eq hx, ih hrest]
    rfl

/-- A scenario whose targets can be drawn is drawn. -/
theorem ofTracker_eq {t : Tracker α} (h : ∀ x ∈ t.positioned, Drawable asked x) :
    ofTracker t (asked.map .ok) = .ok (vessels t.extent asked t.positioned ++ surroundings t.extent t.positioned.length) := by
  rw [ofTracker, tracks_eq h]
  rfl

/-- A target that can be drawn is shown exactly if it has a sample at the time that is asked about or before. -/
theorem isSome_shown_iff (h : Drawable asked x) :
    (shown asked x).isSome ↔ ∃ time, asked = some time ∧ ∃ s ∈ x.timeline.samples, s.timestamp ≤ time := by
  cases asked with
  | none => simp [shown]
  | some time =>
    have hprior : (∀ c ≤ time, x.timeline.find? c = none) ↔ ¬∃ s ∈ x.timeline.samples, s.timestamp ≤ time := by
      simp only [← Option.not_isSome_iff_eq_none, Timeline.isSome_find?_iff, Timeline.times, List.mem_map]
      constructor
      · rintro hnone ⟨s, hs, hle⟩
        exact hnone s.timestamp hle ⟨s, hs, rfl⟩
      · rintro hnone c hle ⟨s, hs, rfl⟩
        exact hnone ⟨s, hs, hle⟩
    have hanswer := h.answered time rfl
    simp only [shown, Option.bind_some, Option.some.injEq, exists_eq_left']
    cases hq : x.timeline.query time with
    | ok s =>
      refine iff_of_true rfl (not_not.1 fun hn => ?_)
      rw [Timeline.query_noneBefore (hprior.2 hn)] at hq
      cases hq
    | error e =>
      cases e with
      | number f => exact absurd hq (hanswer f)
      | noPriorSample c =>
        obtain ⟨rfl, -⟩ := Timeline.of_query_noPrior hq
        exact iff_of_false Bool.false_ne_true (hprior.1 (Timeline.query_eq_noPrior_iff.1 hq).2)

/-- Labels do not keep a target from being drawn. -/
theorem drawable_unlabelled_iff : Drawable asked x.unlabelled ↔ Drawable asked x :=
  ⟨fun h => ⟨h.named, h.answered⟩, fun h => ⟨h.named, h.answered⟩⟩

/-- Labels are not drawn. -/
theorem vessels_map_unlabelled : vessels extent asked (xs.map Target.unlabelled) = vessels extent asked xs := by
  rw [vessels, List.zipIdx_map, List.flatMap_map]
  rfl

/-- Boxes whose sides stand for the same numbers show the same marks outside. -/
theorem vessels_congr {e e' : Option (Extent Quantity)} (h : Option.Rel Extent.SameNumbers e e') (xs : List (Target Quantity)) :
    vessels e asked xs = vessels e' asked xs := by
  have houtside : ∀ p : Position Quantity, (e.any fun b => !b.contains p) = e'.any fun b => !b.contains p := by
    intro p
    cases h with
    | none => rfl
    | some hb => rw [Option.any_some, Option.any_some, hb.contains_eq]
  simp only [vessels, vessel, houtside]

end Drawing

namespace Plot

open Tracker

/-- The call that draws the title around a middle. -/
def titleCall (targets : Nat) (lat lon : Float) : AxesCall :=
  ⟨"set_title", [.text (Text.ofNat targets ++ " targets around ".toList ++ Double.fixed 4 lat ++ "N ".toList ++ Double.fixed 4 lon ++
    ['E'])], []⟩

/-- The call that draws a box from a corner on. -/
def boxCall (west south width height : Float) : AxesCall :=
  ⟨"add_patch", [.list [.list [.number west, .number south], .number width, .number height, text "--", text "#999999", .flag false]],
    []⟩

/-- Two calls that are the same, up to the sign of a zero that is a corner of the box or is in the title. -/
inductive Alike : AxesCall → AxesCall → Prop
  | same (c : AxesCall) : Alike c c
  | title (targets : Nat) {lat lat' lon lon' : Float} : Double.Alike lat lat' → Double.Alike lon lon' →
      Alike (titleCall targets lat lon) (titleCall targets lat' lon')
  | box {west west' south south' : Float} (width height : Float) : Double.Alike west west' → Double.Alike south south' →
      Alike (boxCall west south width height) (boxCall west' south' width height)

/-- The calls for a scenario and the time that is asked about, if any. -/
def callsFor (t : Tracker Quantity) (asked : Option Int) : Except Fault (List AxesCall) :=
  (Drawing.ofTracker t (asked.map .ok)).map fun strokes => strokes.map call

/-- A saved plot has the calls for its scenario. -/
theorem callsFor_of_save {saver : Saver} {f : Folder} {t : Tracker Quantity} {name : Option Text} {asked : Option Int} {plot : Plot}
    (h : (save saver f t name (asked.map .ok)).result = .ok plot) : callsFor t asked = .ok plot.calls := by
  obtain ⟨strokes, free, hdrawing, -, -, rfl, -⟩ := saved_of_save h
  rw [callsFor, hdrawing]
  rfl

/-- Colours come again after a round of the wheel. -/
theorem mark_mod (i : Nat) : Colour.mark (i % Colour.wheel.length) = Colour.mark i := by
  have htrack : Colour.track (i % Colour.wheel.length) = Colour.track i := by
    rw [Colour.track, Nat.mod_mod]
    rfl
  rw [Colour.mark, htrack]
  rfl

/-- The methods that vessels are drawn with. -/
theorem method_of_mem_vessels {extent : Option (Extent Quantity)} {asked : Option Int} {xs : List (Target Quantity)} {s : Stroke Quantity}
    (h : s ∈ Drawing.vessels extent asked xs) : (call s).method = "plot" ∨ (call s).method = "scatter" := by
  obtain ⟨e, -, hs⟩ := List.mem_flatMap.1 h
  rcases List.mem_cons.1 hs with rfl | hs
  · exact Or.inl rfl
  · obtain ⟨_, -, rfl⟩ := List.mem_map.1 hs
    exact Or.inr rfl

/-- A call that is not for a vessel is one of the surroundings. -/
theorem exists_call_iff {extent : Option (Extent Quantity)} {asked : Option Int} {xs : List (Target Quantity)} {n : Nat} {method : String}
    (hplot : method ≠ "plot") (hscatter : method ≠ "scatter") :
    (∃ c ∈ (Drawing.vessels extent asked xs ++ Drawing.surroundings extent n).map call, c.method = method) ↔
      ∃ s ∈ Drawing.surroundings extent n, (call s).method = method := by
  simp only [List.mem_map, exists_exists_and_eq_and]
  constructor
  · rintro ⟨s, hs, hmethod⟩
    refine ⟨s, (List.mem_append.1 hs).resolve_left fun hvessel => ?_, hmethod⟩
    rcases method_of_mem_vessels hvessel with hm | hm
    · exact hplot (hmethod.symm.trans hm)
    · exact hscatter (hmethod.symm.trans hm)
  · rintro ⟨s, hs, hmethod⟩
    exact ⟨s, List.mem_append_right _ hs, hmethod⟩

/-- A title and a box are drawn exactly if there is a box. -/
theorem exists_title_iff {extent : Option (Extent Quantity)} {n : Nat} {method : String} (h : method ∈ ["set_title", "add_patch"]) :
    (∃ s ∈ Drawing.surroundings extent n, (call s).method = method) ↔ extent ≠ none := by
  have hmethods : method = "set_title" ∨ method = "add_patch" := by simpa using h
  unfold Drawing.surroundings
  by_cases hn : n = 0 <;> cases extent <;> rcases hmethods with rfl | rfl <;> simp [hn, call]

/-- A legend is drawn exactly if there are targets. -/
theorem exists_legend_iff {extent : Option (Extent Quantity)} {n : Nat} :
    (∃ s ∈ Drawing.surroundings extent n, (call s).method = "legend") ↔ n ≠ 0 := by
  unfold Drawing.surroundings
  by_cases hn : n = 0 <;> cases extent <;> simp [hn, call]

/-- Boxes whose sides stand for the same numbers are drawn alike. -/
theorem alike_surroundings {e e' : Option (Extent Quantity)} (h : Option.Rel Extent.SameNumbers e e')
    (hspanned : ∀ b, e = some b → b.Spanned) (hspanned' : ∀ b, e' = some b → b.Spanned) (n : Nat) :
    List.Forall₂ Alike ((Drawing.surroundings e n).map call) ((Drawing.surroundings e' n).map call) := by
  have hsame : ∀ l : List AxesCall, List.Forall₂ Alike l l := fun l => List.forall₂_same.2 fun c _ => .same c
  cases h with
  | none => exact hsame _
  | @some b b' hb =>
    obtain ⟨hs, hlat, hlon⟩ := hspanned b rfl
    obtain ⟨hs', hlat', hlon'⟩ := hspanned' b' rfl
    refine .cons (.title n ?_ ?_) (.cons ?_ (hsame _))
    · exact hb.latMin.middle_alike hb.latMax hs.latMin hs'.latMin hs.latMax hs'.latMax
    · exact hb.lonMin.middle_alike hb.lonMax hs.lonMin hs'.lonMin hs.lonMax hs'.lonMax
    · have hwidth := hlon.width_eq hlon' hb.lonMin hb.lonMax hs.lonMin hs'.lonMin hs.lonMax hs'.lonMax
      have hheight := hlat.width_eq hlat' hb.latMin hb.latMax hs.latMin hs'.latMin hs.latMax hs'.latMax
      have hcall : call (.extent b') =
          boxCall b'.lonMin.nearest b'.latMin.nearest (b.lonMax.sub b.lonMin).nearest (b.latMax.sub b.latMin).nearest := by
        rw [hwidth, hheight]
        rfl
      rw [hcall]
      exact .box _ _ (hb.lonMin.nearest_alike hs.lonMin hs'.lonMin) (hb.latMin.nearest_alike hs.latMin hs'.latMin)

/-- The calls that portray a scenario: those of the targets with a sample by ascending MMSI, each with its track, which its name is put
to, and right behind it its mark, and of what surrounds them. A target is marked exactly if it has a sample at the time that is asked
about or before. There is a legend exactly if a target has a sample. A plot that is saved has these calls. -/
structure Portrays (t : Tracker Quantity) (asked : Option Int) (calls : List AxesCall) : Prop where
  drawn : callsFor t asked = .ok calls
  named : ∀ x ∈ t.positioned, x.name = .ok (Drawing.caption x)
  strokes : calls = (Drawing.vessels t.extent asked t.positioned ++ Drawing.surroundings t.extent t.positioned.length).map call
  marked : ∀ x ∈ t.positioned,
    ((Drawing.shown asked x).isSome ↔ ∃ time, asked = some time ∧ ∃ s ∈ x.timeline.samples, s.timestamp ≤ time)
  legend : (∃ c ∈ calls, c.method = "legend") ↔ ∃ x ∈ t.targets, x.timeline.samples ≠ []
  saved : ∀ saver f name plot, (save saver f t name (asked.map .ok)).result = .ok plot → plot.calls = calls

/-- A scenario whose targets can be drawn is portrayed. -/
theorem portrays_of_drawable {t : Tracker Quantity} {asked : Option Int} (h : ∀ x ∈ t.positioned, Drawing.Drawable asked x) :
    Portrays t asked ((Drawing.vessels t.extent asked t.positioned ++
      Drawing.surroundings t.extent t.positioned.length).map call) := by
  have hdrawn : callsFor t asked =
      .ok ((Drawing.vessels t.extent asked t.positioned ++ Drawing.surroundings t.extent t.positioned.length).map call) := by
    rw [callsFor, Drawing.ofTracker_eq h]
    rfl
  refine ⟨hdrawn, fun x hx => ?_, rfl, fun x hx => Drawing.isSome_shown_iff (h x hx), ?_, fun saver f name plot hplot => ?_⟩
  · obtain ⟨name, hname⟩ := (h x hx).named
    rw [Drawing.caption, hname]
    rfl
  · rw [exists_call_iff (by decide) (by decide), exists_legend_iff, Ne, List.length_eq_zero_iff]
    constructor
    · intro hne
      obtain ⟨x, hx⟩ := List.exists_mem_of_ne_nil _ hne
      exact ⟨x, mem_positioned_iff.1 hx⟩
    · rintro ⟨x, hx⟩
      exact List.ne_nil_of_mem (mem_positioned_iff.2 hx)
  · exact Except.ok.inj ((callsFor_of_save hplot).symm.trans hdrawn)

/-- Scenarios of the same targets, apart from their labels, are portrayed alike if the sides of their extents stand for the same
numbers. -/
theorem alike_of_portrays {t u : Tracker Quantity} {asked : Option Int} {calls calls' : List AxesCall} (h : Portrays t asked calls)
    (h' : Portrays u asked calls') (hpositioned : t.positioned.map Target.unlabelled = u.positioned.map Target.unlabelled)
    (hextent : Option.Rel Extent.SameNumbers t.extent u.extent) (hspanned : ∀ e, t.extent = some e → e.Spanned)
    (hspanned' : ∀ e, u.extent = some e → e.Spanned) : List.Forall₂ Alike calls calls' := by
  have hlength := congrArg List.length hpositioned
  rw [List.length_map, List.length_map] at hlength
  rw [h.strokes, h'.strokes, List.map_append, List.map_append, ← Drawing.vessels_map_unlabelled, hpositioned,
    Drawing.vessels_map_unlabelled, Drawing.vessels_congr hextent, hlength]
  exact List.rel_append (List.forall₂_same.2 fun c _ => .same c) (alike_surroundings hextent hspanned hspanned' _)

/-- The plot of a scenario is determined by what is in it. After any operations, and for any time that is asked about, if the targets with
a sample can be drawn with it, their names and all numbers on the way (`Drawing.Drawable`): the targets with a sample all have MMSIs, no
two the same, so they are drawn in strictly ascending order. Each of them has one track, the tracks taking the colours of the wheel in
turn, and right behind it one mark if it has a sample at that time or before, and none otherwise; other targets are not drawn
(`Portrays`). There is a title and a box exactly if a valid position ever arrived, and a legend exactly if a target has a sample. The
calls do not depend on the order in which the targets are taken. Nor do they depend on how the vessels were interleaved, up to the sign of
a zero in the corner of the box or in the title. -/
theorem portrays_run (keep : Retention Quantity) (operations : List (Operation Quantity)) (asked : Option Int)
    (h : ∀ x ∈ ((fresh keep).run operations).positioned, Drawing.Drawable asked x) :
    let t := (fresh keep).run operations
    let as := (fresh keep).arrivals operations
    (∀ x ∈ t.located, ∃ m, x.mmsi = some m) ∧ (t.located.map Target.mmsi).Nodup ∧ t.positioned.Pairwise Target.Before ∧
      (∀ x, x ∈ t.positioned ↔ x ∈ t.targets ∧ x.timeline.samples ≠ []) ∧
      (∀ i, Colour.track i = Colour.wheel.getD (i % Colour.wheel.length) "" ∧
        Colour.mark i = Colour.mark (i % Colour.wheel.length)) ∧
      ∃ calls, Portrays t asked calls ∧
        (∀ method ∈ ["set_title", "add_patch"], (∃ c ∈ calls, c.method = method) ↔ Arrival.reports as ≠ []) ∧
        (∀ u : Tracker Quantity, u.extent = t.extent → u.targets.Perm t.targets → Portrays u asked calls) ∧
        ∀ others : List (Operation Quantity),
          (∀ mmsi, Arrival.sentBy mmsi as = Arrival.sentBy mmsi ((fresh keep).arrivals others)) →
          ∃ calls', Portrays ((fresh keep).run others) asked calls' ∧ List.Forall₂ Alike calls calls' := by
  intro t as
  refine ⟨fun _ => exists_mmsi_of_mem_located keep operations, nodup_mmsi_located keep operations, positioned_ascending keep operations,
    fun _ => mem_positioned_iff, fun i => ⟨rfl, (mark_mod i).symm⟩, _, portrays_of_drawable h, ?_, ?_, ?_⟩
  · intro method hmethod
    have hother : method ≠ "plot" ∧ method ≠ "scatter" := by
      rcases List.mem_pair.1 hmethod with rfl | rfl <;> decide
    rw [exists_call_iff hother.1 hother.2, exists_title_iff hmethod]
    exact extent_eq_none_iff.not
  · intro u hextent hperm
    have hpositioned : u.positioned = t.positioned := positioned_eq_of_perm keep operations hperm
    rw [← hpositioned, ← hextent]
    exact portrays_of_drawable (hpositioned ▸ h)
  · intro others hsame
    have hpositioned := unlabelled_positioned_eq keep operations others hsame
    have hdrawable : ∀ x ∈ ((fresh keep).run others).positioned, Drawing.Drawable asked x := by
      have hall := List.forall_mem_map.2 fun x hx => Drawing.drawable_unlabelled_iff.2 (h x hx)
      rw [hpositioned] at hall
      exact fun x hx => Drawing.drawable_unlabelled_iff.1 (List.forall_mem_map.1 hall x hx)
    exact ⟨_, portrays_of_drawable hdrawable, alike_of_portrays (portrays_of_drawable h) (portrays_of_drawable hdrawable)
      hpositioned (sameNumbers_run hsame) spanned_run spanned_run⟩

/-- Two vessels, of which only the first one has reported by the time that is asked about, come one after the other or the other way
round. Their longitudes are the two zeros. -/
theorem portrays_run_two_vessels :
    let first : Operation Quantity := .ingest (.message (.position ⟨1, 1000, ⟨.whole 10, .real (-0.0)⟩, 0, 1023, 511, true, 1⟩))
    let second : Operation Quantity := .ingest (.message (.position ⟨2, 2000, ⟨.whole 11, .real 0.0⟩, 0, 1023, 511, true, 1⟩))
    let t := (fresh Retention.keepAll).run [first, second]
    (∀ x ∈ t.positioned, Drawing.Drawable (some 1000) x) ∧
      ∃ calls, calls.map AxesCall.method =
          ["plot", "scatter", "plot", "set_title", "add_patch", "set_xlabel", "set_ylabel", "legend"] ∧ Portrays t (some 1000) calls ∧
        ∃ calls', Portrays ((fresh Retention.keepAll).run [second, first]) (some 1000) calls' ∧ List.Forall₂ Alike calls calls' := by
  intro first second t
  have hpositioned : t.positioned = t.located := List.mergeSort_of_pairwise (by decide +kernel)
  have hqueries : ∀ x ∈ t.located, x.timeline.query 1000 = .error (.noPriorSample 1000) ∨
      (x.timeline.query 1000).toOption.isSome = true := by decide +kernel
  have hnames : ∀ x ∈ t.located, x.name.isOk = true := by decide +kernel
  have hdrawable : ∀ x ∈ t.positioned, Drawing.Drawable (some 1000) x := by
    refine fun x hx => ⟨isOk_iff.1 (hnames x (hpositioned ▸ hx)), ?_⟩
    rintro time ⟨⟩ e he
    rcases hqueries x (hpositioned ▸ hx) with hq | hq
    · rw [hq] at he
      cases he
    · rw [he] at hq
      cases hq
  have hsame : ∀ mmsi, Arrival.sentBy mmsi ((fresh Retention.keepAll).arrivals [first, second]) =
      Arrival.sentBy mmsi ((fresh Retention.keepAll).arrivals [second, first]) :=
    sentBy_swap _ _ (by decide +kernel) (by decide +kernel) (by decide)
  obtain ⟨-, -, -, -, -, calls, hportrays, -, -, hothers⟩ := portrays_run Retention.keepAll [first, second] (some 1000) hdrawable
  refine ⟨hdrawable, calls, ?_, hportrays, hothers [second, first] hsame⟩
  have hmethods : (callsFor t (some 1000)).map (List.map AxesCall.method) =
      .ok ["plot", "scatter", "plot", "set_title", "add_patch", "set_xlabel", "set_ylabel", "legend"] := by
    rw [callsFor, Drawing.ofTracker, hpositioned]
    decide +kernel
  rw [hportrays.drawn] at hmethods
  exact Except.ok.inj hmethods

/-- A report of a vessel without motion. -/
def sighting (mmsi time : Int) (course : Int) : Operation Quantity :=
  .ingest (.message (.position ⟨mmsi, time, ⟨.whole 10, .whole 20⟩, course, 1023, 511, true, 1⟩))

/-- It is not enough that no motion and no reckoning is out of range. Between times that are too far apart nothing can be interpolated,
and a time before the first sample and an MMSI without a name cannot always be written; then nothing is drawn. And for a title it is
enough that a valid position arrived, even if its report could not be applied. -/
theorem callsFor_far_apart :
    let t := (fresh Retention.keepAll).run [sighting 1 0 0, sighting 1 (pow10 400) 0]
    let nameless := (fresh Retention.keepAll).run [.getOrCreate (pow10 4300), sighting (pow10 4300) 0 0]
    let refused := sighting 1 0 (pow10 400)
    ((∀ x ∈ t.positioned, ∀ s ∈ x.timeline.samples, ∃ moves, Navigation.hasMotion s.sog s.cog = .ok moves ∧
        (moves = true → ∃ p, Navigation.reckon s.position s.cog s.sog (1 - s.timestamp) = .ok p)) ∧
      (∃ x ∈ t.positioned, ∃ s ∈ x.timeline.samples, s.timestamp ≤ 1) ∧ ¬∃ calls, callsFor t (some 1) = .ok calls) ∧
      (¬∃ calls, callsFor t (some (-pow10 4300)) = .ok calls) ∧
      (nameless.located ≠ [] ∧ ¬∃ calls, callsFor nameless none = .ok calls) ∧
        (∃ e, refused.fault? (fresh Retention.keepAll) = some e) ∧
          ∃ calls, callsFor ((fresh Retention.keepAll).run [refused]) none = .ok calls ∧ ∃ c ∈ calls, c.method = "set_title" := by
  intro t nameless refused
  have hstill : ∀ x ∈ t.positioned, ∀ s ∈ x.timeline.samples, Navigation.hasMotion s.sog s.cog = .ok false := by decide +kernel
  have hfault : ∀ {u : Tracker Quantity} {asked e}, Drawing.ofTracker u (asked.map .ok) = .error e →
      ¬∃ calls, callsFor u asked = .ok calls := by
    rintro u asked e he ⟨calls, hcalls⟩
    rw [callsFor, he] at hcalls
    cases hcalls
  have hpositioned : ∀ x ∈ ((fresh Retention.keepAll).run [refused]).positioned, Drawing.Drawable none x := by
    have hnone : ((fresh Retention.keepAll).run [refused]).positioned = [] := by decide +kernel
    rw [hnone]
    exact nofun
  refine ⟨⟨fun x hx s hs => ⟨false, hstill x hx s hs, nofun⟩, by decide +kernel, ?_⟩, ?_, ⟨by decide +kernel, ?_⟩,
    ⟨.number .integerTooLarge, by decide +kernel⟩, _, (portrays_of_drawable hpositioned).drawn, ?_⟩
  · exact hfault (e := .query (.number .integerTooLarge)) (by decide +kernel)
  · exact hfault (e := .query (.number .tooLongToWrite)) (by decide +kernel)
  · exact hfault (e := .number .tooLongToWrite) (by decide +kernel)
  · rw [exists_call_iff (by decide) (by decide), exists_title_iff (by decide)]
    decide +kernel

end Plot
end VesselTraffic
