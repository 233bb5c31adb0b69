import VesselTraffic.Chart.Colour
import VesselTraffic.Chart.Drawing
import VesselTraffic.Chart.Folder
import VesselTraffic.Geo.Sphere

/-!
# Plots

A plot is a drawing on the sphere, turned into calls on a pair of axes with all their arguments, and saved under a name that is
free. How a figure is saved, and under which files, is up to the library that draws it; it is told the name.
-/

namespace VesselTraffic

/-- An argument of a call. -/
inductive Argument where
  | number (x : Float)
  | whole (n : Int)
  | text (t : Text)
  | flag (b : Bool)
  | list (items : List Argument)

/-- A call on a pair of axes. -/
structure AxesCall where
  method : String
  positional : List Argument
  named : List (String × Argument)

/-- A saved plot. -/
structure Plot where
  path : Text
  calls : List AxesCall

namespace Plot

/-- A text argument. -/
def text (s : String) : Argument := .text s.toList

/-- A colour as an argument. -/
def colour (c : Colour) : Argument := .list [.number c.red, .number c.green, .number c.blue]

/-- The title of a plot. -/
def title (targets : Nat) (e : Extent Quantity) : Text :=
  let c := Sphere.center e
  Text.ofNat targets ++ " targets around ".toList ++ Double.fixed 4 c.lat ++ "N ".toList ++ Double.fixed 4 c.lon ++ ['E']

/-- The call of a stroke. -/
def call : Stroke Quantity → AxesCall
  | .track place points label =>
    ⟨"plot", [.list (points.map fun p => .number p.lon.nearest), .list (points.map fun p => .number p.lat.nearest)],
      [("color", text (Colour.track place)), ("linewidth", .whole 1), ("marker", text "."), ("label", .text label)]⟩
  | .mark place point outside =>
    ⟨"scatter", [.number point.lon.nearest, .number point.lat.nearest],
      [("color", colour (Colour.mark place)), ("s", .whole 40), ("zorder", .whole 3),
        ("marker", text (if outside then "x" else "o"))]⟩
  | .title targets e => ⟨"set_title", [.text (title targets e)], []⟩
  | .extent e =>
    ⟨"add_patch", [.list [.list [.number e.lonMin.nearest, .number e.latMin.nearest], .number (e.lonMax.sub e.lonMin).nearest,
      .number (e.latMax.sub e.latMin).nearest, text "--", text "#999999", .flag false]], []⟩
  | .xAxis => ⟨"set_xlabel", [text "Longitude"], []⟩
  | .yAxis => ⟨"set_ylabel", [text "Latitude"], []⟩
  | .legend => ⟨"legend", [], [("loc", text "upper right"), ("fontsize", text "small")]⟩

/-- The name of a plot that is not given one. -/
def defaultName : Text := "scenario.png".toList

/-- The name that is wanted for a plot. -/
def wantedName (name : Option Text) : Text :=
  match name with
  | none => defaultName
  | some n => if n = [] then defaultName else n

/-- How figures are saved: the folder after a figure was saved under a name, and the fault if there was one. -/
abbrev Saver : Type := Folder → List AxesCall → Text → Outcome Folder Unit

/-- Saving a figure as one file under the name that it is told. -/
def Saver.oneFile : Saver := fun f _ name =>
  match f.makeFile name with
  | .ok f' => ⟨f', .ok (), []⟩
  | .error e => ⟨f, .error (.folder e), []⟩

/-- A scenario drawn and saved. A drawing that cannot be made and a name that cannot be looked up leave the folder as it is. -/
def save (saver : Saver) (f : Folder) (t : Tracker Quantity) (name : Option Text) (moment : Option Drawing.Moment) :
    Outcome Folder Plot :=
  match Drawing.ofTracker t moment with
  | .error e => ⟨f, .error e, []⟩
  | .ok strokes =>
    match f.freeName (Folder.plain (wantedName name)) with
    | .error e => ⟨f, .error (.folder e), []⟩
    | .ok free =>
      let calls := strokes.map call
      let o := saver f calls free
      match o.result with
      | .error e => ⟨o.state, .error e, o.journal⟩
      | .ok () =>
        ⟨o.state, .ok ⟨Folder.path free, calls⟩,
          o.journal ++ [⟨.info, "Scenario plot saved to ".toList ++ Folder.path free⟩]⟩

end Plot
end VesselTraffic
