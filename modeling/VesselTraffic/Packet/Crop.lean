import VesselTraffic.Text.Basic

/-!
# Cropping lines to their sentences

A line is cropped to the piece from its start mark to the second character behind the next star. The start mark is the first
exclamation mark or, in a line without one, the first dollar sign. A line without a start mark, without a star behind it or with
fewer than two characters behind that star gives nothing; on request neither does one whose dollar sign starts a proprietary
sentence, which is to say is followed by a P.
-/

namespace VesselTraffic.Sentence

/-- The line from its start mark on; nothing if it has none or starts a proprietary sentence that is to be left out. -/
def fromMark (dropProprietary : Bool) (line : Text) : Text :=
  match Text.fromFirst '!' line with
  | [] =>
    match Text.fromFirst '$' line with
    | '$' :: 'P' :: rest => if dropProprietary then [] else '$' :: 'P' :: rest
    | t => t
  | t => t

/-- What a line is cropped to. -/
def cropLine (dropProprietary : Bool) (line : Text) : Option Text :=
  match Text.cutFirst '*' (fromMark dropProprietary line) with
  | some (head, x :: y :: _) => some (head ++ ['*', x, y])
  | _ => none

/-- What lines are cropped to, in order. -/
def crop (dropProprietary : Bool) (lines : List Text) : List Text := lines.filterMap (cropLine dropProprietary)

/-- The line break that is written. -/
def lineBreak : Text := ['\r', '\n']

/-- Lines joined by line breaks. -/
def join (lines : List Text) : Text := lineBreak.intercalate lines

end VesselTraffic.Sentence
