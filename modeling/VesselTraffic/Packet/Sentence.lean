import VesselTraffic.Text.Basic

/-!
# Encapsulated sentences

An encapsulated sentence is an exclamation mark, five upper-case letters, a comma, characters other than a star, a star and two
hexadecimal digits. A line is searched for the leftmost one. What stands between comma and star may be anything else, so the only
star that can end a sentence is the first one behind its comma: there is at most one sentence from each place.
-/

namespace VesselTraffic.Sentence

/-- The star and the two digits that end a sentence, found behind what the sentence carries. -/
def endOf (t : Text) : Option Text :=
  match Text.cutFirst '*' t with
  | some (payload, x :: y :: _) =>
    if Text.isHexDigit x && Text.isHexDigit y then some (payload ++ ['*', x, y]) else none
  | _ => none

/-- The sentence that starts a text, if one does. -/
def atStart? : Text → Option Text
  | '!' :: a :: b :: c :: d :: e :: ',' :: rest =>
    if [a, b, c, d, e].all Char.isUpper then (endOf rest).map ('!' :: a :: b :: c :: d :: e :: ',' :: ·) else none
  | _ => none

/-- The leftmost sentence of a line. -/
def find? : Text → Option Text
  | [] => none
  | c :: rest =>
    match atStart? (c :: rest) with
    | some s => some s
    | none => find? rest

end VesselTraffic.Sentence
