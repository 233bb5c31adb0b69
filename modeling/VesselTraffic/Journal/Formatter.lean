import VesselTraffic.Journal.Entry
import VesselTraffic.Journal.Style
import VesselTraffic.Journal.Template
import VesselTraffic.Text.Blank
import VesselTraffic.Text.UpperCase

/-!
# Formatting log records

Four levels have a layout of their own: the name of the level in brackets and in colour, a dash, and the filled-in message. A
record of any other level is written in the layout that is installed, at first its rank and its message as it stands. A formatter
installs the layout of a level while it writes a record of that level, and takes it out again when it is done. A record that
cannot be filled in leaves its layout installed. A rank without a name that has too many digits cannot be written in either layout.
-/

namespace VesselTraffic

/-- A log record: its rank, its message and the values that fill it in. -/
structure LogRecord where
  rank : Int
  message : Text
  arguments : List Cell

/-- How a record is laid out. -/
inductive RecordLayout where
  | plain
  | coloured (colour : TerminalColour) (bold : Bool)
deriving DecidableEq, Repr

namespace RecordLayout

/-- The layout of a rank that has one. -/
def ofRank? (rank : Int) : Option RecordLayout :=
  if rank = Level.debug.rank then some (coloured .gray false)
  else if rank = Level.info.rank then some (coloured .green false)
  else if rank = Level.warning.rank then some (coloured .yellow false)
  else if rank = Level.error.rank then some (coloured .crimson true)
  else none

end RecordLayout

namespace Level

/-- The names that a rank may be given by. -/
def ranks : List (Text × Int) :=
  [("CRITICAL".toList, 50), ("FATAL".toList, 50), ("ERROR".toList, 40), ("WARN".toList, 30), ("WARNING".toList, 30),
    ("INFO".toList, 20), ("DEBUG".toList, 10), ("NOTSET".toList, 0)]

/-- The rank with a name in any case and with blanks around it, or the default. -/
def rankOfName (default : Int) (name : Text) : Int := (ranks.lookup (Text.upper name.trim)).getD default

/-- The name of a rank. One without a name of its own is named by its number. -/
def nameOfRank (rank : Int) : Except NumberFault Text :=
  if rank = 0 then .ok "NOTSET".toList
  else
    match [debug, info, warning, error, critical].find? fun l => l.rank = rank with
    | some l => .ok l.name
    | none => (Number.writeInteger rank).map fun shown => "Level ".toList ++ shown

end Level

namespace LogRecord

/-- The message filled in; without values it is taken as it stands. -/
def filled (r : LogRecord) : Except TemplateFault (List CodePoint) :=
  if r.arguments.isEmpty then .ok r.message.codePoints else Template.format r.message r.arguments

/-- A record in a layout, given its filled-in message. -/
def layOut (r : LogRecord) (filled : List CodePoint) : RecordLayout → Except NumberFault (List CodePoint)
  | .plain => (Number.writeInteger r.rank).map fun rank => Text.codePoints (rank ++ ':' :: ' ' :: r.message)
  | .coloured colour bold =>
    (Level.nameOfRank r.rank).map fun name =>
      Text.codePoints (colour.paint bold false ('[' :: name ++ [']']) ++ [' ', '-', ' ']) ++ filled

end LogRecord

/-- A formatter with the layout that is installed. -/
structure Formatter where
  installed : RecordLayout
deriving DecidableEq, Repr

namespace Formatter

/-- The formatter that has written nothing. -/
def fresh : Formatter := ⟨.plain⟩

/-- The layout that a record is written in. -/
def layoutFor (f : Formatter) (r : LogRecord) : RecordLayout := (RecordLayout.ofRank? r.rank).getD f.installed

/-- A record written, and the formatter after it. -/
def format (f : Formatter) (r : LogRecord) : Formatter × Except TemplateFault (List CodePoint) :=
  match r.filled.bind fun filled => (r.layOut filled (f.layoutFor r)).mapError .number with
  | .ok written => (f, .ok written)
  | .error e => (⟨f.layoutFor r⟩, .error e)

/-- Records written one after the other. -/
def formatAll (f : Formatter) : List LogRecord → List (Except TemplateFault (List CodePoint))
  | [] => []
  | r :: rest => (f.format r).2 :: (f.format r).1.formatAll rest

end Formatter
end VesselTraffic
