import VesselTraffic.Fault.Category
import VesselTraffic.Text.Quoted

/-!
# Names of plots

Plots are saved in one folder under names that are free. A name that is taken gets the first free number between its stem and its
suffix, which is the end of its last part from the last point on, unless that point is its first or its last character.

Slashes part a name; parts that are empty or a single point say nothing. A name without parts, or with nothing but double points,
is that of a folder, which is there already. Names that begin with a slash lie outside of the folder of plots. A part has at most
255 bytes, and a longer one cannot even be looked up. There are no folders in the folder of plots, so a file with more parts than one
cannot be made there.
-/

namespace VesselTraffic

/-- Why a name could not be looked up or a file not be made under it. -/
inductive FolderFault where
  | nameTooLong (path : Text)
  | noFolder (path : Text)
  | notAFolder (path : Text)
  | nulInName
deriving DecidableEq, Repr

namespace FolderFault

/-- The category of a fault of a folder. -/
def category : FolderFault → Category
  | nameTooLong _ => .system
  | noFolder _ => .noFolder
  | notAFolder _ => .notAFolder
  | nulInName => .badValue

/-- The wording of a fault of a folder. -/
def message : FolderFault → Text
  | nameTooLong p => "[Errno 36] File name too long: ".toList ++ p.quoted
  | noFolder p => "[Errno 2] No such file or directory: ".toList ++ p.quoted
  | notAFolder p => "[Errno 20] Not a directory: ".toList ++ p.quoted
  | nulInName => "embedded null byte".toList

end FolderFault

/-- The names in the plot folder, the latest first. -/
structure Folder where
  names : List Text
deriving DecidableEq, Repr

namespace Folder

/-- The folder without a plot. -/
def empty : Folder := ⟨[]⟩

/-- The parts of a name that say something. -/
def parts (name : Text) : List Text := (name.splitOn '/').filter fun part => part ≠ [] ∧ part ≠ ['.']

/-- A name that lies outside of the folder of plots. -/
def isRooted (name : Text) : Bool := name.head? = some '/'

/-- A name in its shortest form. -/
def plain (name : Text) : Text := (if isRooted name then ['/'] else []) ++ ['/'].intercalate (parts name)

/-- The part that leads to the folder above. -/
def above : Text := ['.', '.']

/-- A name in its shortest form that is taken. -/
def has (f : Folder) (name : Text) : Bool := (parts name).all (· = above) || f.names.contains name

/-- The stem and the suffix of the last part of a name. -/
def stemAndSuffix (name : Text) : Text × Text :=
  let last := (parts name).getLast?.getD []
  match Text.cutLast '.' last with
  | some (stem, suffix) => if stem = [] ∨ suffix = [] then (last, []) else (stem, '.' :: suffix)
  | none => (last, [])

/-- A name with a number between its stem and its suffix. -/
def numbered (name : Text) (i : Nat) : Text := (stemAndSuffix name).1 ++ '_' :: Text.ofNat i ++ (stemAndSuffix name).2

/-- The name of the folder of plots. -/
def folderName : Text := "plots".toList

/-- The path of a name in its shortest form. -/
def path (name : Text) : Text := if isRooted name then name else folderName ++ '/' :: name

/-- The most bytes of a part. -/
def byteLimit : Nat := 255

/-- The number of bytes of a text. -/
def byteCount (t : Text) : Nat := t.foldl (fun n c => n + c.utf8Size) 0

/-- The first part of a name that is looked up in a folder which is there. -/
def firstPart? (name : Text) : Option Text := (parts name).find? fun part => part ≠ above

/-- A name that cannot be looked up. With a null character it is not looked up at all. -/
def isTooLong (name : Text) : Bool := !name.contains '\x00' && (firstPart? name).any fun part => byteLimit < byteCount part

/-- Whether a name in its shortest form is taken, if it can be looked up. -/
def probe (f : Folder) (name : Text) : Except FolderFault Bool :=
  if isTooLong name then .error (.nameTooLong (path name)) else .ok (f.has name)

/-- The first number from `i` on whose name is free, among `tries` of them. -/
def freeNumber (f : Folder) (name : Text) : (tries i : Nat) → Except FolderFault Nat
  | 0, i => .ok i
  | tries + 1, i =>
    (f.probe (numbered name i)).bind fun taken => if taken then freeNumber f name tries (i + 1) else .ok i

/-- The name to save a plot under: the wanted one, or the first free numbered one. As many numbers as there are names, and one
more, are enough to find it. -/
def freeName (f : Folder) (wanted : Text) : Except FolderFault Text :=
  (f.probe wanted).bind fun taken =>
    if taken then (f.freeNumber wanted (f.names.length + 1) 1).map (numbered wanted) else .ok wanted

/-- The folder with a file made under a name, if that can be done. -/
def makeFile (f : Folder) (name : Text) : Except FolderFault Folder :=
  if name.contains '\x00' then .error .nulInName
  else if isTooLong name then .error (.nameTooLong (path name))
  else
    match parts name with
    | first :: _ :: _ =>
      if first = above ∨ isRooted name then .ok ⟨name :: f.names⟩
      else .error (if f.names.contains first then .notAFolder (path name) else .noFolder (path name))
    | _ => .ok ⟨name :: f.names⟩

end Folder
end VesselTraffic
