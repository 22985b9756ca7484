import Inlay.Path

/-!
# Files

A working folder with files and folders below it. Reading follows a path step by step, as an
operating system does: every step but the last must be a folder, `.` and `..` are steps too, and
nothing but folders lies outside of the working folder.

* `Files.read` reads a file as text, or says why it cannot.
* `Files.write`, `Files.makeFolder`, `Files.remove` change the files.
-/

namespace Inlay

/-- **Why a file cannot be read.** -/
inductive ReadError where
  | missing | notFolder | isFolder | nameTooLong | notUnicode | nulInName
deriving DecidableEq, Repr

/-- The wording of a read error. -/
def ReadError.message : ReadError → String
  | missing => "No such file or directory (os error 2)"
  | notFolder => "Not a directory (os error 20)"
  | isFolder => "Is a directory (os error 21)"
  | nameTooLong => "File name too long (os error 36)"
  | notUnicode => "stream did not contain valid UTF-8"
  | nulInName => "file name contained an unexpected NUL byte"

/-- What a path can name. -/
inductive Item where
  | file (content : ByteArray)
  | folder

/-- **Files and folders** below the working folder, each with the steps that lead to it. -/
structure Files where
  items : List (List (List Char) × Item) := []

namespace Files

/-- No files. -/
def empty : Files := ⟨[]⟩

/-- The item that the steps lead to; no steps lead to the working folder. -/
def find? (files : Files) (steps : List (List Char)) : Option Item :=
  if steps.isEmpty then some .folder
  else (files.items.find? fun item => item.1 == steps).map Prod.snd

/-! ## Changing files -/

/-- Puts an item in place of what the steps led to before. -/
def put (files : Files) (steps : List (List Char)) (item : Item) : Files :=
  ⟨(steps, item) :: files.items.filter fun old => old.1 != steps⟩

/-- The steps of a path below the working folder. -/
def stepsOf (path : String) : List (List Char) :=
  (Path.segments path.toList).filter fun segment => !Path.isIdle segment

/-- All proper beginnings of a list of steps, the empty one left out. -/
def ancestors (steps : List (List Char)) : List (List (List Char)) :=
  (List.range steps.length).filterMap fun k => if k = 0 then none else some (steps.take k)

/-- Makes the folders on the way to the steps, where there are none. -/
def makeAncestors (files : Files) (steps : List (List Char)) : Files :=
  (ancestors steps).foldl
    (fun files steps =>
      match files.find? steps with
      | some _ => files
      | none => files.put steps .folder)
    files

/-- **Writes a file**, making the folders on the way. -/
def write (files : Files) (path : String) (content : ByteArray) : Files :=
  (files.makeAncestors (stepsOf path)).put (stepsOf path) (.file content)

/-- **Makes a folder**, with the folders on the way. -/
def makeFolder (files : Files) (path : String) : Files :=
  match files.find? (stepsOf path) with
  | some _ => files
  | none => (files.makeAncestors (stepsOf path)).put (stepsOf path) .folder

/-- **Removes a file.** -/
def remove (files : Files) (path : String) : Files :=
  ⟨files.items.filter fun old => old.1 != stepsOf path⟩

/-! ## Reading -/

/-- A place on the way along a path: below the working folder, by the steps to it in reverse, or
    outside. -/
inductive Place where
  | inside (back : List (List Char))
  | outside
deriving DecidableEq, Repr

/-- What is at a place. Outside there are only folders. -/
def itemAt? (files : Files) : Place → Option Item
  | .inside back => files.find? back.reverse
  | .outside => some .folder

/-- **One step.** It starts in a folder; idle segments stay there, two dots go back, and a name
    has to exist there and be at most 255 bytes long. -/
def step (files : Files) (place : Place) (segment : List Char) : Except ReadError Place :=
  match files.itemAt? place with
  | none => .error .missing
  | some (.file _) => .error .notFolder
  | some .folder =>
    if Path.isIdle segment then .ok place
    else if segment = ['.', '.'] then
      match place with
      | .inside (_ :: back) => .ok (.inside back)
      | .inside [] | .outside => .ok .outside
    else if 255 < Text.byteLength segment then .error .nameTooLong
    else
      match place with
      | .outside => .error .missing
      | .inside back =>
        match files.itemAt? (.inside (segment :: back)) with
        | some _ => .ok (.inside (segment :: back))
        | none => .error .missing

/-- The longest path that can be followed, in bytes. -/
def maxPath : Nat := 4095

/-- **Follows a path** to an item. -/
def follow (files : Files) (path : List Char) : Except ReadError Item :=
  if path.contains '\x00' then .error .nulInName
  else if path.isEmpty then .error .missing
  else if maxPath < Text.byteLength path then .error .nameTooLong
  else do
    let start := if path.head? = some '/' then Place.outside else Place.inside []
    let place ← (Path.segments path).foldlM files.step start
    match files.itemAt? place with
    | some item => .ok item
    | none => .error .missing

/-- **Reads a file as text.** -/
def read (files : Files) (path : String) : Except ReadError String := do
  match ← files.follow path.toList with
  | .folder => .error .isFolder
  | .file content =>
    match String.fromUTF8? content with
    | some text => .ok text
    | none => .error .notUnicode

end Files

end Inlay
