import Inlay.Text.Bytes

/-!
# Where a module name points

A module is named by a path, possibly with a **loader tag** `!json` at its end. The tag is dropped,
and what is left is taken relative to the folder of the file that names the module. Paths are plain
texts: nothing is normalised, so `..` and doubled slashes stay as they are written.

* `stripTag` drops one tag, in any letter case.
* `parent?` is the path of the folder that holds a path.
* `resolve` puts the two together.
-/

namespace Inlay.Path

/-! ## Loader tag -/

/-- The loader tag. -/
def tag : List Char := ['!', 'j', 's', 'o', 'n']

/-- **Drops a loader tag**: the last five bytes, if they are whole characters and spell the tag in
    any ASCII letter case. Only one tag is dropped. -/
def stripTag (module : List Char) : List Char :=
  let size := Text.byteLength module
  if size < 5 then module
  else
    match Text.splitAtByte? (size - 5) module with
    | some (front, back) => if back.map Char.toLower = tag then front else module
    | none => module

/-! ## Folders -/

/-- The parts of a path between slashes. There is always at least one. -/
def segments : List Char → List (List Char)
  | [] => [[]]
  | c :: rest =>
    if c = '/' then [] :: segments rest
    else
      match segments rest with
      | [] => [[c]]
      | first :: others => (c :: first) :: others

/-- Joins segments by slashes again. -/
def ofSegments (parts : List (List Char)) : List Char := List.intercalate ['/'] parts

/-- Empty segments and single dots name no step. -/
def isIdle (segment : List Char) : Bool := segment == [] || segment == ['.']

/-- Drops idle segments from the end. -/
def dropIdle (parts : List (List Char)) : List (List Char) :=
  (parts.reverse.dropWhile isIdle).reverse

/-- What stands before the steps of a path. -/
inductive Start where
  | root | here | bare
deriving DecidableEq, Repr

/-- **Start and steps** of a path: it starts at the root, at a leading single dot, or bare. -/
def split : List Char → Start × List Char
  | '/' :: rest => (.root, rest)
  | ['.'] => (.here, [])
  | '.' :: '/' :: rest => (.here, '/' :: rest)
  | path => (.bare, path)

/-- The text of a start. -/
def Start.text : Start → List Char
  | root => ['/']
  | here => ['.']
  | bare => []

/-- **The folder that holds a path**, without its last step. Idle segments around that step do not
    count. The root has no parent, nor has the empty path; the parent of the bare dot is empty. -/
def parent? (path : List Char) : Option (List Char) :=
  let (start, steps) := split path
  match (dropIdle (segments steps)).reverse with
  | [] =>
    match start with
    | .here => some []
    | .root | .bare => none
  | _ :: before => some (start.text ++ ofSegments (dropIdle before.reverse))

/-- **A path seen from a folder**: an absolute one replaces it, and an empty folder adds nothing.
    Otherwise a slash divides the two, unless the folder ends in one. -/
def join (folder path : List Char) : List Char :=
  if path.head? = some '/' || folder.isEmpty then path
  else if folder.getLast? = some '/' then folder ++ path
  else folder ++ '/' :: path

/-! ## Resolution -/

/-- **The path of a module** named in `file`. When the file is not known, or has no parent, the
    name without its tag is the path. -/
def resolve (module : String) (file : Option String) : String :=
  let name := stripTag module.toList
  String.ofList <|
    match file.bind fun f => parent? f.toList with
    | some folder => join folder name
    | none => name

end Inlay.Path
