import PkgRecipe.Failure
import PkgRecipe.Files.Path

namespace PkgRecipe.Files

/-- The names that lead from the root to a place. -/
abbrev Location := List (List Char)

inductive Content where
  | file (bytes : List UInt8)
  | directory
deriving DecidableEq, Repr

inductive Right where
  | read
  | write
  /-- To go on from a directory to what is in it. -/
  | pass
deriving DecidableEq, Repr

structure Tree where
  /-- What stands at each location. The root itself always is there. -/
  entries : List (Location × Content) := []
  /-- The directory that relative paths start from. -/
  working : Location := []
  /-- What may not be done. -/
  forbidden : List (Location × Right) := []
deriving DecidableEq, Repr

inductive Found where
  | file (location : Location) (bytes : List UInt8)
  | directory (location : Location)
  /-- Nothing yet, in a directory. -/
  | vacant (location : Location)
  /-- Nothing, since a directory on the way is missing. -/
  | missing
  /-- Nothing, since a file is on the way. -/
  | blocked
  /-- Nothing, since a directory on the way may not be passed. -/
  | denied
  /-- Nothing, since the path or a name in it is too long. -/
  | tooLong
deriving DecidableEq, Repr

namespace Tree

def at? (tree : Tree) : Location → Option Content
  | [] => some .directory
  | location => tree.entries.lookup location

def forbids (tree : Tree) (location : Location) (right : Right) : Bool :=
  tree.forbidden.contains (location, right)

def put (tree : Tree) (location : Location) (content : Content) : Tree :=
  { tree with
    entries :=
      if tree.entries.any (·.1 = location) then
        tree.entries.map fun entry => if entry.1 = location then (location, content) else entry
      else tree.entries ++ [(location, content)] }

/-- The locations of the directories on the way to a location, the outermost first. -/
def above (location : Location) : List Location :=
  ((List.range location.length).drop 1).map location.take

def place (tree : Tree) (location : Location) (content : Content) : Tree :=
  ((above location).foldl (fun tree parent => tree.put parent .directory) tree).put location content

def foundAt (tree : Tree) (here : Location) : Found :=
  let location := here.reverse
  match tree.at? location with
  | some (.file bytes) => .file location bytes
  | some .directory => .directory location
  | none => .vacant location

/-- Follows the parts of a path from a location, which is given with the last name first. Double dots
lead up, but not from the root. -/
def follow (tree : Tree) (here : Location) : List (List Char) → Found
  | [] => tree.foundAt here
  | part :: rest =>
      match tree.foundAt here with
      | .directory location =>
          if tree.forbids location .pass then .denied
          else if part = "..".toList then tree.follow here.tail rest
          else if Path.isLongName part then .tooLong
          else tree.follow (part :: here) rest
      | .file _ _ => .blocked
      | _ => .missing

def find (tree : Tree) (path : Path) : Found :=
  if !path.isUsable then .missing
  else if path.isTooLong then .tooLong
  else tree.follow (if path.slashes = 0 then tree.working.reverse else []) path.parts

def read (tree : Tree) (path : Path) : Except Failure (List UInt8) :=
  if !path.isUsable then .error .nullCharacter
  else
    match tree.find path with
    | .file location bytes =>
        if tree.forbids location .read then .error (.accessDenied path.text) else .ok bytes
    | .directory location =>
        if tree.forbids location .read then .error (.accessDenied path.text)
        else .error (.isDirectory path.text)
    | .denied => .error (.accessDenied path.text)
    | .blocked => .error (.notDirectory path.text)
    | .tooLong => .error (.nameTooLong path.text)
    | .vacant _ | .missing => .error (.noSuchFile path.text)

def write (tree : Tree) (path : Path) (bytes : List UInt8) : Except Failure Tree :=
  if !path.isUsable then .error .nullCharacter
  else
    match tree.find path with
    | .file location _ =>
        if tree.forbids location .write then .error (.accessDenied path.text)
        else .ok (tree.put location (.file bytes))
    | .vacant location =>
        if tree.forbids location.dropLast .write then .error (.accessDenied path.text)
        else .ok (tree.put location (.file bytes))
    | .denied => .error (.accessDenied path.text)
    | .directory _ => .error (.isDirectory path.text)
    | .blocked => .error (.notDirectory path.text)
    | .tooLong => .error (.nameTooLong path.text)
    | .missing => .error (.noSuchFile path.text)

def names (tree : Tree) (directory : Location) : List (List Char) :=
  tree.entries.filterMap fun (location, _) =>
    match location.reverse with
    | name :: parent => if parent.reverse = directory then some name else none
    | [] => none

/-- The files that are in a tree and were not, or not with the same bytes, in another one. -/
def newFiles (tree before : Tree) : List (Location × List UInt8) :=
  tree.entries.filterMap fun (location, content) =>
    match content with
    | .file bytes =>
        if before.at? location = some (.file bytes) then none else some (location, bytes)
    | .directory => none

end Tree

end PkgRecipe.Files
