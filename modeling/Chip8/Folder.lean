import Chip8.PathText
import Chip8.Text.Quoted

/-! A folder, and what paths lead to from there.

A path is followed piece by piece, from the folder or from the root. It fails at the first piece
that cannot be followed: there is nothing to look into, something other than a directory, or a name
that is too long.
-/

set_option autoImplicit false

namespace Chip8

inductive Node where
  | file (content : List UInt8)
  | directory
  /-- A device that has no content and drops what is written to it. -/
  | sink
  /-- A device whose bytes never end. What is written to it is dropped, or finds no room. -/
  | endless (hasRoom : Bool)

/-- What a path leads to. -/
inductive PathStatus where
  | found (node : Node)
  /-- Nothing, in a directory. -/
  | absent
  /-- Nothing, in no directory. -/
  | noParent
  /-- Something before the last piece is no directory. -/
  | throughFile
  /-- A name on the way, or the whole path, is too long. -/
  | tooLong
  /-- The path holds a NUL, which is part of no name. -/
  | holdsNul

abbrev Files := String → PathStatus

inductive FileError where
  | noSuchFile
  | notDirectory
  | isDirectory
  | alreadyThere
  | nameTooLong
  | noRoom
  | holdsNul
  deriving DecidableEq, Repr

/-- The words for an error. Those of the operating system have a number, and the path if the error is
about that. -/
def FileError.message (path : String) : FileError → String
  | noSuchFile => s!"[Errno 2] No such file or directory: {Text.quoted path}"
  | notDirectory => s!"[Errno 20] Not a directory: {Text.quoted path}"
  | isDirectory => s!"[Errno 21] Is a directory: {Text.quoted path}"
  | alreadyThere => s!"[Errno 17] File exists: {Text.quoted path}"
  | nameTooLong => s!"[Errno 36] File name too long: {Text.quoted path}"
  | noRoom => "[Errno 28] No space left on device"
  | holdsNul => "embedded null byte"

structure PathError where
  path : String
  error : FileError
  deriving DecidableEq, Repr

def PathError.message (e : PathError) : String :=
  e.error.message e.path

def PathStatus.writeError? : PathStatus → Option FileError
  | found .directory => some .isDirectory
  | found (.endless false) => some .noRoom
  | found _ | absent => none
  | noParent => some .noSuchFile
  | throughFile => some .notDirectory
  | tooLong => some .nameTooLong
  | holdsNul => some .holdsNul

/-- A folder, as what lies at the places in it and around it. -/
structure Folder where
  nodes : List (List String × Node)

namespace Folder

/-- The place of the folder. Its last name is one that no path spells. -/
def home : List String := ["tmp", ""]

def place (path : String) : List String :=
  (PathText.components path).foldl PathText.step (if path.startsWith "/" then [] else home)

/-- The path to a place from the folder on, if the place lies in it. -/
def below? (path : String) : Option String :=
  match home.isPrefixOf (place path), (place path).drop home.length with
  | true, name :: names => some ("/".intercalate (name :: names))
  | _, _ => none

/-- The directories that lie everywhere at the root. -/
def rootNames : List String :=
  ["bin", "boot", "etc", "home", "lib", "media", "mnt", "opt", "root", "run", "sbin", "srv", "tmp",
    "usr", "var"]

/-- A folder with nothing in it. Around it lies what is the same everywhere. -/
def empty : Folder :=
  ⟨(home, .directory) :: rootNames.map (fun name => ([name], .directory)) ++ [
    (["dev", "null"], .sink), (["dev", "zero"], .endless true), (["dev", "random"], .endless true),
    (["dev", "urandom"], .endless true), (["dev", "full"], .endless false)]⟩

def put (f : Folder) (path : String) (node : Node) : Folder :=
  ⟨(place path, node) :: f.nodes⟩

def ofFiles (files : List (String × List UInt8)) : Folder :=
  files.foldl (fun f (path, content) => f.put path (.file content)) empty

def maxNameSize : Nat := 255

def maxPathSize : Nat := 4095

/-- What lies at a place. A directory is there if something lies in it. -/
def at? (f : Folder) (place : List String) : Option Node :=
  match f.nodes.find? (·.1 = place) with
  | some (_, node) => some node
  | none =>
    if f.nodes.any fun (path, _) => place.isPrefixOf path then some .directory else none

/-- Follow the pieces of a path from a place. -/
def follow (f : Folder) : (place : List String) → (pieces : List String) → PathStatus
  | place, [] =>
    match f.at? place with
    | none => .absent
    | some node => .found node
  | place, piece :: rest =>
    match f.at? place with
    | none => .noParent
    | some .directory =>
      if maxNameSize < piece.utf8ByteSize then .tooLong
      else follow f (PathText.step place piece) rest
    | some _ => .throughFile

/-- What a path leads to. -/
def status (f : Folder) : Files := fun path =>
  if path.toList.contains '\x00' then .holdsNul
  else if path.isEmpty then .noParent
  else if maxPathSize < path.utf8ByteSize then .tooLong
  else
    f.follow (if path.startsWith "/" then [] else home)
      ((PathText.pieces path.toList).map String.ofList)

def directoryError? : PathStatus → Option FileError
  | .found _ => some .alreadyThere
  | .absent => none
  | .noParent => some .noSuchFile
  | .throughFile => some .notDirectory
  | .tooLong => some .nameTooLong
  | .holdsNul => some .holdsNul

/-- Make a directory, and first those that it lies in if there is no place for it. The components of
its path are given from the last to the first, behind the slashes that it starts with. A directory
that is there is kept, and so is what was made before an error. -/
def makeDirectories (f : Folder) (root : String) :
    (upwards : List String) → Option PathError × Folder
  | [] => (none, f)
  | name :: above =>
    let path := root ++ "/".intercalate (name :: above).reverse
    let (error?, f) :=
      match f.status path with
      | .noParent => makeDirectories f root above
      | _ => (none, f)
    match error?, f.status path with
    | some error, _ => (some error, f)
    | none, .found .directory => (none, f)
    | none, status =>
      match directoryError? status with
      | some error => (some ⟨path, error⟩, f)
      | none => (none, f.put path .directory)

def makeDirectory (f : Folder) (path : String) : Option PathError × Folder :=
  f.makeDirectories (PathText.root path) (PathText.components path).reverse

/-- Write a file, in a directory that is made if there is none. A device stays what it is. -/
def writeFile (f : Folder) (path : String) (content : List UInt8) : Option PathError × Folder :=
  match f.makeDirectories (PathText.root path) (PathText.components path).dropLast.reverse with
  | (some error, f) => (some error, f)
  | (none, f) =>
    let path := PathText.normal path
    let status := f.status path
    match status.writeError?, status with
    | some error, _ => (some ⟨path, error⟩, f)
    | none, .found .sink | none, .found (.endless _) => (none, f)
    | none, _ => (none, f.put path (.file content))

end Folder

end Chip8
