/-! Texts of file paths.

A path is shown without empty and `.` components. A leading double slash is kept, any other run of
leading slashes becomes one, and nothing at all is shown as `.`.

A place is what a path comes to: the names on the way down from the root.
-/

set_option autoImplicit false

namespace Chip8.PathText

def pieces (cs : List Char) : List (List Char) :=
  cs.foldr
    (fun c parts =>
      match parts with
      | [] => [[c]]
      | part :: rest => if c = '/' then [] :: part :: rest else (c :: part) :: rest)
    [[]]

/-- The pieces that name something. -/
def components (path : String) : List String :=
  ((pieces path.toList).filter fun part => part ≠ [] && part ≠ ['.']).map String.ofList

/-- The place after one more piece. Above the root there is only the root. -/
def step (place : List String) (piece : String) : List String :=
  if piece = "" || piece = "." then place
  else if piece = ".." then place.dropLast
  else place ++ [piece]

/-- The slashes that a path starts with. -/
def root (path : String) : String :=
  match path.toList with
  | '/' :: '/' :: '/' :: _ => "/"
  | '/' :: '/' :: _ => "//"
  | '/' :: _ => "/"
  | _ => ""

/-- The path as shown. -/
def normal (path : String) : String :=
  let text := root path ++ "/".intercalate (components path)
  if text.isEmpty then "." else text

def name (path : String) : String :=
  (components path).getLast?.getD ""

end Chip8.PathText
