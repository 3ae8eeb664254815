/-! Command-line arguments.

An option has a long name behind `--` and may have a one-letter name behind `-`. The value of an
option is the next argument, whatever it looks like; or the rest of the argument behind a
one-letter name; or what follows `=` behind a long name. Letters of options without a value may
share an argument. Options and operands may come in any order, and all that follows `--` is
operands.
-/

set_option autoImplicit false

namespace Chip8.CommandLine

structure OptionSpec (κ : Type) where
  key : κ
  letter : Option Char
  name : String
  takesValue : Bool

/-- The options given, in order, each with its value if it takes one, and the operands. -/
structure Arguments (κ : Type) where
  options : List (κ × Option String) := []
  operands : List String := []

inductive ArgumentError where
  | unknownOption
  /-- A value stands behind `=` at an option that takes none. -/
  | needlessValue (option : String)
  /-- Nothing follows an option that takes a value. -/
  | missingValue (option : String)
  /-- A value cannot be read, or a path cannot be used. -/
  | badValue
  /-- A path is a text that no path can be. -/
  | noPath
  | operandCount
  deriving DecidableEq, Repr

def ArgumentError.message? : ArgumentError → Option String
  | needlessValue option => some s!"Option '{option}' does not take a value."
  | missingValue option => some s!"Option '{option}' requires an argument."
  | _ => none

inductive Argument (κ : Type) where
  | operand
  | endOfOptions
  | options (given : List (κ × Option String))
  /-- Options, the last of which takes the next argument as its value. -/
  | needsValue (given : List (κ × Option String)) (key : κ) (option : String)

namespace Arguments

variable {κ : Type}

def readLetters (specs : List (OptionSpec κ)) :
    (given : List (κ × Option String)) → List Char → Except ArgumentError (Argument κ)
  | given, [] => .ok (.options given)
  | given, c :: cs =>
    match specs.find? (·.letter == some c) with
    | none => .error .unknownOption
    | some spec =>
      -- What follows the letter of an option with a value is that value.
      if !spec.takesValue then readLetters specs (given ++ [(spec.key, none)]) cs
      else if cs.isEmpty then .ok (.needsValue given spec.key (String.ofList ['-', c]))
      else .ok (.options (given ++ [(spec.key, some (String.ofList cs))]))

/-- Read a long name with what may follow it. -/
def readName (specs : List (OptionSpec κ)) (cs : List Char) : Except ArgumentError (Argument κ) :=
  match specs.find? (·.name.toList == cs.takeWhile (· != '=')) with
  | none => .error .unknownOption
  | some spec =>
    match spec.takesValue, cs.dropWhile (· != '=') with
    | true, [] => .ok (.needsValue [] spec.key s!"--{spec.name}")
    | true, _ :: value => .ok (.options [(spec.key, some (String.ofList value))])
    | false, [] => .ok (.options [(spec.key, none)])
    | false, _ :: _ => .error (.needlessValue s!"--{spec.name}")

def readOne (specs : List (OptionSpec κ)) (argument : String) :
    Except ArgumentError (Argument κ) :=
  match argument.toList with
  | ['-', '-'] => .ok .endOfOptions
  | '-' :: '-' :: cs => readName specs cs
  | '-' :: c :: cs => readLetters specs [] (c :: cs)
  | _ => .ok .operand

/-- Read all arguments, behind those that were read before. The first error counts. -/
def readFrom (specs : List (OptionSpec κ)) :
    Arguments κ → List String → Except ArgumentError (Arguments κ)
  | read, [] => .ok read
  | read, argument :: rest =>
    match readOne specs argument with
    | .error error => .error error
    | .ok .operand => readFrom specs { read with operands := read.operands ++ [argument] } rest
    | .ok .endOfOptions => .ok { read with operands := read.operands ++ rest }
    | .ok (.options given) => readFrom specs { read with options := read.options ++ given } rest
    | .ok (.needsValue given key option) =>
      match rest with
      | [] => .error (.missingValue option)
      | value :: rest =>
        readFrom specs { read with options := read.options ++ given ++ [(key, some value)] } rest

def ofList (specs : List (OptionSpec κ)) (arguments : List String) :
    Except ArgumentError (Arguments κ) :=
  readFrom specs {} arguments

variable [BEq κ]

def has (a : Arguments κ) (key : κ) : Bool :=
  a.options.any (·.1 == key)

def values (a : Arguments κ) (key : κ) : List String :=
  a.options.filterMap fun (given, value) => if given == key then value else none

/-- The value of an option, which is the last one given. -/
def value? (a : Arguments κ) (key : κ) : Option String :=
  (a.values key).getLast?

def readValue {α : Type} (a : Arguments κ) (key : κ) (read : String → Option α) :
    Except ArgumentError (Option α) :=
  match a.value? key with
  | none => .ok none
  | some text =>
    match read text with
    | none => .error .badValue
    | some value => .ok (some value)

end Arguments

end Chip8.CommandLine
