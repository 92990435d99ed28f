import TagQuery.Text.Digit
import TagQuery.Text.Lowercase

/-! The form of a command line: options, which a program and each of its commands may have, values
for them, and operands. An option is written with two hyphens and its name or with one hyphen and a
letter; letters may be put together, and a value may be attached or be the next argument. After two
hyphens alone, everything is an operand. -/
namespace TagQuery.Command

inductive Kind where
  | text
  /-- a path, which is not empty -/
  | path
  /-- a number of 64 bits -/
  | number
  /-- one of the output formats, in any case -/
  | format
  deriving DecidableEq, Repr

/-- The digits of a number, which a plus sign may precede. -/
def unsigned : Text → Text
  | '+' :: digits => digits
  | digits => digits

def number? (t : Text) : Option Nat :=
  let digits := unsigned t
  let n := Text.ofDigits 10 digits
  if digits.isEmpty || !digits.all Char.isDigit || UInt64.size ≤ n then none else some n

inductive Format where
  | text
  | json
  deriving DecidableEq, Repr

def format? (t : Text) : Option Format :=
  if t.lower = "text".toList then some .text
  else if t.lower = "json".toList then some .json
  else none

def Kind.admits (kind : Kind) (t : Text) : Bool :=
  match kind with
  | text => true
  | path => !t.isEmpty
  | number => (number? t).isSome
  | format => (format? t).isSome

structure Parameter where
  /-- the name by which it is given -/
  name : String
  letter : Option Char := none
  /-- the form of its value, if it takes one -/
  value : Option Kind := none
  /-- whether it may be given more than once -/
  repeatable : Bool := false
  about : String
  deriving DecidableEq, Repr

/-- A program or a command of it, by what may be given to it. -/
structure Level where
  options : List Parameter
  operands : List Parameter := []
  /-- the names of its commands -/
  commands : List String := []
  deriving DecidableEq, Repr

inductive Stop where
  /-- the command line is not well formed -/
  | misuse
  | help
  | version
  deriving DecidableEq, Repr

structure Given where
  name : String
  value : Text
  deriving DecidableEq, Repr

/-- What has been read of a command line. The last parameter waits until the next one is read: for
its value, or for the value to be looked at. -/
structure Progress where
  given : List Given := []
  waiting : Option (Parameter × Option Text) := none
  operands : List Parameter
  deriving DecidableEq, Repr

namespace Progress

/-- Takes a value for a parameter, or notes that the parameter was given. -/
def take (progress : Progress) (parameter : Parameter) (value : Text) : Except Stop Progress :=
  if !parameter.repeatable && progress.given.any (·.name == parameter.name) then .error .misuse
  else if !(parameter.value.all (·.admits value)) then .error .misuse
  else .ok { progress with given := progress.given ++ [⟨parameter.name, value⟩] }

def settle (progress : Progress) : Except Stop Progress :=
  match progress.waiting with
  | none => .ok progress
  | some (_, none) => .error .misuse
  | some (parameter, some value) => { progress with waiting := none }.take parameter value

def needsValue (progress : Progress) : Bool :=
  match progress.waiting with
  | some (_, none) => true
  | _ => false

def takePlain (progress : Progress) (argument : Text) : Except Stop Progress :=
  match progress.waiting with
  | some (parameter, none) => .ok { progress with waiting := some (parameter, some argument) }
  | _ =>
    match progress.operands with
    | [] => .error .misuse
    | operand :: rest =>
      progress.settle.map fun settled =>
        { settled with waiting := some (operand, some argument), operands := rest }

def takeOperand (progress : Progress) (argument : Text) : Except Stop Progress :=
  match progress.operands with
  | [] => .error .misuse
  | operand :: rest =>
    progress.settle.map fun settled =>
      { settled with waiting := some (operand, some argument), operands := rest }

def takeOption (progress : Progress) (option : Parameter) (attached : Option Text) :
    Except Stop Progress :=
  match option.value, attached with
  | none, some _ => .error .misuse
  | none, none =>
    match progress.settle with
    | .error stop => .error stop
    | .ok settled =>
      if option.name = "help" then .error .help
      else if option.name = "version" then .error .version
      else settled.take option []
  | some _, some value =>
    match progress.settle with
    | .error stop => .error stop
    | .ok settled => settled.take option value
  | some _, none =>
    progress.settle.map fun settled => { settled with waiting := some (option, none) }

/-- Takes the letters after a single hyphen. An option that takes a value has the rest for it. -/
def takeLetters (level : Level) (progress : Progress) : Text → Except Stop Progress
  | [] => .ok progress
  | c :: more =>
    match level.options.find? (·.letter == some c) with
    | none => .error .misuse
    | some option =>
      match option.value, more with
      | none, _ =>
        match progress.takeOption option none with
        | .error stop => .error stop
        | .ok next => takeLetters level next more
      | some _, [] => progress.takeOption option none
      | some _, '=' :: value => progress.takeOption option (some value)
      | some _, value => progress.takeOption option (some value)

/-- Takes an option by its name, to which a value may be attached after an equals sign. -/
def takeNamed (level : Level) (progress : Progress) (argument : Text) : Except Stop Progress :=
  let name := argument.takeWhile (· ≠ '=')
  let attached :=
    match argument.dropWhile (· ≠ '=') with
    | [] => none
    | _ :: value => some value
  match level.options.find? (·.name.toList == name) with
  | none => .error .misuse
  | some option => progress.takeOption option attached

end Progress

structure Named where
  command : String
  rest : List Text
  deriving DecidableEq, Repr

def Level.read (level : Level) (plainOnly : Bool) (progress : Progress) :
    List Text → Except Stop (Progress × Option Named)
  | [] => .ok (progress, none)
  | argument :: rest =>
    if plainOnly then
      match progress.takeOperand argument with
      | .error stop => .error stop
      | .ok next => level.read true next rest
    else
      match level.commands.find? fun name => !progress.needsValue && name.toList == argument with
      | some name => .ok (progress, some ⟨name, rest⟩)
      | none =>
        match argument with
        | ['-', '-'] => level.read true progress rest
        | '-' :: '-' :: long =>
          match progress.takeNamed level long with
          | .error stop => .error stop
          | .ok next => level.read false next rest
        | '-' :: letter :: more =>
          match progress.takeLetters level (letter :: more) with
          | .error stop => .error stop
          | .ok next => level.read false next rest
        | plain =>
          match progress.takePlain plain with
          | .error stop => .error stop
          | .ok next => level.read false next rest

def Level.start (level : Level) (arguments : List Text) :
    Except Stop (Progress × Option Named) :=
  level.read false { operands := level.operands } arguments

def lastValue? (given : List Given) (name : String) : Option Text :=
  (given.reverse.find? (·.name == name)).map Given.value

def values (given : List Given) (name : String) : List Text :=
  (given.filter (·.name == name)).map Given.value

end TagQuery.Command
