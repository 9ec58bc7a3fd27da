/-!
Arguments of the command line. Options have long names after two dashes and short ones after one;
the value of an option may follow in the same argument or in the next. Of an option that is given
twice the last value counts. Two dashes alone end the options.
-/

set_option autoImplicit false
set_option relaxedAutoImplicit false

namespace RungLogic.CommandLine

/-- The options. -/
inductive Choice where
  | input | output | convert | simulate | visual | drawing | config | verbose | help
  deriving DecidableEq, Repr

namespace Choice

def takesValue : Choice → Bool
  | visual | verbose | help => false
  | _ => true

def ofLong? : String → Option Choice
  | "input" => some input
  | "output" => some output
  | "convert" => some convert
  | "simulate" => some simulate
  | "visual" => some visual
  | "export" => some drawing
  | "config" => some config
  | "verbose" => some verbose
  | "help" => some help
  | _ => none

def ofShort? : Char → Option Choice
  | 'i' => some input
  | 'o' => some output
  | 'c' => some convert
  | 's' => some simulate
  | 'v' => some visual
  | 'e' => some drawing
  | 'h' => some help
  | _ => none

end Choice

/-- The options as they are given, in order, and the arguments that are none. -/
structure Arguments where
  given : List (Choice × String) := []
  extra : List String := []
  deriving DecidableEq, Repr

namespace Arguments

/-- Adds an option; one without value has an empty text for it. -/
def add (a : Arguments) (c : Choice) (value : String) : Arguments :=
  { a with given := a.given ++ [(c, value)] }

def value? (a : Arguments) (c : Choice) : Option String :=
  (a.given.reverse.find? fun g => g.1 = c).map Prod.snd

def has (a : Arguments) (c : Choice) : Bool := (a.value? c).isSome

/-- The value of an option, unless it is missing or empty. -/
def text? (a : Arguments) (c : Choice) : Option String :=
  (a.value? c).filter (· ≠ "")

/-- What one argument leads to: it is complete, or the next argument is the value of an option. -/
inductive Taken where
  | complete (a : Arguments)
  | wants (a : Arguments) (c : Choice)
  | unknown

/-- Takes a long option, whose value may follow an equals sign. -/
def takeLong (a : Arguments) (body : List Char) : Taken :=
  let name := String.ofList (body.takeWhile (· ≠ '='))
  let value := match body.dropWhile (· ≠ '=') with
    | _ :: rest => some (String.ofList rest)
    | [] => none
  match Choice.ofLong? name with
  | none => .unknown
  | some c => match c.takesValue, value with
    | true, some v => .complete (a.add c v)
    | true, none => .wants a c
    | false, some _ => .unknown
    | false, none => .complete (a.add c "")

/-- Takes short options one after the other; what follows one with a value is its value. -/
def takeShort (a : Arguments) : List Char → Taken
  | [] => .complete a
  | letter :: rest => match Choice.ofShort? letter with
    | none => .unknown
    | some c =>
      if c.takesValue then
        if rest.isEmpty then .wants a c else .complete (a.add c (String.ofList rest))
      else takeShort (a.add c "") rest

def take (a : Arguments) (argument : String) : Taken :=
  match argument.toList with
  | '-' :: '-' :: body => a.takeLong body
  | '-' :: letter :: rest => a.takeShort (letter :: rest)
  | _ => .complete { a with extra := a.extra ++ [argument] }

/-- Takes all arguments; none when an option is unknown or lacks its value. -/
def parseFrom (a : Arguments) : List String → Option Arguments
  | [] => some a
  | "--" :: rest => some { a with extra := a.extra ++ rest }
  | argument :: rest => match a.take argument with
    | .complete a => a.parseFrom rest
    | .wants a c => match rest with
      | value :: rest => (a.add c value).parseFrom rest
      | [] => none
    | .unknown => none

def parse (arguments : List String) : Option Arguments := ({} : Arguments).parseFrom arguments

end Arguments

end RungLogic.CommandLine
