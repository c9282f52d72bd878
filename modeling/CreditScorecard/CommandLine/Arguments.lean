import CreditScorecard.Text.Blank

/-! # Command-line arguments

An invocation names a command with its options. Options are read from left to right; the value of
one may be attached to it or be the next argument, which then must not look like an option itself.
After `--` every argument is an operand.
-/

namespace CreditScorecard.CommandLine

inductive Format where
  | text
  | json
deriving DecidableEq, Repr

inductive Command where
  | evaluate (scorecard : String) (inputs : Option String) (assignments : List String)
    (format : Format)
  | validate (files : List String)
  | fields (scorecard : String) (format : Format)
deriving DecidableEq, Repr

/-- What a command line asks for. -/
inductive Request where
  | run (verbose : Bool) (command : Command)
  | version
  | help
deriving DecidableEq, Repr

/-- The options, of which each command takes some. -/
inductive OptionName where
  | scorecard
  | inputs
  | set
  | format
  | verbose
  | help
  | version
deriving DecidableEq, Repr

namespace OptionName

def all : List OptionName :=
  [.scorecard, .inputs, .set, .format, .verbose, .help, .version]

def name : OptionName → String
  | .scorecard => "scorecard"
  | .inputs => "inputs"
  | .set => "set"
  | .format => "format"
  | .verbose => "verbose"
  | .help => "help"
  | .version => "version"

def letter? : OptionName → Option Char
  | .scorecard => some 's'
  | .inputs => some 'i'
  | .verbose => some 'v'
  | .help => some 'h'
  | .version => some 'V'
  | .set | .format => none

def takesValue : OptionName → Bool
  | .scorecard | .inputs | .set | .format => true
  | .verbose | .help | .version => false

def repeatable : OptionName → Bool
  | .set => true
  | _ => false

/-- The values an option accepts. Paths must not be empty. -/
def accepts (o : OptionName) (value : String) : Bool :=
  match o with
  | .scorecard | .inputs => !value.isEmpty
  | .format => value == "text" || value == "json"
  | _ => true

end OptionName

/-- The options and operands of a command that are read so far. -/
structure Parsed where
  values : List (OptionName × String) := []
  operands : List String := []

namespace Parsed

def has (p : Parsed) (o : OptionName) : Bool :=
  p.values.any (·.1 = o)

/-- The value of an option that is given at most once. -/
def value? (p : Parsed) (o : OptionName) : Option String :=
  p.values.lookup o

/-- The values of an option in the order in which they are given. -/
def valuesOf (p : Parsed) (o : OptionName) : List String :=
  (p.values.filter (·.1 = o)).map (·.2)

/-- Adds an option, unless its value is not accepted or it is given again. -/
def add (p : Parsed) (o : OptionName) (value : String) : Option Parsed :=
  if !o.accepts value ∨ (p.has o ∧ !o.repeatable) then none
  else some { p with values := p.values ++ [(o, value)] }

end Parsed

/-- Whether an argument is read as options rather than as a value or operand. -/
def looksLikeOption (arg : List Char) : Bool :=
  match arg with
  | '-' :: _ :: _ => true
  | _ => false

/-- What comes of reading an argument that looks like an option. -/
inductive Progress where
  | done (p : Parsed)
  | awaiting (p : Parsed) (o : OptionName)
  | answer (r : Request)

/-- Reads an option that is given by its name, with or without an attached value. -/
def readNamed (known : List OptionName) (p : Parsed) (arg : List Char) : Option Progress := do
  let name := arg.takeWhile (· != '=')
  let attached? :=
    match arg.dropWhile (· != '=') with
    | [] => none
    | _ :: value => some (String.ofList value)
  let o ← known.find? fun o => o.name.toList = name
  match attached? with
  | some value => if o.takesValue then (p.add o value).map .done else none
  | none =>
    if o.takesValue then pure (.awaiting p o)
    else if o = .version then pure (.answer .version)
    else if o = .help then pure (.answer .help)
    else (p.add o "").map .done

/-- Reads options that are given by letters. The last of them may have a value attached to it. -/
def readLetters (known : List OptionName) (p : Parsed) : List Char → Option Progress
  | [] => some (.done p)
  | c :: cs => do
    let o ← known.find? (·.letter? = some c)
    if o.takesValue then
      match cs with
      | [] => pure (.awaiting p o)
      | '=' :: value => (p.add o (String.ofList value)).map .done
      | value => (p.add o (String.ofList value)).map .done
    else if o = .version then pure (.answer .version)
    else if o = .help then pure (.answer .help)
    else readLetters known (← p.add o "") cs

def readOption (known : List OptionName) (p : Parsed) (arg : List Char) : Option Progress :=
  match arg with
  | '-' :: '-' :: named => readNamed known p named
  | _ => readLetters known p (arg.drop 1)

/-- Adds operands, unless there are too many or one is empty. -/
def addOperands (most? : Option Nat) (p : Parsed) (args : List String) : Option Parsed :=
  let operands := p.operands ++ args
  if args.any (·.isEmpty) ∨ most?.any (· < operands.length) then none
  else some { p with operands := operands }

/-- Reads the arguments of a command with its options and a bound on its operands. -/
def readArguments (known : List OptionName) (most? : Option Nat) (p : Parsed) :
    List String → Option (Except Request Parsed)
  | [] => some (.ok p)
  | arg :: args =>
    if arg = "--" then (addOperands most? p args).map .ok
    else if looksLikeOption arg.toList then do
      match ← readOption known p arg.toList with
      | .done p => readArguments known most? p args
      | .answer r => pure (.error r)
      | .awaiting p o =>
        match args with
        | [] => none
        | value :: args =>
          if looksLikeOption value.toList then none
          else readArguments known most? (← p.add o value) args
    else do
      readArguments known most? (← addOperands most? p [arg]) args

def formatOf (p : Parsed) : Format :=
  if p.value? .format = some "json" then .json else .text

/-- Whether the arguments after `help` name at most one command. -/
def asksForHelp : List String → Bool
  | [] => true
  | [name] => ["evaluate", "validate", "fields", "help"].contains name
  | _ => false

/-- Reads the arguments after the name of a command. -/
def readCommand (verbose : Bool) (name : String) (args : List String) : Option Request := do
  let finish (known : List OptionName) (most? : Option Nat) (command : Parsed → Option Command) :
      Option Request := do
    match ← readArguments (known ++ [.verbose, .help]) most? {} args with
    | .error r => pure r
    | .ok p => pure (.run (verbose || p.has .verbose) (← command p))
  match name with
  | "evaluate" =>
    finish [.scorecard, .inputs, .set, .format] (some 0) fun p => do
      pure (.evaluate (← p.value? .scorecard) (p.value? .inputs) (p.valuesOf .set) (formatOf p))
  | "validate" =>
    finish [] none fun p => if p.operands.isEmpty then none else some (.validate p.operands)
  | "fields" =>
    finish [.format] (some 1) fun p => do
      pure (.fields (← p.operands.head?) (formatOf p))
  | "help" => if asksForHelp args then some .help else none
  | _ => none

/-- Reads the arguments of the program; none if they make no request. Options before the command
hold for any command. -/
def readRequest (p : Parsed) : List String → Option Request
  | [] => none
  | arg :: args =>
    if arg = "--" then none
    else if looksLikeOption arg.toList then do
      match ← readOption [.verbose, .help, .version] p arg.toList with
      | .done p => readRequest p args
      | .answer r => pure r
      | .awaiting .. => none
    else readCommand (p.has .verbose) arg args

/-- Reads a command line without the program's name. -/
def request? (args : List String) : Option Request :=
  readRequest {} args

end CreditScorecard.CommandLine
