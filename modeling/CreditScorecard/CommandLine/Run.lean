import CreditScorecard.CommandLine.Arguments
import CreditScorecard.Inputs.Document
import CreditScorecard.Report
import CreditScorecard.Scorecard.Load

/-! # Running a command

A command is a function of the files it reads and the moment it runs at. Its response holds what
is printed, what is logged, and the exit code: 0 on success, 1 if a file is invalid, and 2 if
there is an error.
-/

namespace CreditScorecard.CommandLine

/-- Why a file cannot be read. -/
inductive FileError where
  | notFound
  | permissionDenied
  | notDirectory
  | isDirectory
  | nameTooLong
  | tooManyLinks
  | notUnicode
  | other (description : String)
deriving DecidableEq, Repr

def FileError.message : FileError → String
  | .notFound => "No such file or directory (os error 2)"
  | .permissionDenied => "Permission denied (os error 13)"
  | .notDirectory => "Not a directory (os error 20)"
  | .isDirectory => "Is a directory (os error 21)"
  | .nameTooLong => "File name too long (os error 36)"
  | .tooManyLinks => "Too many levels of symbolic links (os error 40)"
  | .notUnicode => "stream did not contain valid UTF-8"
  | .other description => description

/-- The error that the system gives a number. -/
def FileError.ofNumber? : Nat → Option FileError
  | 2 => some .notFound
  | 13 => some .permissionDenied
  | 20 => some .notDirectory
  | 21 => some .isDirectory
  | 36 => some .nameTooLong
  | 40 => some .tooManyLinks
  | _ => none

/-- The contents of files by path. -/
abbrev Files := String → Except FileError String

/-- What comes of a command. -/
structure Response where
  exit : Nat
  output : String := ""
  error : Option String := none
  log : List String := []
deriving DecidableEq, Repr

/-- The last name in a path. -/
def fileName? (path : String) : Option (List Char) :=
  let names := (Text.splitAt '/' path.toList).filter fun name => !name.isEmpty && name != ['.']
  names.getLast?.filter (· != ['.', '.'])

/-- Whether a file holds JSON: its name ends in `.json`, in any case, after at least one other
character. -/
def isJsonFile (path : String) : Bool :=
  match fileName? path with
  | none => false
  | some name =>
    let extension := (name.reverse.takeWhile (· != '.')).reverse
    extension.length + 1 < name.length && extension.map Char.toLower == "json".toList

/-- Why a scorecard cannot be had from a file. -/
inductive ScorecardFileError where
  | file (error : FileError)
  | load (error : LoadError)

def ScorecardFileError.message : ScorecardFileError → String
  | .file error => "Failed to read scorecard file: " ++ error.message
  | .load error => error.message

/-- The error with all its causes. -/
def ScorecardFileError.chain : ScorecardFileError → String
  | .file error => "Failed to read scorecard file: " ++ error.message ++ ": " ++ error.message
  | .load error => error.message

def readScorecard (files : Files) (path : String) : Except ScorecardFileError Scorecard :=
  match files path with
  | .error error => .error (.file error)
  | .ok text =>
    (if isJsonFile path then Scorecard.ofJsonText text else Scorecard.ofYamlText text).mapError
      .load

/-- Reads a scorecard, or says why the command cannot go on. -/
def loadScorecard (files : Files) (path : String) : Except String Scorecard :=
  (readScorecard files path).mapError fun error =>
    "Failed to load scorecard " ++ path ++ ": " ++ error.chain

/-- Reads inputs, or says why the command cannot go on. -/
def loadInputs (files : Files) (path : String) : Except String Inputs := do
  let text ← (files path).mapError fun error =>
    "Failed to read inputs file " ++ path ++ ": " ++ error.message
  let document? := if isJsonFile path then Json.read? text else Yaml.read? text
  match document? with
  | none => throw ((if isJsonFile path then "Invalid JSON in " else "Invalid YAML in ") ++ path)
  | some document => (Inputs.ofJson document).mapError (·.message)

/-- The line of a file in the output of `validate`. -/
def validationLine (files : Files) (path : String) : String :=
  match readScorecard files path with
  | .ok card =>
    "OK      " ++ path ++ " (" ++ Nat.repr card.groups.length ++ " fields, " ++
      Nat.repr card.ruleCount ++ " rules)\n"
  | .error error => "FAILED  " ++ path ++ ": " ++ error.message ++ "\n"

/-- Whether a file holds no valid scorecard. -/
def fails (files : Files) (path : String) : Bool :=
  match readScorecard files path with
  | .ok _ => false
  | .error _ => true

def validate (files : Files) (paths : List String) : Response :=
  { exit := if paths.any (fails files) then 1 else 0
    output := String.join (paths.map (validationLine files)) }

def warningLine (warning : String × Kind) : String :=
  "WARN Input could not be parsed for field kind field=" ++ warning.1 ++
    " kind=" ++ warning.2.name

/-- What an evaluation logs. Warnings are always shown, the other lines on demand. -/
def evaluationLog (verbose : Bool) (card : Scorecard) (inputs : Inputs) : List String :=
  let result := card.evaluate inputs
  let before :=
    "DEBUG Evaluating scorecard=" ++ card.id ++ " inputs=" ++ Nat.repr inputs.entries.length
  let after :=
    "DEBUG Scorecard evaluated scorecard=" ++ card.id ++
      " rules=" ++ Nat.repr result.outcomes.length ++
      " matched_rules=" ++ Nat.repr result.matchedRules ++
      " raw_total=" ++ (Evaluation.rawTotal result.outcomes).text ++
      " total_score=" ++ result.totalScore.text ++
      " risk_grade=" ++ result.grade.name
  let warnings := (card.warnings inputs).map warningLine
  if verbose then before :: warnings ++ [after] else warnings

def evaluate (files : Files) (moment : String) (verbose : Bool) (scorecard : String)
    (inputs? : Option String) (assignments : List String) (format : Format) :
    Except String Response := do
  let card ← loadScorecard files scorecard
  let base ← (match inputs? with
    | some path => loadInputs files path
    | none => pure Inputs.empty)
  let inputs ← (base.merge assignments).mapError (·.message)
  let result := card.evaluate inputs
  let output :=
    match format with
    | .text => Report.evaluation card result
    | .json => (Report.evaluationJson moment card result).indented ++ "\n"
  pure { exit := 0, output := output, log := evaluationLog verbose card inputs }

def fields (files : Files) (scorecard : String) (format : Format) : Except String Response := do
  let card ← loadScorecard files scorecard
  let output :=
    match format with
    | .text => Report.fields card
    | .json => (Report.fieldsJson card).indented ++ "\n"
  pure { exit := 0, output := output }

/-- The response to an error: nothing is printed. -/
def failed (message : String) : Response :=
  { exit := 2, error := some message }

def run (files : Files) (moment : String) (verbose : Bool) : Command → Response
  | .evaluate scorecard inputs? assignments format =>
    match evaluate files moment verbose scorecard inputs? assignments format with
    | .ok response => response
    | .error message => failed message
  | .validate paths => validate files paths
  | .fields scorecard format =>
    match fields files scorecard format with
    | .ok response => response
    | .error message => failed message

/-- The paths that a command reads. -/
def Command.paths : Command → List String
  | .evaluate scorecard inputs? _ _ => scorecard :: inputs?.toList
  | .validate paths => paths
  | .fields scorecard _ => [scorecard]

def versionText : String :=
  "scorecard 0.1.0\n"

def usage : String :=
  "Score loan applicants against rule-based credit scorecards\n\n" ++
    "Usage: scorecard [-v] evaluate -s FILE [-i FILE] [--set FIELD=VALUE]... " ++
    "[--format text|json]\n" ++
    "       scorecard [-v] validate FILE...\n" ++
    "       scorecard [-v] fields FILE [--format text|json]\n" ++
    "       scorecard --version\n"

/-- The response to a command line, or none if it makes no request. -/
def respond? (files : Files) (moment : String) (args : List String) : Option Response :=
  (request? args).map fun request =>
    match request with
    | .run verbose command => run files moment verbose command
    | .version => { exit := 0, output := versionText }
    | .help => { exit := 0, output := usage }

end CreditScorecard.CommandLine
