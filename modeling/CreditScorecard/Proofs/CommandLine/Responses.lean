import CreditScorecard.CommandLine.Run
import CreditScorecard.Proofs.CommandLine.Operands
import CreditScorecard.Proofs.Inputs.Merging
import CreditScorecard.Proofs.Scorecard.Language

/-! # All or nothing

A command either prints all it has to say, or it reports an error and prints nothing. Files that are
validated are read one after the other, and none of them has a say in the verdict on another.
-/

namespace CreditScorecard.CommandLine

variable {files : Files} {moment : String} {verbose : Bool} {response : Response}

/-! ## Commands that can fail -/

/-- The response of a command that goes on to its end. -/
def Response.Completes (response : Response) : Prop :=
  response.exit ≠ 2 ∧ response.error = none

/-- The response of a command that stops at an error. -/
def Response.Fails (response : Response) : Prop :=
  response.exit = 2 ∧ response.error.isSome ∧ response.output = ""

theorem fails_failed (message : String) : (failed message).Fails :=
  ⟨rfl, rfl, rfl⟩

theorem exists_loadScorecard_iff {path : String} :
    (∃ card, loadScorecard files path = .ok card) ↔
      ∃ card, readScorecard files path = .ok card := by
  simp only [loadScorecard, Scorecard.mapError_eq_ok_iff]

/-- An evaluation can fail at its scorecard, at its inputs file and at each of its assignments. -/
theorem exists_evaluate_iff {scorecard : String} {inputs? : Option String}
    {assignments : List String} {format : Format} :
    (∃ response,
      evaluate files moment verbose scorecard inputs? assignments format = .ok response) ↔
      (∃ card, readScorecard files scorecard = .ok card) ∧
      (∀ path ∈ inputs?, ∃ base, loadInputs files path = .ok base) ∧
      ∀ text ∈ assignments, ∃ entry, Inputs.readAssignment text = .ok entry := by
  have hmerge : ∀ base : Inputs, (∃ inputs, (base.merge assignments).mapError (·.message) =
      .ok inputs) ↔ ∀ text ∈ assignments, ∃ entry, Inputs.readAssignment text = .ok entry := by
    intro base
    simp only [Scorecard.mapError_eq_ok_iff, Inputs.exists_merge_iff, Prod.exists,
      Inputs.readAssignment_eq_ok_iff]
  rw [← exists_loadScorecard_iff]
  constructor
  · intro h
    obtain ⟨response, h⟩ := h
    simp only [evaluate, bind_eq_ok_iff] at h
    obtain ⟨card, hcard, base, hbase, inputs, hinputs, -⟩ := h
    refine ⟨⟨card, hcard⟩, ?_, (hmerge base).mp ⟨inputs, hinputs⟩⟩
    intro path hpath
    cases hpath
    exact ⟨base, hbase⟩
  · intro h
    obtain ⟨⟨card, hcard⟩, hbases, hassignments⟩ := h
    simp only [evaluate, bind_eq_ok_iff]
    cases inputs? with
    | none =>
        obtain ⟨inputs, hinputs⟩ := (hmerge Inputs.empty).mpr hassignments
        exact ⟨_, card, hcard, Inputs.empty, rfl, inputs, hinputs, rfl⟩
    | some path =>
        obtain ⟨base, hbase⟩ := hbases path rfl
        obtain ⟨inputs, hinputs⟩ := (hmerge base).mpr hassignments
        exact ⟨_, card, hcard, base, hbase, inputs, hinputs, rfl⟩

theorem exists_fields_iff {scorecard : String} {format : Format} :
    (∃ response, fields files scorecard format = .ok response) ↔
      ∃ card, readScorecard files scorecard = .ok card := by
  rw [← exists_loadScorecard_iff]
  simp only [fields, bind_eq_ok_iff, pure_eq_ok_iff]
  grind

theorem evaluate_ok {scorecard : String} {inputs? : Option String}
    {assignments : List String} {format : Format}
    (h : evaluate files moment verbose scorecard inputs? assignments format = .ok response) :
    response.exit = 0 ∧ response.error = none := by
  simp only [evaluate, bind_eq_ok_iff] at h
  obtain ⟨card, -, base, -, inputs, -, h⟩ := h
  cases h
  exact ⟨rfl, rfl⟩

theorem fields_ok {scorecard : String} {format : Format}
    (h : fields files scorecard format = .ok response) :
    response.exit = 0 ∧ response.error = none := by
  simp only [fields, bind_eq_ok_iff] at h
  obtain ⟨card, -, h⟩ := h
  cases h
  exact ⟨rfl, rfl⟩

/-- The response of a command that goes on to its end exactly if a condition holds. -/
def Response.SucceedsIff (response : Response) (condition : Prop) : Prop :=
  (condition ∧ response.exit = 0 ∧ response.error = none) ∨ (¬condition ∧ response.Fails)

/-- A command makes a response of its result, which is one with exit code 0 or an error. -/
theorem succeedsIff_of_result {result : Except String Response} {condition : Prop} :
    ((∃ response, result = .ok response) ↔ condition) →
    (∀ response, result = .ok response → response.exit = 0 ∧ response.error = none) →
      Response.SucceedsIff (match result with
        | .ok response => response
        | .error message => failed message) condition := by
  intro hiff hok
  cases result with
  | ok response => exact .inl ⟨hiff.mp ⟨response, rfl⟩, hok response rfl⟩
  | error message =>
      refine .inr ⟨?_, fails_failed message⟩
      intro hcondition
      obtain ⟨response, hresponse⟩ := hiff.mpr hcondition
      cases hresponse

theorem succeedsIff_run_evaluate (scorecard : String) (inputs? : Option String)
    (assignments : List String) (format : Format) :
    (run files moment verbose (.evaluate scorecard inputs? assignments format)).SucceedsIff
      ((∃ card, readScorecard files scorecard = .ok card) ∧
        (∀ path ∈ inputs?, ∃ base, loadInputs files path = .ok base) ∧
        ∀ text ∈ assignments, ∃ entry, Inputs.readAssignment text = .ok entry) :=
  succeedsIff_of_result exists_evaluate_iff fun _ => evaluate_ok

theorem succeedsIff_run_fields (scorecard : String) (format : Format) :
    (run files moment verbose (.fields scorecard format)).SucceedsIff
      (∃ card, readScorecard files scorecard = .ok card) :=
  succeedsIff_of_result exists_fields_iff fun _ => fields_ok

theorem Response.SucceedsIff.completes_or_fails {condition : Prop}
    (h : response.SucceedsIff condition) : response.Completes ∨ response.Fails := by
  rcases h with ⟨-, hexit, herror⟩ | ⟨-, hfails⟩
  · exact .inl ⟨by simp [hexit], herror⟩
  · exact .inr hfails

theorem Response.SucceedsIff.exit {condition : Prop} (h : response.SucceedsIff condition) :
    response.exit ≠ 1 ∧ (response.exit = 0 ↔ condition) := by
  rcases h with ⟨hcondition, hexit, -⟩ | ⟨hcondition, hexit, -⟩
  · simp [hexit, hcondition]
  · simp [hexit, hcondition]

/-! ## Files that are validated -/

/-- What is said of the files read so far, and how many of them fail. -/
structure Verdicts where
  output : String := ""
  failures : Nat := 0

namespace Verdicts

def append (a b : Verdicts) : Verdicts :=
  { output := a.output ++ b.output
    failures := a.failures + b.failures }

/-- Reads one more file. -/
def add (files : Files) (verdicts : Verdicts) (path : String) : Verdicts :=
  { output := verdicts.output ++ validationLine files path
    failures := verdicts.failures + if fails files path then 1 else 0 }

/-- Reads files one after the other. -/
def ofPaths (files : Files) (paths : List String) : Verdicts :=
  paths.foldl (add files) {}

theorem append_assoc (a b c : Verdicts) : (a.append b).append c = a.append (b.append c) := by
  simp only [append, String.append_assoc, Nat.add_assoc]

theorem append_empty (a : Verdicts) : a.append {} = a := by
  simp only [append, String.append_empty, Nat.add_zero]

/-- A file adds its own verdict to what is said before. -/
theorem add_eq_append (verdicts : Verdicts) (path : String) :
    verdicts.add files path = verdicts.append (ofPaths files [path]) := by
  simp [add, append, ofPaths]

theorem foldl_add (verdicts : Verdicts) (paths : List String) :
    paths.foldl (add files) verdicts = verdicts.append (ofPaths files paths) := by
  induction paths generalizing verdicts with
  | nil => exact (append_empty verdicts).symm
  | cons path paths ih =>
      calc paths.foldl (add files) (verdicts.add files path)
          = (verdicts.add files path).append (ofPaths files paths) := ih _
        _ = verdicts.append ((ofPaths files [path]).append (ofPaths files paths)) := by
          rw [add_eq_append, append_assoc]
        _ = verdicts.append (ofPaths files (path :: paths)) :=
          congrArg verdicts.append (ih (ofPaths files [path])).symm

theorem ofPaths_append (before after : List String) :
    ofPaths files (before ++ after) = (ofPaths files before).append (ofPaths files after) := by
  rw [ofPaths, List.foldl_append, foldl_add]
  rfl

theorem ofPaths_cons (path : String) (paths : List String) :
    ofPaths files (path :: paths) = (ofPaths files [path]).append (ofPaths files paths) :=
  ofPaths_append [path] paths

theorem ofPaths_singleton (path : String) :
    ofPaths files [path] =
      { output := validationLine files path, failures := if fails files path then 1 else 0 } := by
  simp [ofPaths, add]

theorem output_ofPaths (paths : List String) :
    (ofPaths files paths).output = String.join (paths.map (validationLine files)) := by
  induction paths with
  | nil => rfl
  | cons path paths ih =>
      rw [ofPaths_cons, ofPaths_singleton, append, ih, List.map_cons, String.join_cons]

theorem failures_ofPaths (paths : List String) :
    (ofPaths files paths).failures = paths.countP (fails files) := by
  induction paths with
  | nil => rfl
  | cons path paths ih =>
      rw [ofPaths_cons, ofPaths_singleton, append, ih, List.countP_cons, Nat.add_comm]

/-- The verdict on a file depends on that file alone. -/
theorem ofPaths_congr {other : Files} {paths : List String}
    (h : ∀ path ∈ paths, other path = files path) : ofPaths other paths = ofPaths files paths := by
  induction paths with
  | nil => rfl
  | cons path paths ih =>
      have hread : readScorecard other path = readScorecard files path := by
        rw [readScorecard, readScorecard, h path List.mem_cons_self]
      have hline : validationLine other path = validationLine files path := by
        rw [validationLine, validationLine, hread]
      have hfails : fails other path = fails files path := by
        rw [fails, fails, hread]
      have hverdict : ofPaths other [path] = ofPaths files [path] := by
        rw [ofPaths_singleton, ofPaths_singleton, hline, hfails]
      have hrest := ih fun p hp => h p (List.mem_cons_of_mem path hp)
      calc ofPaths other (path :: paths)
          = (ofPaths other [path]).append (ofPaths other paths) := ofPaths_cons path paths
        _ = (ofPaths files [path]).append (ofPaths files paths) := by rw [hverdict, hrest]
        _ = ofPaths files (path :: paths) := (ofPaths_cons path paths).symm

end Verdicts

theorem fails_iff {path : String} :
    fails files path = true ↔ ∃ error, readScorecard files path = .error error := by
  unfold fails
  cases readScorecard files path <;> simp

theorem fails_eq_false_iff {path : String} :
    fails files path = false ↔ ∃ card, readScorecard files path = .ok card := by
  unfold fails
  cases readScorecard files path <;> simp

theorem validate_eq (paths : List String) :
    validate files paths =
      { exit := if 0 < (Verdicts.ofPaths files paths).failures then 1 else 0
        output := (Verdicts.ofPaths files paths).output } := by
  have hany : paths.any (fails files) = true ↔ 0 < (Verdicts.ofPaths files paths).failures := by
    rw [Verdicts.failures_ofPaths, List.countP_pos_iff, List.any_eq_true]
  simp only [validate, hany, Verdicts.output_ofPaths]

/-! ## Lines -/

theorem failed_line_iff {path : String} :
    ("FAILED  " ++ path ++ ": ").toList <+: (validationLine files path).toList ↔
      ∃ error, readScorecard files path = .error error := by
  unfold validationLine
  cases readScorecard files path with
  | ok card => simp
  | error e => simp

/-! ## Command lines -/

/-- A command line that asks for a command, and the response to it. -/
structure Answered (files : Files) (moment : String) (args : List String) (command : Command)
    (response : Response) : Prop where
  request : ∃ verbose, request? args = some (.run verbose command)
  response : respond? files moment args = some response

variable {args : List String} {command : Command}

theorem answered_run (h : request? args = some (.run verbose command)) :
    Answered files moment args command (run files moment verbose command) where
  request := ⟨verbose, h⟩
  response := by simp [respond?, h]

theorem Answered.exists_eq_run (h : Answered files moment args command response) :
    ∃ verbose, response = run files moment verbose command := by
  obtain ⟨⟨verbose, hrequest⟩, hresponse⟩ := h
  rw [(answered_run hrequest).response] at hresponse
  cases hresponse
  exact ⟨verbose, rfl⟩

theorem Answered.eq_validate {paths : List String}
    (h : Answered files moment args (.validate paths) response) :
    response = validate files paths := by
  obtain ⟨verbose, rfl⟩ := h.exists_eq_run
  rfl

theorem Answered.arePaths {paths : List String}
    (h : Answered files moment args (.validate paths) response) : ArePaths paths := by
  obtain ⟨verbose, hrequest⟩ := h.request
  exact arePaths_of_request hrequest

theorem completes_validate (paths : List String) : (validate files paths).Completes := by
  refine ⟨?_, rfl⟩
  unfold validate
  split <;> simp

theorem Answered.completes_or_fails (h : Answered files moment args command response) :
    response.Completes ∨ response.Fails := by
  obtain ⟨verbose, rfl⟩ := h.exists_eq_run
  cases command with
  | evaluate scorecard inputs? assignments format =>
      exact (succeedsIff_run_evaluate scorecard inputs? assignments format).completes_or_fails
  | validate paths => exact .inl (completes_validate paths)
  | fields scorecard format => exact (succeedsIff_run_fields scorecard format).completes_or_fails

/-! ## The exit code -/

/-- The exit codes of all command lines that ask for a command, and what goes with them. -/
structure AllOrNothing (files : Files) (moment : String) : Prop where
  answered : ∀ {args verbose command}, request? args = some (.run verbose command) →
    ∃ response, Answered files moment args command response
  exit_two_iff : ∀ {args command response}, Answered files moment args command response →
    (response.exit = 2 ↔ response.error.isSome)
  output_of_error : ∀ {args command response}, Answered files moment args command response →
    response.error.isSome → response.output = ""
  evaluate : ∀ {args scorecard inputs? assignments format response},
    Answered files moment args (.evaluate scorecard inputs? assignments format) response →
      response.exit ≠ 1 ∧
      (response.exit = 0 ↔ (∃ card, readScorecard files scorecard = .ok card) ∧
        (∀ path ∈ inputs?, ∃ base, loadInputs files path = .ok base) ∧
        ∀ text ∈ assignments, ∃ entry, Inputs.readAssignment text = .ok entry)
  fields : ∀ {args scorecard format response},
    Answered files moment args (.fields scorecard format) response →
      response.exit ≠ 1 ∧
      (response.exit = 0 ↔ ∃ card, readScorecard files scorecard = .ok card)
  validate : ∀ {args paths response}, Answered files moment args (.validate paths) response →
    response.exit ≠ 2 ∧
    (response.exit = 1 ↔ ∃ path ∈ paths, ∃ error, readScorecard files path = .error error) ∧
    (response.exit = 0 ↔ ∀ path ∈ paths, ∃ card, readScorecard files path = .ok card)

theorem allOrNothing (files : Files) (moment : String) : AllOrNothing files moment := by
  constructor
  case answered =>
    intro args verbose command h
    exact ⟨_, answered_run h⟩
  case exit_two_iff =>
    intro args command response h
    rcases h.completes_or_fails with ⟨hexit, herror⟩ | ⟨hexit, herror, -⟩
    · simp [hexit, herror]
    · simp [hexit, herror]
  case output_of_error =>
    intro args command response h hsome
    rcases h.completes_or_fails with ⟨-, herror⟩ | ⟨-, -, houtput⟩
    · simp [herror] at hsome
    · exact houtput
  case evaluate =>
    intro args scorecard inputs? assignments format response h
    obtain ⟨verbose, rfl⟩ := h.exists_eq_run
    exact (succeedsIff_run_evaluate scorecard inputs? assignments format).exit
  case fields =>
    intro args scorecard format response h
    obtain ⟨verbose, rfl⟩ := h.exists_eq_run
    exact (succeedsIff_run_fields scorecard format).exit
  case validate =>
    intro args paths response h
    rw [h.eq_validate]
    refine ⟨(completes_validate paths).1, ?_, ?_⟩
    · simp [validate, fails_iff]
    · simp [validate, ← fails_eq_false_iff]

/-! ## One file after the other -/

/-- What the files named to `validate` have to do with each other. -/
structure OneByOne (files : Files) (moment : String) : Prop where
  response : ∀ {args paths response}, Answered files moment args (.validate paths) response →
    response.output = (Verdicts.ofPaths files paths).output ∧
    (response.exit = 1 ↔ 0 < (Verdicts.ofPaths files paths).failures)
  output_append : ∀ before after,
    (Verdicts.ofPaths files (before ++ after)).output =
      (Verdicts.ofPaths files before).output ++ (Verdicts.ofPaths files after).output
  failures_append : ∀ before after,
    (Verdicts.ofPaths files (before ++ after)).failures =
      (Verdicts.ofPaths files before).failures + (Verdicts.ofPaths files after).failures
  answered_append : ∀ {args args' before after response response'},
    Answered files moment args (.validate before) response →
    Answered files moment args' (.validate after) response' →
      ∃ args'' response'', Answered files moment args'' (.validate (before ++ after)) response'' ∧
        response''.output = response.output ++ response'.output
  failures_eq : ∀ paths, (Verdicts.ofPaths files paths).failures = paths.countP (fails files)
  failed_line : ∀ path,
    ("FAILED  " ++ path ++ ": ").toList <+: (Verdicts.ofPaths files [path]).output.toList ↔
      ∃ error, readScorecard files path = .error error
  unaltered : ∀ (other : Files) (before : List String) (path : String) (after : List String),
    (∀ p ∈ before ++ after, other p = files p) →
      (Verdicts.ofPaths other (before ++ path :: after)).output =
        (Verdicts.ofPaths files before).output ++ (Verdicts.ofPaths other [path]).output ++
          (Verdicts.ofPaths files after).output

theorem Answered.output_eq {paths : List String}
    (h : Answered files moment args (.validate paths) response) :
    response.output = (Verdicts.ofPaths files paths).output := by
  rw [h.eq_validate, validate_eq]

theorem output_ofPaths_append (before after : List String) :
    (Verdicts.ofPaths files (before ++ after)).output =
      (Verdicts.ofPaths files before).output ++ (Verdicts.ofPaths files after).output := by
  rw [Verdicts.ofPaths_append, Verdicts.append]

theorem oneByOne (files : Files) (moment : String) : OneByOne files moment := by
  constructor
  case response =>
    intro args paths response h
    refine ⟨h.output_eq, ?_⟩
    rw [h.eq_validate, validate_eq]
    simp [Nat.pos_iff_ne_zero]
  case output_append => exact output_ofPaths_append
  case failures_append =>
    intro before after
    rw [Verdicts.ofPaths_append, Verdicts.append]
  case answered_append =>
    intro args args' before after response response' h h'
    have hpaths := request?_validate (h.arePaths.append h'.arePaths)
    refine ⟨_, _, answered_run hpaths, ?_⟩
    rw [h.output_eq, h'.output_eq, ← output_ofPaths_append, (answered_run hpaths).output_eq]
  case failures_eq => exact Verdicts.failures_ofPaths
  case failed_line =>
    intro path
    rw [Verdicts.ofPaths_singleton]
    exact failed_line_iff
  case unaltered =>
    intro other before path after h
    have hbefore : Verdicts.ofPaths other before = Verdicts.ofPaths files before :=
      Verdicts.ofPaths_congr fun p hp => h p (List.mem_append_left after hp)
    have hafter : Verdicts.ofPaths other after = Verdicts.ofPaths files after :=
      Verdicts.ofPaths_congr fun p hp => h p (List.mem_append_right before hp)
    rw [output_ofPaths_append, Verdicts.ofPaths_cons, Verdicts.append, hbefore, hafter,
      String.append_assoc]

/-- An error is the only thing a command reports, if there is one, and it has an exit code of its
own. Files that fail validation are no errors: each has a line of its own among the others, and one
of them is enough for the exit code. -/
theorem responses_spec (files : Files) (moment : String) :
    AllOrNothing files moment ∧ OneByOne files moment :=
  ⟨allOrNothing files moment, oneByOne files moment⟩

end CreditScorecard.CommandLine
