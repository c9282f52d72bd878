import CreditScorecard.CommandLine.Arguments

/-! # The operands of a command line

Options leave the operands alone, and no operand is empty. So the paths that `validate` is given are
paths that it can be given again, in any number and after `--`.
-/

namespace CreditScorecard.CommandLine

variable {known : List OptionName} {most? : Option Nat} {p q : Parsed} {o : OptionName}

/-! ## Options -/

theorem Parsed.operands_add {value : String} (h : p.add o value = some q) :
    q.operands = p.operands := by
  unfold Parsed.add at h
  split at h
  · cases h
  · cases h
    rfl

/-- Reading an option leaves the operands as they are, unless it asks for something else. -/
def Progress.KeepsOperands (p : Parsed) : Progress → Prop
  | .done q | .awaiting q _ => q.operands = p.operands
  | .answer r => ∀ verbose command, r ≠ .run verbose command

theorem keepsOperands_of_add {value : String} {progress : Progress}
    (h : (p.add o value).map .done = some progress) : progress.KeepsOperands p := by
  obtain ⟨q, hq, rfl⟩ := Option.map_eq_some_iff.mp h
  exact Parsed.operands_add hq

theorem keepsOperands_readNamed {arg : List Char} {progress : Progress}
    (h : readNamed known p arg = some progress) : progress.KeepsOperands p := by
  simp only [readNamed, Option.bind_eq_bind, Option.bind_eq_some_iff] at h
  obtain ⟨o, -, h⟩ := h
  split at h
  · split at h
    · exact keepsOperands_of_add h
    · cases h
  · split at h
    · cases h
      rfl
    · split at h
      · cases h
        simp [Progress.KeepsOperands]
      · split at h
        · cases h
          simp [Progress.KeepsOperands]
        · exact keepsOperands_of_add h

theorem keepsOperands_readLetters {letters : List Char} {progress : Progress}
    (h : readLetters known p letters = some progress) : progress.KeepsOperands p := by
  induction letters generalizing p with
  | nil =>
      cases h
      rfl
  | cons c cs ih =>
      simp only [readLetters, Option.bind_eq_bind, Option.bind_eq_some_iff] at h
      obtain ⟨o, -, h⟩ := h
      split at h
      · split at h
        · cases h
          rfl
        · exact keepsOperands_of_add h
        · exact keepsOperands_of_add h
      · split at h
        · cases h
          simp [Progress.KeepsOperands]
        · split at h
          · cases h
            simp [Progress.KeepsOperands]
          · obtain ⟨q, hq, h⟩ := Option.bind_eq_some_iff.mp h
            have hrest := ih h
            unfold Progress.KeepsOperands at hrest ⊢
            rwa [Parsed.operands_add hq] at hrest

theorem keepsOperands_readOption {arg : List Char} {progress : Progress}
    (h : readOption known p arg = some progress) : progress.KeepsOperands p := by
  unfold readOption at h
  split at h
  · exact keepsOperands_readNamed h
  · exact keepsOperands_readLetters h

/-! ## Operands -/

/-- No operand is empty. -/
def Parsed.Named (p : Parsed) : Prop :=
  ∀ operand ∈ p.operands, operand.isEmpty = false

theorem named_empty : ({} : Parsed).Named := by
  simp [Parsed.Named]

theorem Parsed.Named.of_operands_eq (hp : p.Named) (h : q.operands = p.operands) : q.Named := by
  rw [Named, h]
  exact hp

theorem Parsed.Named.addOperands {args : List String} (hp : p.Named)
    (h : addOperands most? p args = some q) : q.Named := by
  simp only [CommandLine.addOperands, Option.ite_none_left_eq_some, not_or, List.any_eq_true,
    not_exists, not_and, Bool.not_eq_true] at h
  obtain ⟨⟨hnew, -⟩, hq⟩ := h
  cases hq
  intro operand hmem
  rcases List.mem_append.mp hmem with hold | hadded
  · exact hp operand hold
  · exact hnew operand hadded

/-- What reading the arguments of a command comes to: operands with names, or another request. -/
def IsReading : Except Request Parsed → Prop
  | .ok q => q.Named
  | .error r => ∀ verbose command, r ≠ .run verbose command

/-- After one argument, or an option and its value, the rest is read in the same way. -/
theorem readArguments_cons {arg : String} {args : List String} {result : Except Request Parsed}
    (hp : p.Named) (h : readArguments known most? p (arg :: args) = some result) :
    IsReading result ∨ ∃ p' rest, rest.length ≤ args.length ∧ p'.Named ∧
      readArguments known most? p' rest = some result := by
  rw [readArguments] at h
  split at h
  · obtain ⟨q', hq, rfl⟩ := Option.map_eq_some_iff.mp h
    exact .inl (hp.addOperands hq)
  · split at h
    · obtain ⟨progress, hprogress, h⟩ := Option.bind_eq_some_iff.mp h
      have hkeeps := keepsOperands_readOption hprogress
      cases progress with
      | done p' => exact .inr ⟨p', args, Nat.le_refl _, hp.of_operands_eq hkeeps, h⟩
      | answer r =>
          cases h
          exact .inl hkeeps
      | awaiting p' o =>
          cases args with
          | nil => cases h
          | cons value rest =>
              simp only [Option.ite_none_left_eq_some] at h
              obtain ⟨p'', hadd, h⟩ := Option.bind_eq_some_iff.mp h.2
              refine .inr ⟨p'', rest, Nat.le_succ _, ?_, h⟩
              exact hp.of_operands_eq ((Parsed.operands_add hadd).trans hkeeps)
    · obtain ⟨p', hadd, h⟩ := Option.bind_eq_some_iff.mp h
      exact .inr ⟨p', args, Nat.le_refl _, hp.addOperands hadd, h⟩

theorem isReading_readArguments {args : List String} {result : Except Request Parsed}
    (hp : p.Named) (h : readArguments known most? p args = some result) : IsReading result := by
  induction hlength : args.length using Nat.strongRecOn generalizing args p with
  | ind n ih =>
      cases args with
      | nil =>
          cases h
          exact hp
      | cons arg args =>
          rcases readArguments_cons hp h with hresult | ⟨p', rest, hrest, hp', h⟩
          · exact hresult
          · apply ih rest.length _ hp' h rfl
            rw [← hlength]
            exact Nat.lt_succ_of_le hrest

/-! ## The paths of `validate` -/

/-- Paths that can be validated. -/
def ArePaths (paths : List String) : Prop :=
  paths ≠ [] ∧ ∀ path ∈ paths, path.isEmpty = false

theorem ArePaths.append {before after : List String} (h : ArePaths before) (h' : ArePaths after) :
    ArePaths (before ++ after) := by
  refine ⟨by simp [h.1], ?_⟩
  intro path hmem
  rcases List.mem_append.mp hmem with hbefore | hafter
  · exact h.2 path hbefore
  · exact h'.2 path hafter

/-- A command is made of the options and operands that are read. -/
theorem exists_named_of_run {args : List String} {command : Parsed → Option Command}
    {verbose : Parsed → Bool} {verbose' : Bool} {c : Command}
    (h : (readArguments known most? {} args).bind (fun
      | .error r => some r
      | .ok p => (command p).bind fun c => some (.run (verbose p) c)) = some (.run verbose' c)) :
    ∃ p, p.Named ∧ command p = some c := by
  obtain ⟨result, hread, h⟩ := Option.bind_eq_some_iff.mp h
  have hreading := isReading_readArguments named_empty hread
  cases result with
  | error r =>
      cases h
      exact absurd rfl (hreading verbose' c)
  | ok p =>
      obtain ⟨c', hcommand, h⟩ := Option.bind_eq_some_iff.mp h
      cases h
      exact ⟨p, hreading, hcommand⟩

theorem arePaths_of_readCommand {verbose verbose' : Bool} {name : String} {args paths : List String}
    (h : readCommand verbose name args = some (.run verbose' (.validate paths))) :
    ArePaths paths := by
  unfold readCommand at h
  split at h
  case h_1 =>
    obtain ⟨p, -, hcommand⟩ := exists_named_of_run h
    obtain ⟨scorecard, -, hcommand⟩ := Option.bind_eq_some_iff.mp hcommand
    cases hcommand
  case h_2 =>
    obtain ⟨p, hp, hcommand⟩ := exists_named_of_run h
    obtain ⟨hne, hcommand⟩ := Option.ite_none_left_eq_some.mp hcommand
    cases hcommand
    exact ⟨by simpa using hne, hp⟩
  case h_3 =>
    obtain ⟨p, -, hcommand⟩ := exists_named_of_run h
    obtain ⟨scorecard, -, hcommand⟩ := Option.bind_eq_some_iff.mp hcommand
    cases hcommand
  case h_4 =>
    split at h <;> cases h
  case h_5 =>
    cases h

theorem arePaths_of_request {args paths : List String} {verbose : Bool}
    (h : request? args = some (.run verbose (.validate paths))) : ArePaths paths := by
  unfold request? at h
  generalize ({} : Parsed) = p at h
  induction args generalizing p with
  | nil => cases h
  | cons arg args ih =>
      rw [readRequest] at h
      split at h
      · cases h
      · split at h
        · obtain ⟨progress, hprogress, h⟩ := Option.bind_eq_some_iff.mp h
          have hkeeps := keepsOperands_readOption hprogress
          cases progress with
          | done q => exact ih q h
          | answer r =>
              cases h
              exact absurd rfl (hkeeps verbose (.validate paths))
          | awaiting => cases h
        · exact arePaths_of_readCommand h

theorem addOperands_of_arePaths {paths : List String} (h : ArePaths paths) :
    addOperands none {} paths = some { operands := paths } := by
  have hnone : paths.any (·.isEmpty) = false := by
    simpa using h.2
  simp [addOperands, hnone]

/-- Paths that follow `--` are validated as they are. -/
theorem request?_validate {paths : List String} (h : ArePaths paths) :
    request? ("validate" :: "--" :: paths) = some (.run false (.validate paths)) := by
  have hname : looksLikeOption "validate".toList = false := by decide
  have hread : readArguments [.verbose, .help] none {} ("--" :: paths) =
      some (.ok { operands := paths }) := by
    rw [readArguments, if_pos rfl, addOperands_of_arePaths h]
    rfl
  rw [request?, readRequest, if_neg (by decide), hname]
  simp [readCommand, hread, h.1, Parsed.has]

end CreditScorecard.CommandLine
