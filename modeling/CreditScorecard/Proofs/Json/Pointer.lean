import CreditScorecard.Proofs.Text.Digits
import CreditScorecard.Proofs.Text.Pieces
import CreditScorecard.Schema.Basic

/-! # JSON pointers

A pointer is read as RFC 6901 has it: its text is divided at the slashes, and each token names a
member or numbers an item. The pointer of a path is read back as the path. One pointer lies under
another if their tokens begin alike, which can be told from the texts.
-/

namespace CreditScorecard.Json

/-! ## Tokens -/

/-- The name of a member as it is written in a pointer. -/
def escapeName (name : List Char) : List Char :=
  name.flatMap fun c => if c = '~' then ['~', '0'] else if c = '/' then ['~', '1'] else [c]

def unescapeName : List Char → List Char
  | '~' :: '0' :: cs => '~' :: unescapeName cs
  | '~' :: '1' :: cs => '/' :: unescapeName cs
  | c :: cs => c :: unescapeName cs
  | [] => []

theorem unescapeName_cons {c : Char} (h : c ≠ '~') (cs : List Char) :
    unescapeName (c :: cs) = c :: unescapeName cs := by
  rw [unescapeName] <;> simp [h]

theorem unescapeName_escapeName (name : List Char) : unescapeName (escapeName name) = name := by
  induction name with
  | nil => rfl
  | cons c cs ih =>
      rw [escapeName, List.flatMap_cons, ← escapeName]
      split
      · simp [unescapeName, *]
      · split
        · simp [unescapeName, *]
        · rename_i hc _
          rw [List.singleton_append, unescapeName_cons hc, ih]

theorem slash_not_mem_escapeName (name : List Char) : '/' ∉ escapeName name := by
  intro h
  obtain ⟨c, -, hc⟩ := List.mem_flatMap.mp h
  split at hc
  · simp at hc
  · split at hc
    · simp at hc
    · rename_i hslash
      exact hslash (List.mem_singleton.mp hc).symm

/-- What stands for a step between the slashes. -/
def Step.token : Step → List Char
  | .key name => escapeName name.toList
  | .index i => Nat.toDigits 10 i

theorem Step.text_eq (step : Step) : step.text = '/' :: step.token := by
  cases step <;> rfl

theorem Step.slash_not_mem_token (step : Step) : '/' ∉ step.token := by
  cases step with
  | key name => exact slash_not_mem_escapeName name.toList
  | index i => exact fun h => Text.ne_of_isDigit (Text.isDigit_of_mem_toDigits h) (by decide) rfl

theorem Step.token_key_inj {a b : String} : (key a).token = (key b).token ↔ a = b := by
  constructor
  · intro h
    have hunescaped := congrArg unescapeName h
    rwa [token, token, unescapeName_escapeName, unescapeName_escapeName,
      String.toList_inj] at hunescaped
  · rintro rfl
    rfl

theorem Step.token_index_inj {i j : Nat} : (index i).token = (index j).token ↔ i = j := by
  constructor
  · intro h
    have hread := congrArg (Nat.ofDigitChars 10 · 0) h
    simpa [token] using hread
  · rintro rfl
    rfl

/-! ## Resolving -/

/-- The number that a token is the decimal form of. -/
def readIndex? (token : List Char) : Option Nat :=
  let i := Nat.ofDigitChars 10 token 0
  if Nat.toDigits 10 i = token then some i else none

/-- The part of a value that one token refers to. -/
def refer? : Json → List Char → Option Json
  | .object members, token => members.lookup (String.ofList (unescapeName token))
  | .list items, token => (readIndex? token).bind (items[·]?)
  | _, _ => none

/-- The part of a value that a pointer refers to. A pointer is empty or begins with a slash. -/
def resolve? (v : Json) (pointer : String) : Option Json :=
  match Text.splitAt '/' pointer.toList with
  | [] :: tokens => tokens.foldlM refer? v
  | _ => none

theorem readIndex?_toDigits (i : Nat) : readIndex? (Nat.toDigits 10 i) = some i := by
  simp [readIndex?]

theorem splitAt_token_append (step : Step) (path : List Step) :
    Text.splitAt '/' (step.token ++ path.flatMap Step.text) =
      step.token :: path.map Step.token := by
  have htoken : ∀ step : Step, Text.splitAt '/' step.token = [step.token] := by
    intro step
    apply Text.splitAt_of_forall_ne
    rintro c hc rfl
    exact step.slash_not_mem_token hc
  induction path generalizing step with
  | nil => simp [htoken]
  | cons next path ih =>
      rw [List.flatMap_cons, Step.text_eq, List.cons_append, Text.splitAt_append_cons, htoken, ih]
      rfl

theorem splitAt_pointer (path : List Step) :
    Text.splitAt '/' (pointer path).toList = [] :: path.map Step.token := by
  rw [pointer, String.toList_ofList]
  cases path with
  | nil => rfl
  | cons step path =>
      rw [List.flatMap_cons, Step.text_eq, List.cons_append, Text.splitAt, if_pos rfl,
        splitAt_token_append, List.map_cons]

theorem foldlM_refer?_of_part? {v part : Json} {path : List Step} (h : v.part? path = some part) :
    (path.map Step.token).foldlM refer? v = some part := by
  induction path generalizing v with
  | nil => rwa [part?] at h
  | cons step path ih =>
      rw [List.map_cons, List.foldlM_cons]
      cases v with
      | object members =>
          cases step with
          | key name =>
              rw [part?, Option.bind_eq_some_iff] at h
              obtain ⟨member, hmember, hpart⟩ := h
              simp [refer?, Step.token, unescapeName_escapeName, hmember, ih hpart]
          | index i => simp [part?] at h
      | list items =>
          cases step with
          | key name => simp [part?] at h
          | index i =>
              rw [part?, Option.bind_eq_some_iff] at h
              obtain ⟨item, hitem, hpart⟩ := h
              simp [refer?, Step.token, readIndex?_toDigits, hitem, ih hpart]
      | _ => simp [part?] at h

/-- The pointer of a path refers to the part at the end of the path. -/
theorem resolve?_pointer {v part : Json} {path : List Step} (h : v.part? path = some part) :
    v.resolve? (pointer path) = some part := by
  rw [resolve?, splitAt_pointer]
  exact foldlM_refer?_of_part? h

/-! ## Pointers under a pointer -/

/-- The pointer is the base, or it goes on behind it with another token. -/
def liesUnder (base pointer : String) : Bool :=
  pointer = base || (base ++ "/").toList.isPrefixOf pointer.toList

theorem liesUnder_iff {base pointer : String} :
    liesUnder base pointer = true ↔
      ∃ rest, pointer.toList = base.toList ++ rest ∧ Text.Stops (· != '/') rest := by
  rw [liesUnder, Bool.or_eq_true, decide_eq_true_eq, List.isPrefixOf_iff_prefix]
  constructor
  · rintro (rfl | ⟨rest, hrest⟩)
    · exact ⟨[], (List.append_nil _).symm, Text.stops_nil _⟩
    · exact ⟨'/' :: rest, by simp [← hrest], by simp⟩
  · rintro ⟨rest, hpointer, hrest⟩
    cases rest with
    | nil => exact .inl (by simpa [← String.toList_inj] using hpointer)
    | cons c rest =>
        obtain rfl : c = '/' := by simpa using hrest
        exact .inr ⟨rest, by simp [hpointer]⟩

theorem stops_flatMap_text (path : List Step) : Text.Stops (· != '/') (path.flatMap Step.text) := by
  cases path with
  | nil => simp
  | cons step path => simp [Step.text_eq]

theorem Step.token_ne_slash (step : Step) : ∀ c ∈ step.token, (c != '/') = true := by
  intro c hc
  rw [bne_iff_ne]
  rintro rfl
  exact step.slash_not_mem_token hc

/-- The first tokens are the same, and the rest of the pointer lies under the rest of the base. -/
theorem liesUnder_cons_iff {a b : Step} {base path : List Step} :
    liesUnder (pointer (a :: base)) (pointer (b :: path)) = true ↔
      a.token = b.token ∧ liesUnder (pointer base) (pointer path) = true := by
  simp only [liesUnder_iff, pointer, String.toList_ofList, List.flatMap_cons, Step.text_eq,
    List.cons_append, List.cons.injEq, true_and, List.append_assoc]
  constructor
  · rintro ⟨rest, heq, hrest⟩
    have hpath := stops_flatMap_text path
    have hbase : Text.Stops (· != '/') (base.flatMap Step.text ++ rest) :=
      (stops_flatMap_text base).append hrest
    have htake := congrArg (List.takeWhile (· != '/')) heq
    have hdrop := congrArg (List.dropWhile (· != '/')) heq
    rw [Text.takeWhile_append_of_stops b.token_ne_slash hpath,
      Text.takeWhile_append_of_stops a.token_ne_slash hbase] at htake
    rw [Text.dropWhile_append_of_stops b.token_ne_slash hpath,
      Text.dropWhile_append_of_stops a.token_ne_slash hbase] at hdrop
    exact ⟨htake.symm, rest, hdrop, hrest⟩
  · rintro ⟨htoken, rest, heq, hrest⟩
    exact ⟨rest, by rw [htoken, heq], hrest⟩

theorem liesUnder_nil (path : List Step) : liesUnder (pointer []) (pointer path) = true :=
  liesUnder_iff.mpr ⟨path.flatMap Step.text, by simp [pointer], stops_flatMap_text path⟩

theorem not_liesUnder_nil (step : Step) (base : List Step) :
    ¬liesUnder (pointer (step :: base)) (pointer []) = true := by
  rw [liesUnder_iff]
  rintro ⟨rest, hrest, -⟩
  simp [pointer, Step.text_eq] at hrest

end CreditScorecard.Json
