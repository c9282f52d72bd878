import CreditScorecard.Proofs.Json.Members
import CreditScorecard.Yaml.Read

/-! # Objects read from YAML have distinct keys -/

namespace CreditScorecard.Yaml

open Json

/-! ## Scalars -/

theorem distinctKeys_integerValue? {cs : List Char} {v : Json}
    (h : integerValue? cs = some (some v)) : DistinctKeys v := by
  unfold integerValue? at h
  split at h
  · cases h
  · split at h
    · cases h
      exact .number _
    · cases h
    · cases h

theorem distinctKeys_floatValue? {cs : List Char} {v : Json} (h : floatValue? cs = some v) :
    DistinctKeys v := by
  obtain ⟨x?, _, rfl⟩ := Option.map_eq_some_iff.mp h
  cases x? with
  | none => exact .null
  | some x =>
      simp only [Option.map_some, Option.getD_some, Json.ofBinary64]
      split
      · exact .number _
      · exact .null

theorem distinctKeys_plainValue? {cs : List Char} {v : Json} (h : plainValue? cs = some v) :
    DistinctKeys v := by
  simp only [plainValue?] at h
  split at h
  · cases h
    exact .null
  · split at h
    · cases h
      exact .boolean _
    · split at h
      · rename_i hvalue
        rw [h] at hvalue
        exact distinctKeys_integerValue? hvalue
      · split at h
        · cases h
          exact .text _
        · cases h
          cases hfloat : floatValue? cs with
          | none => exact .text _
          | some w => exact distinctKeys_floatValue? hfloat

theorem distinctKeys_scalarValue? {tag : Option Tag} {plain : Bool} {cs : List Char} {v : Json}
    (h : scalarValue? tag plain cs = some v) : DistinctKeys v := by
  have huntagged : (if plain then plainValue? cs else some (.text (String.ofList cs))) = some v →
      DistinctKeys v := by
    intro h
    split at h
    · exact distinctKeys_plainValue? h
    · cases h
      exact .text _
  simp only [scalarValue?] at h
  split at h
  · exact huntagged h
  · obtain ⟨b, _, rfl⟩ := Option.map_eq_some_iff.mp h
    exact .boolean b
  · obtain ⟨v?, hvalue, rfl⟩ := Option.bind_eq_some_iff.mp h
    exact distinctKeys_integerValue? hvalue
  · exact distinctKeys_floatValue? h
  · split at h
    · cases h
      exact .null
    · cases h
  · cases h
  · exact huntagged h
  · cases h
    exact .text _

/-! ## Collections -/

/-- Whatever a step yields has a property, whatever number of aliases may still be followed. -/
def Yields {α : Type} (step : Expansion α) (P : α → Prop) : Prop :=
  ∀ jumps a rest, step.run jumps = some (a, rest) → P a

theorem Yields.of_true {α : Type} (step : Expansion α) : Yields step fun _ => True :=
  fun _ _ _ _ => trivial

theorem Yields.pure {α : Type} {P : α → Prop} {a : α} (h : P a) :
    Yields (Pure.pure a) P := by
  intro jumps b rest hrun
  cases hrun
  exact h

theorem Yields.failure {α : Type} {P : α → Prop} : Yields (Alternative.failure : Expansion α) P :=
  fun _ _ _ hrun => nomatch hrun

theorem Yields.bind {α β : Type} {step : Expansion α} {next : α → Expansion β} {Q : α → Prop}
    {P : β → Prop} (hstep : Yields step Q) (hnext : ∀ a, Q a → Yields (next a) P) :
    Yields (step >>= next) P := by
  intro jumps b rest hrun
  rw [StateT.run_bind, Option.bind_eq_bind, Option.bind_eq_some_iff] at hrun
  obtain ⟨⟨a, jumps'⟩, ha, hb⟩ := hrun
  exact hnext a (hstep jumps a jumps' ha) jumps' b rest hb

theorem Yields.mapM {α β : Type} {f : α → Expansion β} {P : β → Prop}
    (h : ∀ item, Yields (f item) P) (items : List α) :
    Yields (items.mapM f) fun values => ∀ v ∈ values, P v := by
  induction items with
  | nil => exact .pure (by simp)
  | cons item items ih =>
      rw [List.mapM_cons]
      refine (h item).bind fun v hv => ih.bind fun vs hvs => .pure ?_
      exact List.forall_mem_cons.mpr ⟨hv, hvs⟩

theorem yields_scalar (tag : Option Tag) (plain : Bool) (cs : List Char) :
    Yields (StateT.lift (scalarValue? tag plain cs)) DistinctKeys := by
  intro jumps v rest hrun
  obtain ⟨w, hw, ⟨⟩⟩ := Option.bind_eq_some_iff.mp hrun
  exact distinctKeys_scalarValue? hw

theorem yields_expand (anchored : List (Nat × Node)) (room : Nat) (node : Node) :
    Yields (expand anchored room node) DistinctKeys := by
  induction room generalizing node with
  | zero =>
      unfold expand
      refine (Yields.of_true _).bind fun node' _ => ?_
      cases node' with
      | scalar properties plain text => exact yields_scalar _ _ _
      | _ => exact .failure
  | succ room ih =>
      unfold expand
      refine (Yields.of_true _).bind fun node' _ => ?_
      cases node' with
      | scalar properties plain text => exact yields_scalar _ _ _
      | sequence properties items =>
          simp only
          split
          · refine (Yields.mapM ih items).bind fun values hvalues => .pure ?_
            exact .list hvalues
          · exact .failure
      | mapping properties entries =>
          simp only
          split
          · refine (Yields.mapM (P := fun member => DistinctKeys member.2) ?_ entries).bind
              fun members hmembers => .pure ?_
            · intro entry
              refine (Yields.of_true _).bind fun key _ => (ih entry.2).bind fun v hv => ?_
              exact .pure hv
            · exact distinctKeys_sortMembers hmembers
          · exact .failure
      | _ => exact .failure

/-- A value read from YAML has distinct keys throughout. -/
theorem distinctKeys_read? {text : String} {v : Json} (h : read? text = some v) :
    DistinctKeys v := by
  unfold read? at h
  obtain ⟨tokens, _, h⟩ := Option.bind_eq_some_iff.mp h
  obtain ⟨node?, _, h⟩ := Option.bind_eq_some_iff.mp h
  cases node? with
  | none =>
      cases h
      exact .null
  | some node =>
      obtain ⟨⟨value, rest⟩, hrun, ⟨⟩⟩ := Option.bind_eq_some_iff.mp h
      exact yields_expand _ _ _ _ _ _ hrun

end CreditScorecard.Yaml
