import JavaToGo.Proofs.Conversion.Failures

/-!
# What a member leaves in view

A boundary throws away what a member has written and not what it has declared.
Functions have scopes of their own; the values of fields and the arguments of
constants have none.
-/

namespace JavaToGo

/-- The step is refused after an outer value that binds the name has changed the names in view. -/
def Step.Leaks (c : Context) (step : Step) (name : String) : Prop :=
  (∃ value : OuterValue, step.piece = value.piece ∧ value.BindsName name)
    ∧ step.Failed c ∧ step.ChangesScopes c

lemma Build.Piece.grows {step : Step} {marks : step.piece.1 → Nat}
    (h : Piece T step.piece.2 marks) :
    Grows (step.Leaks c) step.before.scopes (step.run c).2.scopes := by
  obtain ⟨⟨β, x⟩, before⟩ := step
  have hsteady : x.Steady → Grows (Step.Leaks c ⟨⟨β, x⟩, before⟩) before.scopes
      (x.runAt c before).2.scopes := by
    intro hsteady
    rw [hsteady c before]
    exact .refl _
  cases h with
  | asks hx | function hx => exact hsteady hx.steady
  | value v =>
    obtain ⟨hgrows, hlowered⟩ := v.binds c before
    by_cases hsame : (v.piece.2.runAt c before).2.scopes = before.scopes
    · rw [Step.run, hsame]
      exact .refl _
    refine hgrows.mono fun name hname => ⟨⟨v, rfl, hname⟩, ?_, hsame⟩
    cases houtcome : (v.piece.2.runAt c before).1 with
    | ok a => exact (hlowered a houtcome (.inr hsame)).elim
    | error failure => exact ⟨failure, houtcome⟩

section

variable {unit : CompilationUnit} {call : Call}

/-- For every member that is handed to a boundary of a tolerant conversion, whether it fails or
not: the names that come into view are those that values of fields and constants leak; every other
name is local afterwards exactly when it was before; and the scopes are what they were exactly when
no name is leaked. -/
theorem scopes_after_iff (hcall : call ∈ unit.calls) :
    Grows (fun name => ∃ step ∈ call.steps unit.context, step.Leaks unit.context name)
      call.before.scopes (call.after unit.context).scopes
      ∧ (∀ name, (∀ step ∈ call.steps unit.context, ¬ step.Leaks unit.context name) →
          inScopes (call.after unit.context).scopes name = inScopes call.before.scopes name)
      ∧ ((call.after unit.context).scopes = call.before.scopes
          ↔ ∀ step ∈ call.steps unit.context, ∀ name, ¬ step.Leaks unit.context name) := by
  obtain ⟨held, -, -, horderly⟩ := careful_of_mem_calls hcall
  have hchained := call.chained_steps unit.context
  have hsteps : ∀ step ∈ call.steps unit.context,
      Grows (fun name => ∃ step ∈ call.steps unit.context,
        step.Leaks unit.context name)
        step.before.scopes (step.run unit.context).2.scopes := by
    intro step hstep
    obtain ⟨marks, hpiece⟩ := horderly.piece_of_mem_steps hstep
    exact hpiece.grows.mono fun _ h => ⟨step, hstep, h⟩
  have hgrows := hchained.grows hsteps
  refine ⟨hgrows, fun name hnone => hgrows.inScopes_eq ?_, fun hsame step hstep name hleaks => ?_,
    fun hnone => hgrows.eq_of_forall_not ?_⟩
  · rintro ⟨step, hstep, hleaks⟩
    exact hnone step hstep hleaks
  · exact (hchained.eq_iff hsteps).1 hsame step hstep hleaks.2.2
  · rintro name ⟨step, hstep, hleaks⟩
    exact hnone step hstep name hleaks

end

/-- The field `static boolean b = o instanceof Foo RED;`, whose value needs a statement. -/
def patternField : Node :=
  .tree 3 .fieldDeclaration
    [.tree 4 .modifiers [.leaf 5 .staticWord "static"],
     .plain 6 .booleanType (some "type") "boolean" [],
     .plain 7 .variableDeclarator (some "declarator") ""
       [.called 8 "b",
        .plain 9 .instanceOf (some "value") ""
          [.plain 10 .identifier (some "left") "o" [],
           .plain 11 .typeIdentifier (some "right") "Foo" [],
           .called 12 "RED"]]]

def patternUnit : CompilationUnit where
  root := .tree 100 .program [.plainClass 0 [] "A" [] [patternField]]

def fieldCall : Call :=
  patternUnit.calls.head (by decide +kernel)

lemma fieldCall_mem : fieldCall ∈ patternUnit.calls :=
  List.head_mem _

theorem scopes_after_iff_fieldCall :
    fieldCall ∈ patternUnit.calls
      ∧ Grows (fun name => ∃ step ∈ fieldCall.steps patternUnit.context,
          step.Leaks patternUnit.context name)
        fieldCall.before.scopes (fieldCall.after patternUnit.context).scopes
      ∧ (∀ name, (∀ step ∈ fieldCall.steps patternUnit.context,
            ¬ step.Leaks patternUnit.context name) →
          inScopes (fieldCall.after patternUnit.context).scopes name
            = inScopes fieldCall.before.scopes name)
      ∧ ((fieldCall.after patternUnit.context).scopes = fieldCall.before.scopes
          ↔ ∀ step ∈ fieldCall.steps patternUnit.context, ∀ name,
            ¬ step.Leaks patternUnit.context name) :=
  ⟨fieldCall_mem, scopes_after_iff fieldCall_mem⟩

/-- The field that is refused leaves the name of its pattern in view. -/
theorem fieldCall_leaves_name :
    ∃ call ∈ patternUnit.calls, call.Failed patternUnit.context
      ∧ inScopes call.before.scopes "RED" = false
      ∧ inScopes (call.after patternUnit.context).scopes "RED" = true := by
  refine ⟨fieldCall, fieldCall_mem, ?_, by decide +kernel, by decide +kernel⟩
  exact (fieldCall.failed_iff_isSome_diagnostic? _).2 (by decide +kernel)

end JavaToGo
