import JavaToGo.Proofs.Draft.Calls
import JavaToGo.Proofs.Lowering.Scopes

/-!
# Carrying scripts out

A clean run is made of clean runs.  Only lowering can change the local names in
view: a boundary throws files away and no names.
-/

namespace JavaToGo

namespace Build

open Draft

variable {α β : Type} {x : Build α} {f : α → Build β} {a : α}

section

variable (mode : Mode) (c : Context) (d : Draft)

lemma runAt_bind (x : Build α) (f : α → Build β) :
    (x >>= f).runAt mode c d
      = match x.runAt mode c d with
        | (.ok a, d') => (f a).runAt mode c d'
        | (.error failure, d') => (.error failure, d') := by
  change (x.bind f).runAt mode c d = _
  induction x generalizing d with
  | done | stop => rfl
  | asking _ ih => exact ih c d f
  | lowering x _ ih =>
    rw [Build.bind, runAt, runAt]
    rcases x.runAt c d.trail with ⟨_ | value, t⟩
    · rfl
    · exact ih value (d.withTrail t) f
  | noting event _ ih => exact ih (d.note event) f
  | adding group decls _ ih => exact ih (d.count group) (d.add group decls) f
  | growing group place grow _ ih => exact ih (d.grow group place grow) f
  | guarding location node body next _ ih =>
    rw [Build.bind, runAt.eq_def, runAt.eq_def mode c (.guarding location node body next)]
    cases mode with
    | strict =>
      dsimp only
      rcases body.runAt .strict c d with ⟨failure | value, d'⟩
      · rfl
      · exact ih (.ok value) d' f
    | tolerant => exact ih _ _ f

@[simp] lemma runAt_lift (x : Outcome α) : (liftM x : Build α).runAt mode c d = (x, d) := by
  cases x <;> rfl

@[simp] lemma runAt_context : context.runAt mode c d = (.ok c, d) :=
  rfl

lemma runAt_lower (x : Lower α) :
    (lower x).runAt mode c d = ((x.runAt c d.trail).1, d.withTrail (x.runAt c d.trail).2) := by
  rw [lower, runAt]
  rcases x.runAt c d.trail with ⟨outcome, t⟩
  cases outcome <;> rfl

@[simp] lemma runAt_addSpec (place : Place) (spec : Code.MethodSpec) :
    (addSpec place spec).runAt mode c d = (.ok (), d.grow .interfaces place (withSpec spec)) :=
  rfl

end

/-- A script that returns has returned at each of its steps. -/
lemma runAt_bind_eq_ok :
    (x >>= f).runAt mode c d = (.ok b, d')
      ↔ ∃ a d₁, x.runAt mode c d = (.ok a, d₁) ∧ (f a).runAt mode c d₁ = (.ok b, d') := by
  rw [runAt_bind]
  rcases x.runAt mode c d with ⟨_ | a, d₁⟩ <;> simp [and_assoc]

lemma runAt_lift_eq_ok {x : Outcome α} :
    (liftM x : Build α).runAt mode c d = (.ok a, d') ↔ x = .ok a ∧ d = d' := by
  rw [runAt_lift, Prod.mk.injEq]

lemma exists_of_bind (h : (x >>= f).runAt mode c d = (.ok b, d')) :
    ∃ a d₁, x.runAt mode c d = (.ok a, d₁) ∧ (f a).runAt mode c d₁ = (.ok b, d') :=
  runAt_bind_eq_ok.1 h

lemma exists_of_lowered {x : Lower α} (h : (lower x).runAt mode c d = (.ok a, d')) :
    ∃ t, x.runAt c d.trail = (.ok a, t) ∧ d' = d.withTrail t := by
  rw [runAt_lower] at h
  rcases hx : x.runAt c d.trail with ⟨outcome, t⟩
  rw [hx] at h
  cases h
  exact ⟨t, rfl, rfl⟩

variable (c : Context)

/-- A tolerant run that returns and reports nothing. -/
structure Clean (x : Build α) (d : Draft) (a : α) (d' : Draft) : Prop where
  returned : x.runAt .tolerant c d = (.ok a, d')
  silent : d'.diagnostics = d.diagnostics

namespace Clean

variable {c}

lemma exists_of_bind (h : Clean c (x >>= f) d b d') :
    ∃ a d₁, Clean c x d a d₁ ∧ Clean c (f a) d₁ b d' := by
  obtain ⟨a, d₁, hx, hf⟩ := Build.exists_of_bind h.returned
  have hfirst : d.diagnostics <+: d₁.diagnostics := by
    have hprefix := diagnostics_isPrefix_runAt (c := c) x d
    rwa [hx] at hprefix
  have hsecond : d₁.diagnostics <+: d'.diagnostics := by
    have hprefix := diagnostics_isPrefix_runAt (c := c) (f a) d₁
    rwa [hf] at hprefix
  -- Diagnostics are only ever added, so none was added in between.
  have hlength : d₁.diagnostics.length ≤ d.diagnostics.length := by
    rw [← h.silent]
    exact hsecond.length_le
  have hmiddle : d.diagnostics = d₁.diagnostics :=
    hfirst.eq_of_length (Nat.le_antisymm hfirst.length_le hlength)
  exact ⟨a, d₁, ⟨hx, hmiddle.symm⟩, ⟨hf, h.silent.trans hmiddle⟩⟩

lemma eq_of_pure (h : Clean c (Pure.pure a) d b d') : b = a ∧ d' = d := by
  cases h.returned
  exact ⟨rfl, rfl⟩

lemma exists_of_lowering {x : Lower α} (h : Clean c (.lowering x f) d b d') :
    ∃ a t, x.runAt c d.trail = (.ok a, t) ∧ Clean c (f a) (d.withTrail t) b d' := by
  obtain ⟨a, d₁, hx, hf⟩ := exists_of_bind (x := lower x) h
  obtain ⟨t, hrun, rfl⟩ := exists_of_lowered hx.returned
  exact ⟨a, t, hrun, hf⟩

lemma exists_of_guarding {f : Except Diagnostic α → Build β}
    (h : Clean c (.guarding location node x f) d b d') :
    ∃ a d₁, Clean c x d.openMember a d₁ ∧ Clean c (f (.ok a)) d₁.merge b d' := by
  obtain ⟨result, d₂, ⟨hrun, hsilent⟩, hf⟩ := exists_of_bind (x := member location node x) h
  rw [member, runAt] at hrun
  rcases hx : x.runAt .tolerant c d.openMember with ⟨outcome, d₁⟩
  rw [hx] at hrun
  cases outcome with
  | ok a =>
    cases hrun
    refine ⟨a, d₁, ⟨hx, ?_⟩, hf⟩
    rw [diagnostics_openMember, ← hsilent]
    exact (diagnostics_merge d₁).symm
  | error failure =>
    cases hrun
    have hprefix := diagnostics_isPrefix_runAt (c := c) x d.openMember
    rw [hx, diagnostics_openMember, ← hsilent, diagnostics_closeMember] at hprefix
    have hle := hprefix.length_le
    rw [List.length_append, List.length_singleton] at hle
    omega

end Clean

end Build

namespace Draft

variable (d : Draft)

@[simp] lemma scopes_modifySink (f : SourceFile → SourceFile) :
    (d.modifySink f).scopes = d.scopes := by
  unfold modifySink
  cases d.staged <;> rfl

@[simp] lemma scopes_add (group : Group) (decls : List Decl) :
    (d.add group decls).scopes = d.scopes :=
  scopes_modifySink d _

@[simp] lemma scopes_merge : d.merge.scopes = d.scopes := by
  unfold merge
  cases d.staged <;> simp

@[simp] lemma scopes_closeMember {α : Type} (location : String) (member : Node)
    (outcome : Except Failure α) :
    (d.closeMember location member outcome).2.scopes = d.scopes := by
  cases outcome with
  | ok => exact scopes_merge d
  | error => rfl

end Draft

/-- A piece of Java that a run lowers. -/
structure Step where
  piece : (β : Type) × Lower β
  before : Trail

namespace Step

variable (c : Context) (step : Step)

def run : Except Failure step.piece.1 × Trail :=
  step.piece.2.runAt c step.before

/-- The piece cannot be lowered. -/
def Failed : Prop :=
  ∃ failure, (step.run c).1 = .error failure

/-- The names in view are not the same afterwards. -/
def ChangesScopes : Prop :=
  (step.run c).2.scopes ≠ step.before.scopes

end Step

namespace Build

variable (c : Context)

/-- Every piece of Java that a tolerant run lowers, with the trail before, in order. -/
def steps {α : Type} : Build α → Draft → List Step
  | .done _, _ => []
  | .stop _, _ => []
  | .asking next, d => (next c).steps d
  | .lowering x next, d =>
    ⟨⟨_, x⟩, d.trail⟩ ::
      match x.runAt c d.trail with
      | (.ok value, t) => (next value).steps (d.withTrail t)
      | (.error _, _) => []
  | .noting event next, d => next.steps (d.note event)
  | .adding group decls next, d => (next (d.count group)).steps (d.add group decls)
  | .growing group place grow next, d => next.steps (d.grow group place grow)
  | .guarding location node body next, d =>
    let outcome := body.runAt .tolerant c d.openMember
    let closed := outcome.2.closeMember location node outcome.1
    body.steps d.openMember ++ (next closed.1).steps closed.2

end Build

section

variable (c : Context)

/-- Each step begins with the names in view that the one before leaves. -/
def Chained : List Step → List Scope → List Scope → Prop
  | [], scopes, scopes' => scopes' = scopes
  | step :: steps, scopes, scopes' =>
    step.before.scopes = scopes ∧ Chained steps (step.run c).2.scopes scopes'

variable {c} {allowed : String → Prop}

section

variable (h : Chained c steps scopes scopes')
include h

lemma Chained.append (h' : Chained c steps' scopes' scopes'')
    : Chained c (steps ++ steps') scopes scopes'' := by
  induction steps generalizing scopes with
  | nil =>
    obtain rfl : scopes' = scopes := h
    exact h'
  | cons step steps ih => exact ⟨h.1, ih h.2⟩

section

variable (hsteps : ∀ step ∈ steps, Grows allowed step.before.scopes (step.run c).2.scopes)
include hsteps

lemma Chained.grows : Grows allowed scopes scopes' := by
  induction steps generalizing scopes with
  | nil =>
    obtain rfl : scopes' = scopes := h
    exact .refl _
  | cons step steps ih =>
    obtain ⟨rfl, hrest⟩ := h
    obtain ⟨hfirst, hlater⟩ := List.forall_mem_cons.1 hsteps
    exact hfirst.trans (ih hrest hlater)

lemma Chained.eq_iff : scopes' = scopes ↔ ∀ step ∈ steps, ¬ step.ChangesScopes c := by
  induction steps generalizing scopes with
  | nil =>
    obtain rfl : scopes' = scopes := h
    simp
  | cons step steps ih =>
    obtain ⟨rfl, hrest⟩ := h
    obtain ⟨hfirst, hlater⟩ := List.forall_mem_cons.1 hsteps
    rw [hfirst.eq_iff_of_grows (hrest.grows hlater), List.forall_mem_cons, ih hrest hlater,
      Step.ChangesScopes, Decidable.not_not]

end

end

end

namespace Build

variable {α : Type}

lemma chained_steps (x : Build α) (d : Draft) :
    Chained c (x.steps c d) d.scopes (x.runAt .tolerant c d).2.scopes := by
  induction x generalizing d with
  | done | stop => exact rfl
  | asking _ ih => exact ih c d
  | lowering x _ ih =>
    rw [steps, runAt, Chained, Step.run]
    refine ⟨rfl, ?_⟩
    rcases x.runAt c d.trail with ⟨_ | value, t⟩
    · exact rfl
    · exact ih value (d.withTrail t)
  | noting event _ ih => exact ih (d.note event)
  | adding group decls _ ih =>
    have h := ih (d.count group) (d.add group decls)
    rwa [Draft.scopes_add] at h
  | growing group place grow _ ih => exact ih (d.grow group place grow)
  | guarding location node body _ ihBody ihNext =>
    refine (ihBody d.openMember).append ?_
    rw [← Draft.scopes_closeMember _ location node (body.runAt .tolerant c d.openMember).1]
    exact ihNext _ _

end Build

namespace Call

variable (c : Context) (call : Call)

/-- What is lowered between the boundaries of a member. -/
def steps : List Step :=
  call.body.2.steps c call.before.openMember

variable {call}

lemma chained_steps : Chained c (call.steps c) call.before.scopes (call.after c).scopes := by
  rw [after, Draft.scopes_closeMember]
  exact Build.chained_steps call.body.2 call.before.openMember

end Call

end JavaToGo
