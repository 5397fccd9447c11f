import JavaToGo.Proofs.Draft.Stack

/-!
# The members that a run hands to boundaries

A call stands behind the calls made inside it: lists are in the order in which
calls end.
-/

namespace JavaToGo

open List Draft

namespace Draft

variable (d : Draft)

@[simp] lemma diagnostics_withTrail (t : Trail) : (d.withTrail t).diagnostics = d.diagnostics :=
  rfl

@[simp] lemma diagnostics_modifySink (f : Code.SourceFile → Code.SourceFile) :
    (d.modifySink f).diagnostics = d.diagnostics := by
  unfold modifySink
  cases d.staged <;> rfl

@[simp] lemma diagnostics_add (g : Code.Group) (decls : List Code.Decl) :
    (d.add g decls).diagnostics = d.diagnostics :=
  diagnostics_modifySink d _

@[simp] lemma diagnostics_openMember : d.openMember.diagnostics = d.diagnostics :=
  rfl

@[simp] lemma diagnostics_merge : d.merge.diagnostics = d.diagnostics := by
  unfold merge
  cases d.staged <;> simp

lemma diagnostics_closeMember {α : Type} (location : String) (member : Tree.Node)
    (outcome : Except Failure α) (d : Draft) :
    (d.closeMember location member outcome).2.diagnostics
      = match outcome with
        | .ok _ => d.diagnostics
        | .error failure => d.diagnostics ++ [failure.diagnostic location member] := by
  cases outcome with
  | ok => exact diagnostics_merge d
  | error => rfl

lemma diagnostics_isPrefix_closeMember {α : Type} (location : String) (member : Tree.Node)
    (outcome : Except Failure α) (d : Draft) :
    d.diagnostics <+: (d.closeMember location member outcome).2.diagnostics := by
  rw [diagnostics_closeMember]
  cases outcome with
  | ok => exact prefix_rfl
  | error => exact prefix_append _ _

end Draft

/-- A member that is handed to a boundary. -/
structure Call where
  location : String
  node : Node
  body : (β : Type) × Build β
  before : Draft

namespace Call

variable (c : Context) (call : Call)

/-- What the body of a call does behind the boundary. -/
def run : Except Failure call.body.1 × Draft :=
  call.body.2.runAt .tolerant c call.before.openMember

/-- The draft that the boundary leaves. -/
def after : Draft :=
  ((call.run c).2.closeMember call.location call.node (call.run c).1).2

def Failed : Prop :=
  ∃ failure, (call.run c).1 = .error failure

/-- What is reported about the member. -/
def diagnostic? : Option Diagnostic :=
  match (call.run c).1 with
  | .ok _ => none
  | .error failure => some (failure.diagnostic call.location call.node)

lemma failed_iff_isSome_diagnostic? : call.Failed c ↔ (call.diagnostic? c).isSome := by
  unfold Failed diagnostic?
  cases (call.run c).1 with
  | ok | error => simp

variable {c} in
lemma after_of_error {failure : Failure} (h : (call.run c).1 = .error failure) :
    call.after c = (call.run c).2.discard.recordFailure call.location call.node failure := by
  rw [after, h, closeMember]

end Call

namespace Build

variable (c : Context)

/-- Every member that a tolerant run hands to a boundary, at whatever depth, with the draft before.
-/
def calls {α : Type} : Build α → Draft → List Call
  | .done _, _ => []
  | .stop _, _ => []
  | .asking next, d => (next c).calls d
  | .lowering x next, d =>
    match x.runAt c d.trail with
    | (.ok value, t) => (next value).calls (d.withTrail t)
    | (.error _, _) => []
  | .noting event next, d => next.calls (d.note event)
  | .adding group decls next, d => (next (d.count group)).calls (d.add group decls)
  | .growing group place grow next, d => next.calls (d.grow group place grow)
  | .guarding location node body next, d =>
    let outcome := body.runAt .tolerant c d.openMember
    let closed := outcome.2.closeMember location node outcome.1
    body.calls d.openMember ++ ⟨location, node, ⟨_, body⟩, d⟩ :: (next closed.1).calls closed.2

/-- The calls without those inside members that fail. -/
def keptCalls {α : Type} : Build α → Draft → List Call
  | .done _, _ => []
  | .stop _, _ => []
  | .asking next, d => (next c).keptCalls d
  | .lowering x next, d =>
    match x.runAt c d.trail with
    | (.ok value, t) => (next value).keptCalls (d.withTrail t)
    | (.error _, _) => []
  | .noting event next, d => next.keptCalls (d.note event)
  | .adding group decls next, d => (next (d.count group)).keptCalls (d.add group decls)
  | .growing group place grow next, d => next.keptCalls (d.grow group place grow)
  | .guarding location node body next, d =>
    let outcome := body.runAt .tolerant c d.openMember
    let closed := outcome.2.closeMember location node outcome.1
    (match outcome.1 with
      | .ok _ => body.keptCalls d.openMember ++ [⟨location, node, ⟨_, body⟩, d⟩]
      | .error _ => [])
      ++ (next closed.1).keptCalls closed.2

variable {c} {α : Type}

lemma diagnostics_runAt_eq (x : Build α) (d : Draft) :
    (x.runAt .tolerant c d).2.diagnostics
      = d.diagnostics ++ (x.calls c d).filterMap (Call.diagnostic? c) := by
  induction x generalizing d with
  | done | stop => simp [runAt, calls]
  | asking _ ih => exact ih c d
  | lowering x _ ih =>
    rw [runAt, calls]
    rcases x.runAt c d.trail with ⟨_ | value, t⟩
    · simp
    · exact ih value (d.withTrail t)
  | noting event _ ih => exact ih (d.note event)
  | adding group decls _ ih =>
    have h := ih (d.count group) (d.add group decls)
    rwa [diagnostics_add] at h
  | growing group place grow _ ih => exact ih (d.grow group place grow)
  | @guarding α β location node body next ihBody ihNext =>
    simp only [runAt, calls, ihNext, diagnostics_closeMember, filterMap_append,
      filterMap_cons, Call.diagnostic?, Call.run]
    have hbody := ihBody d.openMember
    cases (body.runAt .tolerant c d.openMember).1 with
    | ok | error => simp [hbody]

lemma diagnostics_isPrefix_runAt (x : Build α) (d : Draft) :
    d.diagnostics <+: (x.runAt .tolerant c d).2.diagnostics :=
  ⟨_, (diagnostics_runAt_eq x d).symm⟩

end Build

lemma Call.diagnostics_isPrefix_after (call : Call) (c : Context) :
    call.before.diagnostics <+: (call.after c).diagnostics :=
  (Build.diagnostics_isPrefix_runAt call.body.2 call.before.openMember).trans
    (diagnostics_isPrefix_closeMember call.location call.node _ _)

end JavaToGo
