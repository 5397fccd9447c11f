import JavaToGo.Proofs.Lowering.ExpressionParts

/-!
# Names that expressions bind

The only names that an expression declares are those of type patterns, and each
is bound by a statement in front of it.  So an expression in front of which
nothing but comments stand has left the scopes as they were.
-/

namespace JavaToGo

open Scale

/-- The names of the type patterns in the node are allowed. -/
def Tree.Node.PatternsIn (allowed : String → Prop) (node : Node) : Prop :=
  node.Everywhere fun n => n.kind = .instanceOf →
    ∀ name, n.fieldChild? "name" = some name → allowed name.text

/-- Some of the statements is no comment. -/
def Code.HasEffect (ss : List Stmt) : Prop :=
  ∃ s ∈ ss, s.isComment = false

lemma Code.not_hasEffect_of_all {ss : List Stmt} (h : ss.all Code.Stmt.isComment = true) :
    ¬ HasEffect ss := by
  rintro ⟨s, hs, heffect⟩
  rw [List.all_eq_true.1 h s hs] at heffect
  cases heffect

/-- A statement stands in front of the expression. -/
def Lowered.HasEffect (a : Lowered) : Prop :=
  Code.HasEffect a.before

def Scale.effects (allowed : String → Prop) : Scale where
  weight s := if s.isComment then 0 else 1
  plain := 1
  named := allowed
  lossy := False

lemma Scale.hasEffect_of_pos {allowed : String → Prop} (h : 0 < (effects allowed).all ss) :
    Code.HasEffect ss := by
  induction ss with
  | nil => cases h
  | cons s ss ih =>
    cases hs : s.isComment with
    | false => exact ⟨s, List.mem_cons_self, hs⟩
    | true =>
      have hzero : (effects allowed).weight s = 0 := if_pos hs
      rw [all_cons, hzero, Nat.zero_add] at h
      obtain ⟨s', hmem, heffect⟩ := ih h
      exact ⟨s', List.mem_cons_of_mem _ hmem, heffect⟩

namespace Lower

variable {allowed : String → Prop}

lemma bindsAt_expressionWithin (height : Nat) : ∀ node : Node, node.PatternsIn allowed →
    ∀ p, Emits.BindsAt (.effects allowed) p 0 (expressionWithin height node)
      fun a => (effects allowed).all a.before := by
  induction height with
  | zero => exact fun node _ p => .of_steady (.throw _) fun c t a ha => Nat.zero_le _
  | succ height ih =>
    intro node hnode p
    have hrule : Emits (.effects allowed) (expressionWithin height)
        (fun _ => throw (.fault .tooDeep)) p (Part.ofValue p.types node) 0
        (expressionWithin (height + 1) node) fun a => 0 + (effects allowed).all a.before :=
      emits_expressionStep
        ⟨hnode.here, fun _ _ _ => trivial, fun _ _ => .of_placed fun _ => trivial, fun _ => trivial⟩
    have hbinds := hrule.binds Nat.one_pos id fun q hq => ?_
    · simpa only [Nat.zero_add] using hbinds
    have hbelow := Part.hold_ofValue hnode p.types q hq
    cases q with
    | value inner => exact fun b => ih inner hbelow _
    | maybe inner => exact fun b => ih inner hbelow _
    | code b inner => exact .of_steady (.throw _) fun c t a ha => Nat.zero_le _
    | step => trivial

lemma binds_expression {node : Node} (hnode : node.PatternsIn allowed) :
    Binds allowed False (expression node) Lowered.HasEffect := by
  intro c t
  obtain ⟨hgrows, hshows⟩ := bindsAt_expressionWithin node.height node hnode c.setting c t rfl
  refine ⟨hgrows, fun a ha hchanged => ?_⟩
  have hweight : 0 < (effects allowed).all a.before := (hshows a ha).2 (hchanged.resolve_left id)
  exact hasEffect_of_pos hweight

end Lower

end JavaToGo
