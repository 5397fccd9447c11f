import JavaToGo.Proofs.Lowering.Bindings

/-!
# What stands in front of an expression

Without assignments, updates and patterns there are nothing but comments about
ambiguous calls.
-/

namespace JavaToGo

open Code (Stmt)
open Scale

/-- The node neither assigns nor updates nor binds the name of a pattern. -/
def Tree.Node.IsPassive (node : Node) : Prop :=
  node.kind ≠ .assignment ∧ node.kind ≠ .update
    ∧ (node.kind = .instanceOf → node.fieldChild? "name" = none)

instance : DecidablePred Tree.Node.IsPassive := fun node =>
  inferInstanceAs (Decidable (node.kind ≠ .assignment ∧ node.kind ≠ .update
    ∧ (node.kind = .instanceOf → node.fieldChild? "name" = none)))

/-- No assignment, update or pattern stands below the node. -/
abbrev Tree.Node.EffectFree (node : Node) : Prop :=
  node.Everywhere IsPassive

/-- The scale that counts statements other than comments, where rules write none and bind no
names. -/
def Scale.silence : Scale :=
  { Scale.effects fun _ => False with writes := False }

lemma Scale.all_isComment (h : silence.all ss = 0) : ss.all Stmt.isComment = true := by
  induction ss with
  | nil => rfl
  | cons s ss ih =>
    rw [all_cons, Nat.add_eq_zero_iff] at h
    have hs : s.isComment = true := Decidable.byContradiction fun hs =>
      Nat.one_ne_zero ((if_neg hs).symm.trans h.1)
    rw [List.all_cons, hs, ih h.2, Bool.and_self]

namespace Lower

lemma Admits.of_passive {value : Node → Lower Lowered} {node : Node} (h : node.IsPassive) :
    Admits .silence p value node where
  named hkind name hname := by
    rw [h.2.2 hkind] at hname
    cases hname
  asked _ _ _ := trivial
  settable _ _ := .of_placed fun _ => trivial
  writes hkind := hkind.elim h.1 h.2.1

lemma counts_effectFree (height : Nat) : ∀ {node : Node}, node.EffectFree → ∀ p,
    Emits.CountsAt .silence p 0 (expressionWithin height node) fun a => silence.all a.before := by
  induction height with
  | zero =>
    intro node _ p c t a t' _ hrun
    cases hrun
  | succ height ih =>
    intro node hnode p
    have hrule : Emits .silence (expressionWithin height) (fun _ => throw (.fault .tooDeep)) p
        (Part.ofValue p.types node) 0 (expressionWithin (height + 1) node)
        fun a => 0 + silence.all a.before :=
      emits_expressionStep (.of_passive hnode.here)
    have hcounts : Emits.CountsAt .silence p
        (0 + Part.sum (fun _ => 0) (Part.ofValue p.types node)) _ _ :=
      hrule.counts (.inr ⟨id, fun _ => id⟩) False.elim rfl (fun _ => rfl) (fun _ _ => rfl)
        fun q hq => ?_
    · rw [Part.sum_eq_zero fun _ _ => rfl] at hcounts
      simpa only [Nat.zero_add] using hcounts
    have hbelow := Part.hold_ofValue hnode p.types q hq
    cases q with
    | value inner => exact fun b => ih hbelow _
    | maybe inner => exact fun b => ih hbelow _
    | code b inner =>
      intro c t a t' _ hrun
      cases hrun
    | step => trivial

lemma quiet_expressionWithin (height : Nat) {node : Node} (h : node.EffectFree) :
    (expressionWithin height node).Gives fun a => a.before.all Stmt.isComment = true :=
  fun c t a t' hrun => all_isComment (counts_effectFree height h c.setting c t a t' rfl hrun)

/-- The node chooses between two values. -/
structure Chooses (choice condition consequence alternative : Node) : Prop where
  kind : choice.kind = .ternary
  condition : choice.require "condition" = .ok condition
  consequence : choice.require "consequence" = .ok consequence
  alternative : choice.require "alternative" = .ok alternative

lemma returns_choice {choice condition consequence alternative : Node} {height : Nat}
    {c : Context} {t₀ t₁ t₂ t₃ : Trail} {first second third : Lowered}
    (h : Chooses choice condition consequence alternative)
    (hfirst : (expressionWithin height condition).runAt c t₀ = (.ok first, t₁))
    (hsecond : (expressionWithin height consequence).runAt c t₁ = (.ok second, t₂))
    (hthird : (expressionWithin height alternative).runAt c t₂ = (.ok third, t₃))
    (hquiet : second.before.all Stmt.isComment = true ∧ third.before.all Stmt.isComment = true) :
    (expressionWithin (height + 1) choice).runAt c t₀
      = (.ok ⟨.choice first.value second.value third.value (choiceType c),
          first.before ++ second.before ++ third.before⟩, t₃) := by
  rw [expressionWithin, expressionStep, h.kind]
  dsimp only [ternaryExpression]
  rw [(Returns.lift h.condition).runAt_bind, runAt_bind, hfirst]
  dsimp only
  rw [(Returns.lift h.consequence).runAt_bind, runAt_bind, hsecond]
  dsimp only
  rw [(Returns.lift h.alternative).runAt_bind, runAt_bind, hthird]
  dsimp only
  rw [if_pos (by rw [hquiet.1, hquiet.2, Bool.and_self])]
  rfl

/-- Only comments are put in front of an expression without effects, so it can always be the value
of a static field or a branch of a choice. -/
theorem only_effects_hoisted {node : Node} (h : node.EffectFree) :
    (∀ c t a t', (expression node).runAt c t = (.ok a, t') → ∀ s ∈ a.before, s.isComment = true)
      ∧ (∀ (f : DeclaredField) c t a t', f.value = some node →
        (withReceiver {} (expecting (some f.goType) (expression node))).runAt c t = (.ok a, t') →
          (fieldVariable f).runAt c t
            = (.ok { name := f.name, type := some f.goType, value := some a.value,
                     comments := commentsOf a.before }, t'))
      ∧ ∀ choice condition other, Chooses choice condition node other →
        other.EffectFree → ∀ height c t₀ t₁ t₂ t₃ first second third,
          (expressionWithin height condition).runAt c t₀ = (.ok first, t₁) →
          (expressionWithin height node).runAt c t₁ = (.ok second, t₂) →
          (expressionWithin height other).runAt c t₂ = (.ok third, t₃) →
          (expressionWithin (height + 1) choice).runAt c t₀
            = (.ok ⟨.choice first.value second.value third.value (choiceType c),
                first.before ++ second.before ++ third.before⟩, t₃) := by
  have hquiet : ∀ {c t a t'}, (expression node).runAt c t = (.ok a, t') →
      a.before.all Stmt.isComment = true :=
    fun hrun => quiet_expressionWithin node.height h _ _ _ _ hrun
  refine ⟨fun c t a t' hrun => List.all_eq_true.1 (hquiet hrun), ?_, ?_⟩
  · intro f c t a t' hvalue hrun
    have hcomments : a.before.all Stmt.isComment = true := hquiet hrun
    rw [fieldVariable, hvalue]
    dsimp only
    rw [runAt_bind, hrun]
    dsimp only
    rw [if_pos hcomments]
    rfl
  · intro choice condition other hchoice hother height c t₀ t₁ t₂ t₃ first second third
      hfirst hsecond hthird
    exact returns_choice hchoice hfirst hsecond hthird
      ⟨quiet_expressionWithin height h _ _ _ _ hsecond,
        quiet_expressionWithin height hother _ _ _ _ hthird⟩

open Tree.Node (plain tree leaf)

/-- `pick(n)`, as the part of a choice. -/
def pickCall : Node :=
  plain 1 .methodInvocation (some "consequence") "" [.called 2 "pick",
    plain 3 (.other "argument_list") (some "arguments") "" [leaf 4 .identifier "n"]]

/-- Two overloads of `pick` take one argument. -/
def pickContext : Context where
  symbols := { methods := ⟨[("pick", [{ name := "pick", argumentTypes := ["int"] },
    { name := "pickWithString", argumentTypes := ["string"] }])]⟩ }

def twoAlternative : Node :=
  plain 5 .decimalInteger (some "alternative") "2" []

def flagSetting : Node :=
  plain 6 .assignment (some "condition") "" [plain 7 .identifier (some "left") "flag" [],
    plain 8 (.other "=") (some "operator") "=" [], plain 9 .trueLiteral (some "right") "true" []]

/-- `flag = true ? pick(n) : 2` -/
def flagChoice : Node :=
  tree 10 .ternary [flagSetting, pickCall, twoAlternative]

/-- The comment about the ambiguous call stands behind the assignment, and in front of a field. -/
theorem only_effects_hoisted_flagChoice :
    (expression flagChoice).runAt pickContext {}
        = (.ok ⟨.choice (.var "flag") (.callNamed "pick" [.var "n"] false) (.raw "2") Code.anyType,
            [.assign (.var "flag") (.raw "true"), methodAmbiguity "pick" 1]⟩,
          { log := [.ambiguousMethod "pick" 1 "pick"] })
      ∧ (fieldVariable { javaName := "one", goType := "int", value := some pickCall }).runAt
          pickContext {}
        = (.ok { name := "one", type := some "int",
                 value := some (.callNamed "pick" [.var "n"] false),
                 comments := ["FIXME: more than one possible method for pick with 1 arguments"] },
          { log := [.ambiguousMethod "pick" 1 "pick"] }) := by
  have hfree : pickCall.EffectFree := by decide
  let call : Lowered := ⟨.callNamed "pick" [.var "n"] false, [methodAmbiguity "pick" 1]⟩
  obtain ⟨-, hfield, hchoice⟩ := only_effects_hoisted hfree
  refine ⟨?_, hfield _ _ _ call _ rfl (by with_unfolding_all rfl)⟩
  exact hchoice flagChoice flagSetting twoAlternative ⟨rfl, rfl, rfl, rfl⟩ (by decide) 3 _ _ _ _ _
    ⟨.var "flag", [.assign (.var "flag") (.raw "true")]⟩ call ⟨.raw "2", []⟩
    (by with_unfolding_all rfl) (by with_unfolding_all rfl) (by with_unfolding_all rfl)

end Lower
end JavaToGo
