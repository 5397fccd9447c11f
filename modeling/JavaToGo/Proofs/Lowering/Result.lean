import JavaToGo.Member
import Mathlib.Tactic.Lemma

/-!
# What lowering can give
-/

namespace JavaToGo

open JavaToGo.Tree (Node)
open List

lemma ok_of_isOk {x : Outcome Unit} (h : x.isOk = true) : x = .ok () := by
  cases x with
  | ok => rfl
  | error => cases h

namespace Outcome

variable {α β : Type} {f : α → Outcome β}

lemma bind_eq_ok : (x >>= f) = .ok b ↔ ∃ a, x = .ok a ∧ f a = .ok b := by
  cases x with
  | error => exact iff_of_false nofun nofun
  | ok => simp [bind, Except.bind]

lemma exists_of_bind (h : (x >>= f) = .ok b) : ∃ a, x = .ok a ∧ f a = .ok b :=
  bind_eq_ok.1 h

end Outcome

namespace Tree.Node

lemma require_of_fieldChild? {node child : Node} {field : String}
    (h : node.fieldChild? field = some child) : node.require field = .ok child := by
  rw [require, h]

lemma requireText_of_fieldChild? {node child : Node} {field : String}
    (h : node.fieldChild? field = some child) : node.requireText field = .ok child.text := by
  rw [requireText, require_of_fieldChild? h]
  rfl

/-- A named node without a position. -/
def plain (id : Nat) (kind : Kind) (field : Option String) (text : String)
    (children : List Node) : Node :=
  .mk ⟨id, kind, true, field, 0, 0, ⟨0, 0⟩, ⟨0, 0⟩, text⟩ children

/-- A node of these children. -/
def tree (id : Nat) (kind : Kind) (children : List Node) : Node :=
  plain id kind none "" children

/-- A node of this text. -/
def leaf (id : Nat) (kind : Kind) (text : String) : Node :=
  plain id kind none text []

/-- The block of statements of a declaration. -/
def body (id : Nat) (statements : List Node) : Node :=
  plain id .block (some "body") "" statements

/-- The name of a declaration. -/
def called (id : Nat) (name : String) : Node :=
  plain id .identifier (some "name") name []

def intType (id : Nat) : Node :=
  plain id .integralType (some "type") "int" []

/-- The parameters of a method or a constructor. -/
def parameterList (id : Nat) (children : List Node) : Node :=
  plain id (.other "formal_parameters") (some "parameters") "" children

def plainClass (number : Nat) (modifiers : List Node) (name : String) (parts members : List Node) :
    Node :=
  tree number .classDeclaration
    (modifiers ++ [called (number + 1) name] ++ parts
      ++ [plain (number + 2) .classBody (some "body") "" members])

def plainMethod (number : Nat) (name : String) (parameters statements : List Node) : Node :=
  tree number .methodDeclaration
    [called (number + 1) name,
     .parameterList (number + 2) parameters,
     body (number + 3) statements]

end Tree.Node

def abstractModifiers (number : Nat) : List Node :=
  [.tree number .modifiers [.leaf (number + 1) .abstractWord "abstract"]]

/-- A unit of types, with the settings that hold by default. -/
def CompilationUnit.ofTypes (types : List Node) : CompilationUnit where
  root := .tree 0 .program types

namespace Lower

variable {α β : Type} {x : Lower α} {f : α → Lower β} {a : α} (node : Node) {post : α → Prop}

section

variable (c : Context) (t : Trail)

lemma runAt_bind (x : Lower α) (f : α → Lower β) :
    (x >>= f).runAt c t
      = match x.runAt c t with
        | (.ok a, t') => (f a).runAt c t'
        | (.error failure, t') => (.error failure, t') := by
  simp only [runAt, ReaderT.run_bind, ExceptT.run_bind, StateT.run_bind]
  rcases (ReaderT.run x c).run.run t with ⟨outcome, t'⟩
  cases outcome <;> rfl

@[simp] lemma runAt_lift (x : Outcome α) : (liftM x : Lower α).runAt c t = (x, t) := by
  cases x <;> rfl

variable {c t}

lemma trail_bind {Q : Trail → Prop} (hx : Q (x.runAt c t).2)
    (hf : ∀ a t', Q t' → Q ((f a).runAt c t').2) : Q ((x >>= f).runAt c t).2 := by
  rw [runAt_bind]
  revert hx
  rcases x.runAt c t with ⟨_ | a, t'⟩
  · exact id
  · exact hf a t'

variable (c t)

lemma runAt_withScopes (enter : List Scope → List Scope)
    (leave : List Scope → List Scope → List Scope) (x : Lower α) :
    (withScopes enter leave x).runAt c t
      = let ended := x.runAt c { t with scopes := enter t.scopes }
        (ended.1, { ended.2 with scopes := leave t.scopes ended.2.scopes }) :=
  rfl

lemma exists_of_runAt_withScopes {c : Context} {t t' : Trail} {enter : List Scope → List Scope}
    {leave : List Scope → List Scope → List Scope}
    (h : (withScopes enter leave x).runAt c t = (.ok a, t')) :
    ∃ t₁, x.runAt c { t with scopes := enter t.scopes } = (.ok a, t₁)
      ∧ t' = { t₁ with scopes := leave t.scopes t₁.scopes } := by
  rw [runAt_withScopes] at h
  rcases hx : x.runAt c { t with scopes := enter t.scopes } with ⟨outcome, t₁⟩
  rw [hx] at h
  cases h
  exact ⟨t₁, rfl, rfl⟩

lemma exists_of_runAt_withFunctionScope {c : Context} {t t' : Trail} {params : List String}
    {shape : Option ReturnShape} (h : (withFunctionScope params shape x).runAt c t = (.ok a, t')) :
    ∃ t₁, x.runAt { c with returnShape := shape, inReturn := false }
      { t with scopes := [Scope.ofNames params] } = (.ok a, t₁) := by
  have hscopes : (withScopes (fun _ => [Scope.ofNames params]) (fun before _ => before) x).runAt
      { c with returnShape := shape, inReturn := false } t = (.ok a, t') := h
  obtain ⟨t₁, hrun, -⟩ := exists_of_runAt_withScopes hscopes
  exact ⟨t₁, hrun⟩

/-- A computation that succeeds has succeeded at each of its steps. -/
lemma runAt_bind_eq_ok {c : Context} {t t' : Trail} {b : β} :
    (x >>= f).runAt c t = (.ok b, t')
      ↔ ∃ a t₁, x.runAt c t = (.ok a, t₁) ∧ (f a).runAt c t₁ = (.ok b, t') := by
  rw [runAt_bind]
  rcases x.runAt c t with ⟨_ | a, t₁⟩ <;> simp [and_assoc]

lemma runAt_lift_eq_ok {c : Context} {t t' : Trail} {x : Outcome α} :
    (liftM x : Lower α).runAt c t = (.ok a, t') ↔ x = .ok a ∧ t = t' := by
  rw [runAt_lift, Prod.mk.injEq]

lemma exists_of_bind {c : Context} {t t' : Trail} {b : β} (h : (x >>= f).runAt c t = (.ok b, t')) :
    ∃ a t₁, x.runAt c t = (.ok a, t₁) ∧ (f a).runAt c t₁ = (.ok b, t') :=
  runAt_bind_eq_ok.1 h

end

section

variable (c : Context) (t : Trail)

/-- The computation returns `a` and leaves the trail as it is. -/
def Returns (x : Lower α) (a : α) : Prop :=
  x.runAt c t = (.ok a, t)

variable {c t}

lemma Returns.pure (a : α) : (Pure.pure a : Lower α).Returns c t a :=
  rfl

lemma Returns.lift {x : Outcome α} (h : x = .ok a) : (liftM x : Lower α).Returns c t a := by
  rw [Returns, runAt_lift, h]

lemma Returns.bind (hx : x.Returns c t a) (hf : (f a).Returns c t b) : (x >>= f).Returns c t b := by
  rw [Returns, runAt_bind, hx]
  exact hf

lemma Returns.runAt_bind (hx : x.Returns c t a) (f : α → Lower β) :
    (x >>= f).runAt c t = (f a).runAt c t := by
  rw [Lower.runAt_bind, hx]

lemma returns_receiver : receiver.Returns c t c.receiver :=
  rfl

lemma returns_isLocal (name : String) : (isLocal name).Returns c t (inScopes t.scopes name) :=
  rfl

end

lemma expression_eq_step :
    expression node = expressionStep (expressionWithin (Node.heightAll node.children)) node := by
  obtain ⟨head, children⟩ := node
  rw [expression, Node.height, Nat.add_comm]
  rfl

lemma statement_eq_step :
    statement node = statementStep (statementWithin (Node.heightAll node.children)) node := by
  obtain ⟨head, children⟩ := node
  rw [statement, Node.height, Nat.add_comm]
  rfl

lemma exists_expression_eq : ∃ go, expression node = expressionStep go node :=
  ⟨_, expression_eq_step node⟩

lemma length_lowerAll {lower : Node → Lower Lowered}
    (h : (lowerAll lower nodes).runAt c t = (.ok lowered, t')) :
    lowered.values.length = nodes.length := by
  induction nodes generalizing lowered t with
  | nil =>
    cases h
    rfl
  | cons node nodes ih =>
    simp only [lowerAll, runAt_bind_eq_ok] at h
    obtain ⟨first, t₁, -, rest, t₂, hrest, ⟨⟩⟩ := h
    simp [ih hrest]

/-- The computation can return `a`. -/
def Makes (x : Lower α) (c : Context) (a : α) : Prop :=
  ∃ t t', x.runAt c t = (.ok a, t')

/-- Whatever the computation returns satisfies `post`. -/
def Gives (x : Lower α) (post : α → Prop) : Prop :=
  ∀ c t a t', x.runAt c t = (.ok a, t') → post a

lemma Gives.pure (h : post a) : (Pure.pure a : Lower α).Gives post := by
  intro c t b t' hrun
  cases hrun
  exact h

lemma Gives.lift {x : Outcome α} (h : ∀ a, x = .ok a → post a) :
    (liftM x : Lower α).Gives post := by
  intro c t a t' hrun
  exact h a (Prod.mk.inj hrun).1

lemma Gives.bind {post : β → Prop}
    (h : x.Gives fun a => (f a).Gives post) : (x >>= f).Gives post := by
  intro c t b t' hrun
  obtain ⟨a, t₁, hx, hlast⟩ := exists_of_bind hrun
  exact h c t a t₁ hx c t₁ b t' hlast

lemma Gives.withScope (h : x.Gives post) (names : List String) :
    (Lower.withScope names x).Gives post := by
  intro c t a t' hrun
  obtain ⟨t₁, hx, -⟩ := exists_of_runAt_withScopes hrun
  exact h c _ a t₁ hx

lemma Gives.mapM {post : β → Prop} :
    ∀ {as : List α}, (∀ a ∈ as, (f a).Gives post) → (as.mapM f).Gives fun bs => ∀ b ∈ bs, post b
  | [], _ => by
    exact .pure fun _ hb => absurd hb not_mem_nil
  | a :: as, h => by
    rw [mapM_cons]
    refine .bind fun c t b t' hb => .bind fun c t bs t' hbs => .pure ?_
    intro b' hb'
    rcases mem_cons.1 hb' with rfl | hb'
    · exact h a mem_cons_self _ _ _ _ hb
    · have hrest := fun a' ha' => h a' (mem_cons_of_mem _ ha')
      exact Gives.mapM hrest _ _ _ _ hbs b' hb'

lemma gives_declaredFields :
    (declaredFields node).Gives fun fields =>
      ∀ f ∈ fields, f.isStatic = node.modifiers.isStatic
        ∧ ∃ n ∈ node.fieldChildren "declarator", n.requireText "name" = .ok f.javaName := by
  have hfield : ∀ type, ∀ declarator ∈ node.fieldChildren "declarator",
      (liftM (declaredField node.modifiers.isStatic type declarator) : Lower _).Gives
        fun f => f.isStatic = node.modifiers.isStatic
          ∧ ∃ n ∈ node.fieldChildren "declarator", n.requireText "name" = .ok f.javaName := by
    intro type declarator hdeclarator
    refine .lift fun f hf => ?_
    cases hname : declarator.requireText "name" with
    | ok =>
      rw [declaredField, hname] at hf
      cases hf
      exact ⟨rfl, declarator, hdeclarator, hname⟩
    | error =>
      rw [declaredField, hname] at hf
      cases hf
  refine .bind fun _ _ c _ _ => .bind fun _ _ _ _ _ => .bind fun _ _ _ _ _ =>
    .bind fun _ _ type _ _ => ?_
  exact Gives.mapM (hfield type)

end Lower

end JavaToGo
