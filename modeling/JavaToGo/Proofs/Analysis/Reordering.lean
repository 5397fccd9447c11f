import JavaToGo.Proofs.Analysis.GoNames
import JavaToGo.Proofs.Tree.Reordering

/-!
# The analysis of a reordered tree

Whether a step returns depends on the situation of its node and on the settings,
not on what has been recorded.  The exception is the superclass of a shape, which
is looked up only where there is a shape with the Go name of the type.
-/

namespace JavaToGo

open List Analysis Tree.Node Table

section

variable {n n' : Node}

lemma modifiers_of_bare (h : n.bare = n'.bare) : n.modifiers = n'.modifiers := by
  rw [← n.modifiers_bare, h, modifiers_bare]

@[simp] lemma javaName?_bare (n : Node) : n.bare.javaName? = n.javaName? := by
  unfold javaName?
  rw [fieldChild?_bare, Option.map_map]
  congr 1
  funext child
  exact child.text_bare

section

variable (h : n.bare = n'.bare)
include h

lemma javaName?_of_bare : n.javaName? = n'.javaName? := by
  rw [← javaName?_bare n, h, javaName?_bare]

lemma kind_of_bare : n.kind = n'.kind := by
  rw [← n.kind_bare, h, kind_bare]

lemma isAbstractClass_of_bare : n.isAbstractClass = n'.isAbstractClass := by
  unfold isAbstractClass
  rw [kind_of_bare h, modifiers_of_bare h]

lemma abstractGoName?_of_bare (settings : Settings) :
    n.abstractGoName? settings = n'.abstractGoName? settings := by
  unfold abstractGoName?
  rw [isAbstractClass_of_bare h, javaName?_of_bare h]

lemma goSpelling?_of_bare (settings : Settings) (isPublic : Bool) :
    goSpelling? settings n isPublic = goSpelling? settings n' isPublic := by
  unfold goSpelling? baseName?
  rw [isAbstractClass_of_bare h, javaName?_of_bare h, kind_of_bare h]

end

lemma exists_superclassOf_of_typeIsPublic {c : TypeContext} (hkind : n.kind = .classDeclaration)
    (h : typeIsPublic c n = .ok isPublic) : ∃ superclass, superclassOf c n = .ok superclass := by
  unfold typeIsPublic at h
  rw [hkind] at h
  obtain ⟨superclass, hsuper, -⟩ := Outcome.exists_of_bind h
  exact ⟨superclass, hsuper⟩

lemma typeIsPublic_eq_of_ne {c c' : TypeContext} (hkind : n.kind ≠ .classDeclaration)
    (h : n.bare = n'.bare) : typeIsPublic c n = typeIsPublic c' n' := by
  unfold typeIsPublic
  rw [← kind_of_bare h, ← modifiers_of_bare h]
  split
  · rfl
  · contradiction
  · rfl

end

lemma inStep_layoutMember (layout layout' : Layout) (member : Node) :
    InStep (fun _ _ => True) (layoutMember layout member) (layoutMember layout' member.bare) := by
  unfold layoutMember
  rw [kind_bare, modifiers_bare, fieldChildren_bare]
  split
  · split
    · exact .returned trivial
    · refine (InStep.mapM fun n _ => inStep_requireText n "name").bind fun _ _ _ => ?_
      exact .returned trivial
  · split
    · exact .returned trivial
    split
    · exact .returned trivial
    · exact .returned trivial
  · exact .returned trivial

lemma inStep_layoutOf (goName goName' : String) (node : Node) :
    InStep (fun _ _ => True) (layoutOf goName node) (layoutOf goName' node.bare) := by
  have hmembers : ∀ (members : List Node) (layout layout' : Layout),
      InStep (fun _ _ => True) (members.foldlM layoutMember layout)
        ((members.map bare).foldlM layoutMember layout') := by
    intro members
    induction members with
    | nil =>
      intro layout layout'
      exact .returned trivial
    | cons member members ih =>
      intro layout layout'
      exact (inStep_layoutMember layout layout' member).bind fun _ _ _ => ih _ _
  unfold layoutOf
  rw [fieldChild?_bare]
  cases node.fieldChild? "body" with
  | none => exact hmembers [] _ _
  | some body =>
    dsimp only [Option.map_some]
    rw [namedChildren_bare]
    exact hmembers body.namedChildren _ _

namespace Analysis

section

variable {α β γ δ : Type} {I : Findings → Findings → Prop} {c c' : AnalysisContext}

/-- From related states the second computation returns when the first one does, with related
results and related states. -/
def Follows (I : Findings → Findings → Prop) (c c' : AnalysisContext) (R : α → β → Prop)
    (x : Analysis α) (y : Analysis β) : Prop :=
  ∀ s s' a s₁, I s s' → x.runFrom c s = (.ok a, s₁) →
    ∃ b s₁', y.runFrom c' s' = (.ok b, s₁') ∧ R a b ∧ I s₁ s₁'

namespace Follows

lemma pure (h : R a b) : Follows I c c' R (Pure.pure a) (Pure.pure b) := by
  intro s s' a' s₁ hI hrun
  cases hrun
  exact ⟨b, s', rfl, h, hI⟩

lemma bind {Q : γ → δ → Prop} {f : α → Analysis γ} {g : β → Analysis δ} (h : Follows I c c' R x y)
    (hfg : ∀ a b, R a b → Follows I c c' Q (f a) (g b)) : Follows I c c' Q (x >>= f) (y >>= g) := by
  intro s s' r s₂ hI hrun
  obtain ⟨a, s₁, hx, hrest⟩ := runFrom_bind_eq_ok_iff.1 hrun
  obtain ⟨b, s₁', hy, hab, hI₁⟩ := h s s' a s₁ hI hx
  obtain ⟨r', s₂', hg, hrr, hI₂⟩ := hfg a b hab s₁ s₁' r s₂ hI₁ hrest
  exact ⟨r', s₂', runFrom_bind_eq_ok_iff.2 ⟨b, s₁', hy, hg⟩, hrr, hI₂⟩

lemma mono {Q : α → β → Prop} (h : Follows I c c' R x y) (hRQ : ∀ a b, R a b → Q a b) :
    Follows I c c' Q x y := by
  intro s s' a s₁ hI hrun
  obtain ⟨b, s₁', hrun', hab, hI'⟩ := h s s' a s₁ hI hrun
  exact ⟨b, s₁', hrun', hRQ a b hab, hI'⟩

lemma lift {R : α → γ → Prop} {Q : β → γ → Prop} (hx : InStep R x z) (hy : InStep Q y z) :
    Follows I c c' (fun a b => ∃ d, R a d ∧ Q b d) (liftM x) (liftM y) := by
  intro s s' a s₁ hI hrun
  obtain ⟨hok, rfl⟩ := Prod.mk.inj hrun
  obtain ⟨d, b, -, hb, had, hbd⟩ := hx.exists_ok_of_both hy hok
  refine ⟨b, s', ?_, ⟨d, had, hbd⟩, hI⟩
  rw [runFrom_lift, hb]

lemma root : Follows I c c' (fun r r' => r = c.unit.root ∧ r' = c'.unit.root) root root := by
  intro s s' r s₁ hI hrun
  cases hrun
  exact ⟨_, s', rfl, ⟨rfl, rfl⟩, hI⟩

lemma modifySymbols {f g : Symbols → Symbols}
    (h : ∀ s s', I s s' → I { s with symbols := f s.symbols } { s' with symbols := g s'.symbols }) :
    Follows I c c' (fun _ _ => True) (modifySymbols f) (modifySymbols g) := by
  intro s s' a s₁ hI hrun
  cases hrun
  exact ⟨(), _, rfl, trivial, h s s' hI⟩

variable (hsettings : c'.unit.settings = c.unit.settings) {R : α → β → Prop}
include hsettings

lemma types (typeParams typeParams' : List String) :
    Follows I c c' (fun t t' => t.settings = c.unit.settings ∧ t'.settings = c.unit.settings)
      (types typeParams) (types typeParams') := by
  intro s s' t s₁ hI hrun
  cases hrun
  exact ⟨_, s', rfl, ⟨rfl, hsettings⟩, hI⟩

lemma outerTypes :
    Follows I c c' (fun t t' => t.settings = c.unit.settings ∧ t'.settings = c.unit.settings)
      outerTypes outerTypes := by
  intro s s' t s₁ hI hrun
  cases hrun
  exact ⟨_, s', rfl, ⟨rfl, hsettings⟩, hI⟩

end Follows

end

section

variable {α γ : Type} {I : Findings → Findings → Prop} {n n' : Node}
variable (hbare : n.bare = n'.bare) {R : α → α → Prop} {f : TypeContext → Node → Outcome α}
include hbare

lemma follows_requireText (field : String) :
    Follows I c c' Eq (liftM (n.requireText field)) (liftM (n'.requireText field)) := by
  have hown := inStep_requireText n' field
  rw [← hbare] at hown
  refine (Follows.lift (inStep_requireText n field) hown).mono ?_
  rintro _ _ ⟨_, rfl, rfl⟩
  rfl

lemma follows_require (field : String) :
    Follows I c c' (fun m m' => m.bare = m'.bare) (liftM (n.require field))
      (liftM (n'.require field)) := by
  have hown := inStep_require n' field
  rw [← hbare] at hown
  refine (Follows.lift (inStep_require n field) hown).mono ?_
  rintro _ _ ⟨_, rfl, h⟩
  exact h.symm

section

variable (hf : ∀ t t', Alongside False t t' → ∀ m, InStep R (f t m) (f t' m.bare))
include hf

lemma exists_mapping
    (t t' : TypeContext) (hsettings : t.settings = settings ∧ t'.settings = settings)
    (ha : f t n = .ok a) : ∃ b, f t' n' = .ok b := by
  have hfirst := hf t t' ⟨hsettings.2.trans hsettings.1.symm, False.elim⟩ n
  have hown := hf t' t' ⟨rfl, False.elim⟩ n'
  rw [← hbare] at hown
  obtain ⟨_, b, -, hb, -⟩ := hfirst.exists_ok_of_both hown ha
  exact ⟨b, hb⟩

lemma follows_mapping
    {t t' : TypeContext} (hsettings : t.settings = settings ∧ t'.settings = settings) :
    Follows I c c' (fun a b => f t n = .ok a ∧ f t' n' = .ok b) (liftM (f t n))
      (liftM (f t' n')) := by
  intro s s' a s₁ hI hrun
  obtain ⟨ha, rfl⟩ := Prod.mk.inj hrun
  obtain ⟨b, hb⟩ := exists_mapping hbare hf t t' hsettings ha
  refine ⟨b, s', ?_, ⟨ha, hb⟩, hI⟩
  rw [runFrom_lift, hb]

end

end

section

variable {c c' : AnalysisContext} {node node' : Node}

def AnyStates : Findings → Findings → Prop :=
  fun _ _ => True

/-- Shapes with the same names are recorded. -/
def SameShapes (s s' : Findings) : Prop :=
  ∀ goName, goName ∈ s.symbols.layouts.keys ↔ goName ∈ s'.symbols.layouts.keys

lemma follows_modify {f g : Symbols → Symbols} :
    Follows AnyStates c c' (fun _ _ => True) (modifySymbols f) (modifySymbols g) :=
  .modifySymbols fun _ _ _ => trivial

lemma follows_file {f g : Symbols → Nat × Symbols} :
    Follows AnyStates c c' (fun _ _ => True) (file f) (file g) := by
  intro s s' a s₁ _ hrun
  exact ⟨_, _, rfl, trivial, trivial⟩

lemma follows_recordConstants (goName goName' : String) :
    ∀ {constants constants' : List Node}, constants.map bare = constants'.map bare →
      Follows SameShapes c c' (fun _ _ => True) (recordConstants goName constants)
        (recordConstants goName' constants')
  | [], [], _ => .pure trivial
  | constant :: constants, constant' :: constants', h => by
    rw [map_cons, map_cons, List.cons.injEq] at h
    refine .bind (follows_requireText h.1 "name") fun _ _ _ => ?_
    refine .bind (.modifySymbols fun _ _ hshapes => hshapes) fun _ _ _ => ?_
    exact follows_recordConstants goName goName' h.2

lemma keys_withSuperclass {s : Symbols} (h : s.layouts.find? goName = some layout)
    (superclass : Option String) :
    (s.withSuperclass goName layout superclass).layouts.keys = s.layouts.keys :=
  keys_insert_of_mem _ _ (mem_keys_of_find? h)

lemma keys_of_recordSuperclass (h : (recordSuperclass goName node).runFrom c s = (.ok (), s₁)) :
    s₁.symbols.layouts.keys = s.symbols.layouts.keys := by
  rw [runFrom_recordSuperclass] at h
  split at h
  · cases h
    rfl
  · rename_i layout hfind
    split at h
    · cases h
    · cases h
      exact keys_withSuperclass hfind _

variable (hsettings : c'.unit.settings = c.unit.settings)
variable (hsituation : c.unit.root.situation node = c'.unit.root.situation node')
include hsettings hsituation

lemma follows_recordAbstract :
    Follows AnyStates c c' (fun _ _ => True) (recordAbstract node) (recordAbstract node') := by
  have hbare := bare_of_situation hsituation
  unfold recordAbstract
  rw [← kind_of_bare hbare, ← modifiers_of_bare hbare]
  split
  · refine .bind (.outerTypes hsettings) fun t t' ht => ?_
    refine .bind (follows_mapping hbare (fun _ _ h m => inStep_declaredGoName h m nofun) ht) ?_
    intro goName goName' _
    refine .bind follows_modify fun _ _ _ => ?_
    have hlayout := inStep_layoutOf goName' goName' node'
    rw [← hbare] at hlayout
    exact .bind (.lift (inStep_layoutOf goName goName' node) hlayout) fun _ _ _ => follows_modify
  · exact .pure trivial

lemma follows_methodIsPublic :
    Follows AnyStates c c' (fun _ _ => True) (methodIsPublic node) (methodIsPublic node') := by
  have hbare := bare_of_situation hsituation
  have howners := enclosingType?_of_situation hsituation
  unfold methodIsPublic
  rw [← modifiers_of_bare hbare]
  split
  · exact .pure trivial
  · refine .bind .root fun r r' hr => ?_
    obtain ⟨rfl, rfl⟩ := hr
    generalize c.unit.root.enclosingType? node = owner at howners
    generalize c'.unit.root.enclosingType? node' = owner' at howners
    match owner, owner', howners with
    | none, none, _ => exact .pure trivial
    | some owner, some owner', howners =>
      have howner := Option.some.inj howners
      dsimp only
      rw [← kind_of_bare howner, ← modifiers_of_bare howner]
      split
      · exact .pure trivial
      · split
        · exact .pure trivial
        · refine .bind (.outerTypes hsettings) fun t t' ht => ?_
          refine .bind (follows_mapping howner (fun _ _ h m => inStep_superclassOf h m) ht) ?_
          exact fun _ _ _ => .pure trivial
      · exact .pure trivial

lemma follows_recordMethod :
    Follows AnyStates c c' (fun _ _ => True) (recordMethod node) (recordMethod node') := by
  have hbare := bare_of_situation hsituation
  have howners := enclosingType?_of_situation hsituation
  refine .bind (follows_requireText hbare "name") fun _ _ _ => ?_
  refine .bind .root fun r r' hr => .bind .root fun _ _ _ => ?_
  obtain ⟨rfl, rfl⟩ := hr
  refine .bind (.types hsettings _ _) fun t t' ht => ?_
  refine .bind (follows_require hbare "parameters") fun list list' hlist => ?_
  refine .bind (follows_mapping hlist (fun _ _ h m => inStep_parameters h m) ht) fun _ _ _ => ?_
  refine .bind (follows_mapping hbare (fun _ _ h m => inStep_valueTypeOf h m) ht) fun _ _ _ => ?_
  refine .bind (follows_methodIsPublic hsettings hsituation) fun _ _ _ => ?_
  refine .bind follows_file fun _ _ _ => ?_
  generalize c.unit.root.enclosingType? node = owner at howners
  generalize c'.unit.root.enclosingType? node' = owner' at howners
  match owner, owner', howners with
  | none, none, _ => exact .bind (.pure (R := Eq) rfl) fun _ _ _ => follows_modify
  | some owner, some owner', howners =>
    exact .bind (follows_requireText (Option.some.inj howners) "name") fun _ _ _ => follows_modify

lemma follows_recordConstructor :
    Follows AnyStates c c' (fun _ _ => True) (recordConstructor node)
      (recordConstructor node') := by
  have hbare := bare_of_situation hsituation
  have howners := enclosingType?_of_situation hsituation
  refine .bind .root fun r r' hr => ?_
  obtain ⟨rfl, rfl⟩ := hr
  generalize c.unit.root.enclosingType? node = owner at howners
  generalize c'.unit.root.enclosingType? node' = owner' at howners
  match owner, owner', howners with
  | none, none, _ =>
    intro s s' a s₁ _ hrun
    cases hrun
  | some owner, some owner', howners =>
    refine .bind (follows_requireText (Option.some.inj howners) "name") fun _ _ _ => ?_
    refine .bind (.outerTypes hsettings) fun _ _ _ => .bind .root fun _ _ _ => ?_
    refine .bind (.types hsettings _ _) fun t t' ht => ?_
    refine .bind (follows_require hbare "parameters") fun list list' hlist => ?_
    refine .bind (follows_mapping hlist (fun _ _ h m => inStep_parameters h m) ht) ?_
    exact fun _ _ _ => .bind follows_file fun _ _ _ => follows_modify

lemma follows_recordCanonicalConstructor :
    Follows AnyStates c c' (fun _ _ => True) (recordCanonicalConstructor node)
      (recordCanonicalConstructor node') := by
  have hbare := bare_of_situation hsituation
  refine .bind (follows_requireText hbare "name") fun _ _ _ => ?_
  refine .bind (.outerTypes hsettings) fun _ _ _ => .bind .root fun _ _ _ => ?_
  refine .bind (.types hsettings _ _) fun t t' ht => ?_
  refine .bind (follows_require hbare "parameters") fun list list' hlist => ?_
  refine .bind (follows_mapping hlist (fun _ _ h m => inStep_parameters h m) ht) ?_
  exact fun _ _ _ => .bind follows_file fun _ _ _ => follows_modify

lemma follows_recordSuperclass
    (hsuper : goName = goName' ∨ ∃ t superclass, t.settings = c.unit.settings
      ∧ superclassOf t node = .ok superclass) :
    Follows SameShapes c c' (fun _ _ => True) (recordSuperclass goName node)
      (recordSuperclass goName' node') := by
  intro s s' a s₁ hshapes hrun
  -- It is enough that the second step returns: both leave the Go names of the shapes alone.
  suffices hreturns : ∃ s₁', (recordSuperclass goName' node').runFrom c' s' = (.ok (), s₁') by
    obtain ⟨s₁', hrun'⟩ := hreturns
    refine ⟨(), s₁', hrun', trivial, fun name => ?_⟩
    rw [keys_of_recordSuperclass hrun, keys_of_recordSuperclass hrun']
    exact hshapes name
  rw [runFrom_recordSuperclass]
  cases hfind : s'.symbols.layouts.find? goName' with
  | none => exact ⟨s', rfl⟩
  | some layout =>
    have hmapped : ∃ t superclass, t.settings = c.unit.settings
        ∧ superclassOf t node = .ok superclass := by
      rcases hsuper with rfl | hmapped
      · have hkey := mem_keys_of_find? hfind
        rw [← hshapes goName, ← isSome_find?_iff, Option.isSome_iff_exists] at hkey
        obtain ⟨layout, hlayout⟩ := hkey
        rw [runFrom_recordSuperclass, hlayout] at hrun
        dsimp only at hrun
        split at hrun
        · cases hrun
        · rename_i superclass hok
          exact ⟨c.around s.symbols node, superclass, rfl, hok⟩
      · exact hmapped
    obtain ⟨t, superclass, ht, hok⟩ := hmapped
    obtain ⟨superclass', hok'⟩ := exists_mapping (bare_of_situation hsituation)
      (fun _ _ h m => inStep_superclassOf h m) t (c'.around s'.symbols node') ⟨ht, hsettings⟩ hok
    rw [hok']
    exact ⟨_, rfl⟩

lemma follows_recordType :
    Follows SameShapes c c' (fun _ _ => True) (recordType node) (recordType node') := by
  have hbare := bare_of_situation hsituation
  refine .bind (follows_requireText hbare "name") fun javaName javaName' _ => ?_
  refine .bind (.outerTypes hsettings) fun t t' ht => ?_
  refine .bind (follows_mapping hbare (fun _ _ h m => inStep_declaredGoName h m nofun) ht) ?_
  rintro goName goName' ⟨hgo, hgo'⟩
  refine .bind (follows_mapping hbare (fun _ _ h m => inStep_typeIsPublic h m nofun) ht) ?_
  rintro isPublic isPublic' ⟨hpublic, hpublic'⟩
  refine .bind (.modifySymbols fun _ _ hshapes => hshapes) fun _ _ _ => ?_
  have hsuper : goName = goName'
      ∨ ∃ t superclass, t.settings = c.unit.settings ∧ superclassOf t node = .ok superclass := by
    by_cases hkind : node.kind = .classDeclaration
    · obtain ⟨superclass, hok⟩ := exists_superclassOf_of_typeIsPublic hkind hpublic
      exact .inr ⟨t, superclass, ht.1, hok⟩
    · have hspelt := goSpelling?_of_declaredGoName hgo hpublic
      have hspelt' := goSpelling?_of_declaredGoName hgo' hpublic'
      rw [typeIsPublic_eq_of_ne hkind hbare, hpublic', Except.ok.injEq] at hpublic
      rw [ht.1, goSpelling?_of_bare hbare, ← hpublic, ← ht.2, hspelt', Option.some.injEq] at hspelt
      exact .inl hspelt.symm
  rw [← kind_of_bare hbare]
  split
  · refine .bind (follows_require hbare "body") fun body body' hbody => ?_
    have hconstants : (body.childrenOfKind .enumConstant).map bare
        = (body'.childrenOfKind .enumConstant).map bare := by
      rw [← childrenOfKind_bare, hbody, childrenOfKind_bare]
    refine .bind (follows_recordConstants goName goName' hconstants) fun _ _ _ => ?_
    exact follows_recordSuperclass hsettings hsituation hsuper
  · exact follows_recordSuperclass hsettings hsituation hsuper

end

variable {c : AnalysisContext} {step : Node → Analysis Unit} {nodes nodes' : List Node}
lemma exists_forEach_strict {I : Findings → Prop}
    (hstep : ∀ n ∈ nodes, ∀ s, I s → ∃ s₁, (step n).runFrom c s = (.ok (), s₁) ∧ I s₁)
    (hs : I s) : ∃ s₁, (forEach .strict step nodes).runFrom c s = (.ok (), s₁) ∧ I s₁ := by
  induction nodes generalizing s with
  | nil => exact ⟨s, rfl, hs⟩
  | cons n nodes ih =>
    obtain ⟨s₁, hrun, hs₁⟩ := hstep n mem_cons_self s hs
    obtain ⟨s₂, hrest, hs₂⟩ := ih (fun m hm => hstep m (mem_cons_of_mem _ hm)) hs₁
    exact ⟨s₂, forEach_strict_cons_iff.2 ⟨s₁, hrun, hrest⟩, hs₂⟩

lemma exists_pass_of_follows (c' : AnalysisContext) (s' : Findings) {I : Findings → Findings → Prop}
    (hfollows : ∀ n n', c.unit.root.situation n = c'.unit.root.situation n' →
      Follows I c c' (fun _ _ => True) (step n) (step n'))
    (hperm : (nodes'.map c'.unit.root.situation).Perm (nodes.map c.unit.root.situation))
    (hrun : (forEach .strict step nodes).runFrom c s = (.ok (), s₁))
    (hkeeps : ∀ ns s₁, (forEach .strict step ns).runFrom c s = (.ok (), s₁) →
      ∀ s', I s₁ s' ↔ I s s')
    (hs : I s s') :
    ∃ s₁', (forEach .strict step nodes').runFrom c' s' = (.ok (), s₁') ∧ I s s₁' := by
  refine exists_forEach_strict (fun n' hn' s' hs => ?_) hs
  obtain ⟨n, hn, hsituation⟩ := mem_map.1 (hperm.mem_iff.1 (mem_map_of_mem hn'))
  obtain ⟨before, after, rfl⟩ := append_of_mem hn
  obtain ⟨s₂, hbefore, hrest⟩ := forEach_append_iff.1 hrun
  obtain ⟨s₃, hstep, -⟩ := forEach_strict_cons_iff.1 hrest
  have hupto : (forEach .strict step (before ++ [n])).runFrom c s = (.ok (), s₃) :=
    forEach_append_iff.2 ⟨s₂, hbefore, forEach_strict_cons_iff.2 ⟨s₃, hstep, rfl⟩⟩
  obtain ⟨_, s₃', hstep', -, hs'⟩ :=
    hfollows n n' hsituation s₂ s' () s₃ ((hkeeps before s₂ hbefore s').2 hs) hstep
  exact ⟨s₃', hstep', (hkeeps _ s₃ hupto s₃').1 hs'⟩

end Analysis

variable {unit unit' : CompilationUnit}
variable (hdistinct : unit.root.DistinctNumbers) (hroot : unit.root.isRecorded = false)
variable (hsettings : unit'.settings = unit.settings)
variable (hreordered : unit.root.Reordered unit'.root)
include hdistinct hroot hreordered

lemma perm_typeDeclarations_of_reordered :
    (unit'.root.typeDeclarations.map unit'.root.situation).Perm
      (unit.root.typeDeclarations.map unit.root.situation) :=
  perm_situations_of_reordered hdistinct hroot hreordered fun n hn => by
    simp [isRecorded, hn]

lemma exists_abstractGoName?_iff_of_reordered (settings : Settings) (goName : String) :
    (∃ t ∈ unit'.root.typeDeclarations, t.abstractGoName? settings = some goName)
      ↔ ∃ t ∈ unit.root.typeDeclarations, t.abstractGoName? settings = some goName := by
  have hperm := perm_typeDeclarations_of_reordered hdistinct hroot hreordered
  constructor
  · rintro ⟨t', ht', hgo⟩
    obtain ⟨t, ht, hsituation⟩ := mem_map.1 (hperm.mem_iff.1 (mem_map_of_mem ht'))
    rw [← abstractGoName?_of_bare (bare_of_situation hsituation)] at hgo
    exact ⟨t, ht, hgo⟩
  · rintro ⟨t, ht, hgo⟩
    obtain ⟨t', ht', hsituation⟩ := mem_map.1 (hperm.mem_iff.2 (mem_map_of_mem ht))
    rw [← abstractGoName?_of_bare (bare_of_situation hsituation)] at hgo
    exact ⟨t', ht', hgo⟩

include hsettings

lemma exists_analysedAs_of_reordered (h : AnalysedAs unit symbols) :
    ∃ symbols', AnalysedAs unit' symbols' := by
  obtain ⟨log, hstrict⟩ := analysedAs_iff.1 h
  obtain ⟨s₁, s₂, s₃, s₄, s₅, hpasses, -⟩ := exists_passes_of_wholeUnit hstrict
  have hperm := perm_typeDeclarations_of_reordered hdistinct hroot hreordered
  have hdeclarations : ∀ kind : Kind,
      (kind == .methodDeclaration || kind == .constructorDeclaration) →
      ((unit'.root.declarationsOf kind).map unit'.root.situation).Perm
        ((unit.root.declarationsOf kind).map unit.root.situation) := by
    intro kind hkind
    refine perm_situations_of_reordered (p := (· == kind)) hdistinct hroot hreordered ?_
    intro n hn
    rw [beq_iff_eq] at hn
    rw [isRecorded, hn, Bool.or_assoc, hkind, Bool.or_true]
  have hrecords :
      ((unit'.root.typeDeclarations.filter fun n => n.kind == .recordDeclaration).map
          unit'.root.situation).Perm
        ((unit.root.typeDeclarations.filter fun n => n.kind == .recordDeclaration).map
          unit.root.situation) := by
    unfold typeDeclarations
    rw [filter_filter, filter_filter]
    refine perm_situations_of_reordered hdistinct hroot hreordered
      (p := fun kind => kind == .recordDeclaration && kind.isTypeDeclaration) ?_
    intro n hn
    rw [Bool.and_eq_true] at hn
    simp [isRecorded, hn.2]
  obtain ⟨s₁', habstracts, -⟩ := exists_pass_of_follows ⟨unit', []⟩ {}
    (fun _ _ => follows_recordAbstract hsettings) hperm hpasses.abstracts
    (fun _ _ _ _ => Iff.rfl) trivial
  have hshapes : SameShapes s₁ s₁' := by
    intro goName
    rw [mem_layouts_of_recordAbstracts hpasses.abstracts, mem_layouts_of_recordAbstracts habstracts]
    refine or_congr Iff.rfl ?_
    rw [hsettings]
    exact (exists_abstractGoName?_iff_of_reordered hdistinct hroot hreordered _ goName).symm
  obtain ⟨s₂', htypes, -⟩ := exists_pass_of_follows ⟨unit', []⟩ s₁'
    (fun _ _ => follows_recordType hsettings) hperm hpasses.types
    (fun _ _ hrun _ => forall_congr' fun goName =>
      iff_congr (mem_layouts_of_recordTypes hrun goName) Iff.rfl) hshapes
  obtain ⟨s₃', hmethods, -⟩ := exists_pass_of_follows ⟨unit', []⟩ s₂'
    (fun _ _ => follows_recordMethod hsettings) (hdeclarations _ rfl) hpasses.methods
    (fun _ _ _ _ => Iff.rfl) trivial
  obtain ⟨s₄', hconstructors, -⟩ := exists_pass_of_follows ⟨unit', []⟩ s₃'
    (fun _ _ => follows_recordConstructor hsettings) (hdeclarations _ rfl)
    hpasses.constructors (fun _ _ _ _ => Iff.rfl) trivial
  obtain ⟨s₅', hcanonicals, -⟩ := exists_pass_of_follows ⟨unit', []⟩ s₄'
    (fun _ _ => follows_recordCanonicalConstructor hsettings) hrecords hpasses.canonicals
    (fun _ _ _ _ => Iff.rfl) trivial
  have hpasses' : Passes .strict ⟨unit', []⟩ {} s₁' s₂' s₃' s₄' s₅' :=
    ⟨habstracts, htypes, hmethods, hconstructors, hcanonicals⟩
  obtain ⟨s', hunit, -⟩ := exists_wholeUnit_of_passes hpasses'
  exact ⟨s'.symbols, analysedAs_iff.2 ⟨s'.log, hunit⟩⟩

end JavaToGo
