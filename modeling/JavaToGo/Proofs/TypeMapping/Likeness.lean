import JavaToGo.Proofs.Tree.Likeness
import JavaToGo.Proofs.TypeMapping.Parts

/-!
# What the mapping of types depends on

The symbols and the type parameters in view decide how a name is written, never
whether there is one.
-/

namespace JavaToGo

open List Tree.Node

section

variable {α β γ δ : Type}

/-- Both computations fail, or both return and the results are related. -/
inductive InStep (R : α → β → Prop) : Outcome α → Outcome β → Prop
  | returned {a : α} {b : β} (h : R a b) : InStep R (.ok a) (.ok b)
  | failed (f g : Failure) : InStep R (.error f) (.error g)

namespace InStep

variable {R : α → β → Prop}

lemma bind {Q : γ → δ → Prop} {f : α → Outcome γ} {g : β → Outcome δ} (h : InStep R x y)
    (hfg : ∀ a b, R a b → InStep Q (f a) (g b)) : InStep Q (x >>= f) (y >>= g) := by
  cases h with
  | returned h => exact hfg _ _ h
  | failed f g => exact .failed f g

lemma exists_ok_of_both {Q : γ → β → Prop} (h : InStep R x y) (h' : InStep Q z y) (ha : x = .ok a)
    : ∃ b d, y = .ok b ∧ z = .ok d ∧ R a b ∧ Q d b := by
  cases h with
  | failed => cases ha
  | returned h =>
    cases ha
    cases h' with
    | returned h' => exact ⟨_, _, rfl, rfl, h, h'⟩

lemma mapM {R : γ → δ → Prop} {f : α → Outcome γ} {g : β → Outcome δ} {h : α → β} :
    ∀ {as : List α}, (∀ a ∈ as, InStep R (f a) (g (h a))) →
      InStep (Forall₂ R) (as.mapM f) ((as.map h).mapM g)
  | [], _ => by
    exact .returned .nil
  | a :: as, hsteps => by
    rw [map_cons, mapM_cons, mapM_cons]
    refine (hsteps a mem_cons_self).bind fun _ _ hab => ?_
    refine (InStep.mapM fun a ha => hsteps a (mem_cons_of_mem _ ha)).bind fun _ _ hrest => ?_
    exact .returned (.cons hab hrest)

end InStep

end

/-- Equal under a condition. -/
abbrev EqualIf {α : Type} (P : Prop) (a b : α) : Prop :=
  P → a = b

/-- Two mappings have the same settings, and write names alike under a condition. -/
structure Alongside (P : Prop) (c c' : TypeContext) : Prop where
  settings : c'.settings = c.settings
  names : P → ∀ name, c.mapName name = c'.mapName name

variable {P : Prop} {c c' : TypeContext}

lemma eq_of_rel (hP : P) (h : Option.Rel (EqualIf P) a b) : a = b := by
  cases h with
  | some hab => rw [hab hP]
  | none => rfl

lemma Alongside.override? (h : Alongside P c c') (name : String) :
    c'.override? name = c.override? name := by
  rw [TypeContext.override?, h.settings, TypeContext.override?]

lemma inStep_requireText (node : Node) (field : String) :
    InStep Eq (node.requireText field) (node.bare.requireText field) := by
  unfold requireText require
  rw [fieldChild?_bare]
  cases node.fieldChild? field with
  | none => exact .failed _ _
  | some child => exact .returned child.text_bare.symm

lemma inStep_require (node : Node) (field : String) :
    InStep (fun n m => n.bare = m) (node.require field) (node.bare.require field) := by
  unfold require
  rw [fieldChild?_bare]
  cases node.fieldChild? field with
  | none => exact .failed _ _
  | some => exact .returned rfl

lemma lastTypeName?_bare (nodes : List Node) :
    lastTypeName? (nodes.map bare) = lastTypeName? nodes := by
  unfold lastTypeName?
  rw [filter_map, getLast?_map, Option.map_map]
  have hkind : (fun n : Node => n.kind == .typeIdentifier) ∘ bare
      = fun n : Node => n.kind == .typeIdentifier := by
    funext n
    simp
  have htext : text ∘ bare = text := by
    funext n
    simp
  rw [hkind, htext]

lemma arrayDepth_bare (nodes : List Node) : arrayDepth (nodes.map bare) = arrayDepth nodes := by
  unfold arrayDepth
  have hfield : (fun n : Node => n.field == some "dimensions") ∘ bare
      = fun n : Node => n.field == some "dimensions" := by
    funext n
    simp
  rw [find?_map, hfield]
  cases nodes.find? fun n => n.field == some "dimensions" with
  | none => rfl
  | some => simp

lemma Tree.Node.isType_bare (n : Node) : n.bare.isType = n.isType := by
  simp [isType]

lemma Tree.Node.genericBase?_bare (n : Node) : n.bare.genericBase? = n.genericBase? := by
  have hnext : (fun base (m : Node) => m.bare.nextBase base) = fun base m => m.nextBase base := by
    simp [nextBase, lastTypeName?_bare]
  rw [genericBase?, children_bare, foldl_map, hnext, genericBase?]

lemma Tree.Node.partLists_bare (n : Node) : n.bare.partLists = n.partLists.map (map bare) := by
  unfold partLists
  rw [kind_bare]
  split
  · rw [fieldChild?_bare, map_singleton, Option.toList_map]
  · rw [childrenOfKind_bare, map_map, map_map]
    exact map_congr_left fun list _ => list.namedChildren_bare
  · have htype : isType ∘ bare = isType := funext isType_bare
    rw [namedChildren_bare, find?_map, htype, map_singleton, Option.toList_map]
  · rfl

section

variable (h : Alongside P c c')
include h

lemma inStep_mapGeneric (node node' : Node) (base : String)
    (hargs : Forall₂ (EqualIf P) args args') :
    InStep (EqualIf P) (c.mapGeneric node base args) (c'.mapGeneric node' base args') := by
  unfold TypeContext.mapGeneric
  rw [h.override?]
  split
  · exact .returned fun _ => rfl
  split
  · -- The number of arguments decides which case applies.
    obtain _ | ⟨ha, _ | _⟩ := hargs
    · exact .returned fun _ => rfl
    · exact .returned fun hP => by rw [ha hP]
    · exact .failed _ _
  split
  · obtain _ | ⟨ha, _ | ⟨hb, _ | _⟩⟩ := hargs
    · exact .returned fun _ => rfl
    · exact .returned fun hP => by rw [ha hP]
    · exact .returned fun hP => by rw [ha hP, hb hP]
    · exact .failed _ _
  · refine .returned fun hP => ?_
    have heq : args = args' := forall₂_eq_eq_eq ▸ hargs.imp fun _ _ hab => hab hP
    rw [h.names hP, heq]

lemma inStep_composed (node : Node)
    (htypes : Forall₂ (EqualIf P) types types') :
    InStep (EqualIf P) (node.composed c types) (node.bare.composed c' types') := by
  unfold composed
  simp only [kind_bare, text_bare, children_bare, lastTypeName?_bare,
    arrayDepth_bare, genericBase?_bare]
  split
  · exact .returned fun hP => h.names hP _
  · split
    · exact .returned fun hP => h.names hP _
    · exact .failed _ _
  iterate 3
    split
    · exact .returned fun _ => rfl
    · exact .failed _ _
  · obtain _ | ⟨ha, -⟩ := htypes
    · exact .failed _ _
    · exact .returned fun hP => by rw [ha hP]
  · split
    · exact inStep_mapGeneric h _ _ _ htypes
    · exact .failed _ _
  · exact .returned fun _ => rfl
  · obtain _ | ⟨ha, -⟩ := htypes
    · exact .failed _ _
    · exact .returned ha
  · exact .failed _ _

lemma inStep_typeOf (node : Node) : InStep (EqualIf P) (typeOf c node) (typeOf c' node.bare) := by
  induction node using induction_on_parts with
  | step n ih =>
    rw [typeOf_eq, typeOf_eq, partLists_bare]
    refine (InStep.mapM fun parts hparts => InStep.mapM (ih parts hparts)).bind fun _ _ hlists => ?_
    exact inStep_composed h n (related_getLast?_getD hlists .nil)

lemma inStep_tryType (node : Node) :
    InStep (Option.Rel (EqualIf P)) (tryType c node) (tryType c' node.bare) := by
  rw [tryType_eq, tryType_eq, isType_bare]
  split
  · exact (inStep_typeOf h node).bind fun _ _ hab => .returned (.some hab)
  · exact .returned .none

lemma inStep_firstType (nodes : List Node) :
    InStep (Option.Rel (EqualIf P)) (firstType c nodes) (firstType c' (nodes.map bare)) := by
  induction nodes with
  | nil =>
    exact .returned .none
  | cons n ns ih =>
    rw [map_cons, firstType, firstType, named_bare]
    split
    · refine (inStep_tryType h n).bind fun _ _ hab => ?_
      cases hab with
      | some hab => exact .returned (.some hab)
      | none => exact ih
    · exact ih

end

variable (h : Alongside P c c') (node : Node)
include h

lemma inStep_superclassOf :
    InStep (Option.Rel (EqualIf P)) (superclassOf c node) (superclassOf c' node.bare) := by
  unfold superclassOf
  rw [fieldChild?_bare]
  cases node.fieldChild? "superclass" with
  | none => exact .returned .none
  | some superclass =>
    dsimp only [Option.map_some]
    rw [children_bare]
    refine (inStep_firstType h superclass.children).bind fun _ _ hab => ?_
    cases hab with
    | some hab => exact .returned (.some hab)
    | none => exact .failed _ _

section

variable (habstract : P → ∀ type, c.symbols.isAbstractType type = c'.symbols.isAbstractType type)
include habstract

lemma inStep_typeIsPublic :
    InStep (EqualIf P) (typeIsPublic c node) (typeIsPublic c' node.bare) := by
  unfold typeIsPublic
  rw [kind_bare, modifiers_bare]
  split
  · exact .returned fun _ => rfl
  · refine (inStep_superclassOf h node).bind fun a b hab => ?_
    by_cases hP : P
    · rw [eq_of_rel hP hab, habstract hP]
      split
      · exact .returned fun _ => rfl
      · exact .returned fun _ => rfl
    · split <;> split <;> exact .returned fun hP' => absurd hP' hP
  · exact .returned fun _ => rfl

lemma inStep_declaredGoName :
    InStep (EqualIf P) (declaredGoName c node) (declaredGoName c' node.bare) := by
  unfold declaredGoName
  rw [kind_bare, modifiers_bare, h.settings]
  refine (inStep_requireText node "name").bind fun name name' hname => ?_
  cases hname
  split
  · exact .returned fun _ => rfl
  split
  · exact .returned fun _ => rfl
  · refine (inStep_typeIsPublic h node habstract).bind fun a b hab => .returned fun hP => ?_
    rw [hab hP]

end

lemma inStep_valueTypeOf :
    InStep (fun _ _ => True) (Analysis.valueTypeOf c node) (Analysis.valueTypeOf c' node.bare) := by
  unfold Analysis.valueTypeOf
  rw [fieldChild?_bare]
  cases node.fieldChild? "type" with
  | none => exact .returned trivial
  | some type => exact (inStep_tryType h type).bind fun _ _ _ => .returned trivial

omit node in
lemma inStep_spreadParts : ∀ (parts : List Node) {type type' : Option String}
    (name : Option String), Option.Rel (EqualIf P) type type' →
    InStep (fun p q => Option.Rel (EqualIf P) p.1 q.1 ∧ p.2 = q.2)
      (spreadParts c type name parts) (spreadParts c' type' name (parts.map bare))
  | [], _, _, _, htype => .returned ⟨htype, rfl⟩
  | part :: parts, type, type', name, htype => by
    have hnone : type.isNone = type'.isNone := by cases htype <;> rfl
    rw [map_cons, spreadParts, spreadParts, kind_bare, hnone]
    split
    · refine (inStep_requireText part "name").bind fun text _ htext => ?_
      cases htext
      exact inStep_spreadParts parts (some text) htype
    split
    · refine (inStep_tryType h part).bind fun _ _ hfound => ?_
      exact inStep_spreadParts parts name hfound
    · exact inStep_spreadParts parts name htype

lemma inStep_parameter? :
    InStep (fun _ _ => True) (parameter? c node) (parameter? c' node.bare) := by
  unfold parameter?
  rw [kind_bare]
  split
  · refine (inStep_requireText node "name").bind fun _ _ _ => ?_
    refine (inStep_require node "type").bind fun type type' htype => ?_
    cases htype
    refine (inStep_typeOf h type).bind fun _ _ _ => ?_
    exact .returned trivial
  · rw [namedChildren_bare]
    refine (inStep_spreadParts h node.namedChildren none .none).bind fun p q hpq => ?_
    obtain ⟨type, name⟩ := p
    obtain ⟨type', name'⟩ := q
    obtain ⟨_ | _, rfl⟩ := hpq
    · cases name with
      | some => exact .returned trivial
      | none => exact .failed _ _
    · exact .failed _ _
  · exact .returned trivial
  · exact .returned trivial
  · exact .returned trivial
  · exact .failed _ _

lemma inStep_parameters :
    InStep (fun _ _ => True) (parameters c node) (parameters c' node.bare) := by
  unfold parameters
  rw [namedChildren_bare]
  refine (InStep.mapM fun n _ => inStep_parameter? h n).bind fun _ _ _ => ?_
  exact .returned trivial

end JavaToGo
