import JavaToGo.Proofs.Lowering.Result

/-!
# Creations without arguments

Where no constructor without arguments is filed, the default constructor is named
by the modifiers of the class, and `new T()` by the visibility recorded for it.
-/

namespace JavaToGo

open Lower

lemma defaultConstructorName_inj (javaName : String) :
    defaultConstructorName javaName p = defaultConstructorName javaName q ↔ p = q := by
  constructor
  · intro h
    have hword : Code.withVisibility "new" p = Code.withVisibility "new" q := by
      exact (String.append_left_inj _).1 h
    revert hword
    cases p <;> cases q <;> decide +kernel
  · rintro rfl
    rfl

lemma pickByArity_zero (h : overload? overloads [] = some o) :
    (pickByArity overloads 0).1 = some o := by
  have hfirst : (overloads.filter fun o => o.argumentTypes.length == 0).head? = some o := by
    rw [List.head?_filter, ← h]
    congr 1
    funext o
    cases o.argumentTypes <;> rfl
  unfold pickByArity
  split
  · cases h
  · next only =>
      have honly := List.mem_of_find?_eq_some h
      rw [List.mem_singleton.1 honly]
  · split
    · next hnone =>
        rw [hnone] at hfirst
        cases hfirst
    · next first more hfilter =>
        rw [hfilter] at hfirst
        exact hfirst

/-- A creation without arguments finds the constructor that a class without constructors gets. -/
def Symbols.FindsDefault (s : Symbols) (typeName javaName : String) (isPublic : Bool) : Prop :=
  (overload? (s.constructorOverloads typeName) []).isSome
    ∨ ((pickByArity (s.constructorOverloads typeName) 0).1 = none
      ∧ (s.declaredTypes.find? javaName).all DeclaredType.isPublic = isPublic)
    ∨ ∃ o, (pickByArity (s.constructorOverloads typeName) 0).1 = some o
      ∧ o.name = defaultConstructorName javaName isPublic

lemma resolveConstructor_name_eq_iff (s : Symbols) (typeName javaName : String) (isPublic : Bool) :
    (s.resolveConstructor typeName javaName 0).name
        = s.constructorNameFor isPublic typeName javaName []
      ↔ s.FindsDefault typeName javaName isPublic := by
  unfold Symbols.resolveConstructor Symbols.constructorNameFor Symbols.FindsDefault
  cases hexact : overload? (s.constructorOverloads typeName) [] with
  | some =>
    have hpicked := pickByArity_zero hexact
    rcases hpick : pickByArity (s.constructorOverloads typeName) 0 with ⟨picked, ambiguous⟩
    rw [hpick] at hpicked
    cases hpicked
    simp
  | none =>
    rcases hpick : pickByArity (s.constructorOverloads typeName) 0 with ⟨picked, ambiguous⟩
    cases picked with
    | none => simp [defaultConstructorName_inj]
    | some o => simp

/-- `new T()` without a body, where `T` has the simple name and the Go type. -/
structure PlainCreation (c : TypeContext) (node : Node) (javaName goType : String) : Prop where
  kind : node.kind = .objectCreation
  bodiless : node.childOfKind? .classBody = none
  type : ∃ type, node.require "type" = .ok type ∧ Lower.simpleTypeName type = .ok javaName
    ∧ typeOf c type = .ok goType
  arguments : ∃ list, node.require "arguments" = .ok list ∧ list.operands = []

def isContainerType (goType : String) : Bool :=
  Code.isSliceType (some goType) || Code.isMapType (some goType)

variable {c : Context}
variable {go : Node → Lower Lowered}

namespace Lower

lemma exists_returns_containerType (goType : String) :
    ∃ container, (containerType goType).Returns c t container := by
  have hread : (read : Lower Context).Returns c t c := rfl
  unfold Returns
  rw [containerType, hread.runAt_bind]
  cases c.expected with
  | none => exact ⟨goType, rfl⟩
  | some expected =>
    dsimp only
    split
    · exact ⟨expected, rfl⟩
    · exact ⟨goType, rfl⟩

lemma exists_constructorCall (hname : simpleTypeName type = .ok javaName) :
    ∃ lowered t', (constructorCall go type []).runAt c t = (.ok lowered, t')
      ∧ lowered.value = .callNamed
        (c.symbols.resolveConstructor (c.mapName javaName) javaName 0).name [] false := by
  have hnone : (lowerAll go []).Returns c t {} := rfl
  rw [constructorCall, hnone.runAt_bind, (Returns.lift hname).runAt_bind]
  exact ⟨_, _, rfl, rfl⟩

end Lower

lemma exists_of_plainCreation (h : PlainCreation c.toTypeContext node javaName goType) (t : Trail) :
    ∃ lowered t', (expression node).runAt c t = (.ok lowered, t')
      ∧ (isContainerType goType = true →
          ∃ first more, lowered.value = .callNamed "make" (first :: more) false)
      ∧ (isContainerType goType = false →
          lowered.value = .callNamed
            (c.symbols.resolveConstructor (c.mapName javaName) javaName 0).name [] false) := by
  obtain ⟨type, htype, hname, hgo⟩ := h.type
  obtain ⟨list, hlist, hoperands⟩ := h.arguments
  obtain ⟨go, hgoing⟩ := exists_expression_eq node
  obtain ⟨container, hcontainer⟩ := exists_returns_containerType (c := c) (t := t) goType
  have htypes : types.Returns c t c.toTypeContext := rfl
  rw [hgoing]
  simp only [expressionStep, h.kind, objectCreation, h.bodiless, Option.isSome_none,
    Bool.false_eq_true, if_false]
  rw [(Lower.Returns.lift htype).runAt_bind, htypes.runAt_bind, (Lower.Returns.lift hgo).runAt_bind,
    (Lower.Returns.lift hlist).runAt_bind, hoperands]
  unfold isContainerType
  by_cases hslice : Code.isSliceType (some goType) = true
  · rw [if_pos hslice, hcontainer.runAt_bind]
    exact ⟨_, _, rfl, fun _ => ⟨_, _, rfl⟩, fun hother => by simp [hslice] at hother⟩
  rw [if_neg hslice]
  by_cases hmap : Code.isMapType (some goType) = true
  · rw [if_pos hmap, hcontainer.runAt_bind]
    exact ⟨_, _, rfl, fun _ => ⟨_, _, rfl⟩, fun hother => by simp [hmap] at hother⟩
  · rw [if_neg hmap]
    obtain ⟨lowered, t', hrun, hvalue⟩ := exists_constructorCall (c := c) (t := t) hname
    exact ⟨lowered, t', hrun, fun hother => by simp [hslice, hmap] at hother, fun _ => hvalue⟩

end JavaToGo
