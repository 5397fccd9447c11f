import Mathlib.Logic.Relation
import JavaToGo.Proofs.TypeMapping.Parts

/-!
# Type arguments are counted, never cut off

A type expression that is complete has no Go type for one reason only: a list has
more than one type argument, or a map more than two.
-/

namespace JavaToGo

open JavaToGo.Tree (Node)
open Relation (ReflTransGen)
open List Outcome

/-- Whether a list or a map of the name cannot have so many type arguments. -/
def isOverfull (base : String) (count : Nat) : Bool :=
  base ∈ listTypes && 1 < count || base ∈ mapTypes && 2 < count

namespace Tree.Node

/-- The node has what its kind asks for, whatever its parts are like. -/
def isWhole (n : Node) : Bool :=
  match n.kind with
  | .typeIdentifier | .wildcard => true
  | .scopedTypeIdentifier => (lastTypeName? n.children).isSome
  | .integralType | .floatingPointType | .booleanType => (primitiveTypes.lookup n.text).isSome
  | .arrayType => (n.fieldChild? "element").isSome
  | .genericType => n.genericBase?.isSome && (n.childrenOfKind .typeArguments).length ≤ 1
  | .annotatedType => (n.namedChildren.find? isType).isSome
  | _ => false

/-- A type expression that is whole and made of complete ones. -/
inductive Complete : Node → Prop
  | intro {n : Node} (whole : n.isWhole = true) (parts : ∀ p ∈ n.typeParts, Complete p) : Complete n

/-- From a type expression to one that it is made of, over any number of levels. -/
def Reaches : Node → Node → Prop :=
  ReflTransGen fun n p => p ∈ n.typeParts

variable (c : TypeContext)

/-- The settings do not write the node their own way. -/
def LeftAlone (n : Node) : Prop :=
  n.kind = .genericType → ∀ base, n.genericBase? = some base → c.override? base = none

/-- The same way down, below nothing that the settings write their own way. -/
def ReachesOpenly : Node → Node → Prop :=
  ReflTransGen fun n p => n.LeftAlone c ∧ p ∈ n.typeParts

/-- A list with more than one type argument, or a map with more than two. -/
def Overfull (n : Node) : Prop :=
  n.kind = .genericType ∧ ∃ base, n.genericBase? = some base ∧ c.override? base = none
    ∧ isOverfull base n.typeParts.length = true

end Tree.Node

/-- The texts stand one after the other in a text, without overlap. -/
def InOrder : List String → List Char → Prop
  | [], _ => True
  | s :: ss, cs => ∃ before after, cs = before ++ s.toList ++ after ∧ InOrder ss after

lemma InOrder.infix_of_mem (h : InOrder ss cs) : ∀ s ∈ ss, s.toList <:+: cs := by
  induction ss generalizing cs with
  | nil => simp
  | cons s ss ih =>
    obtain ⟨before, after, rfl, hrest⟩ := h
    refine forall_mem_cons.2 ⟨⟨before, after, rfl⟩, fun t ht => ?_⟩
    exact (ih hrest t ht).trans (suffix_append _ _).isInfix

lemma inOrder_intercalate (ss : List String) (before after : List Char) :
    InOrder ss (before ++ (", ".intercalate ss).toList ++ after) := by
  induction ss generalizing before with
  | nil => trivial
  | cons s ss ih =>
    cases ss with
    | nil => exact ⟨before, after, by simp, trivial⟩
    | cons t ss =>
      refine ⟨before, ", ".toList ++ (", ".intercalate (t :: ss)).toList ++ after, ?_, ih _⟩
      simp [String.intercalate_cons_cons]

lemma Outcome.exists_of_mem {α β : Type} {f : α → Outcome β} {as : List α} {bs : List β}
    (h : Forall₂ (fun a b => f a = .ok b) as bs) {a : α} (ha : a ∈ as) : ∃ b ∈ bs, f a = .ok b := by
  induction h with
  | nil => cases ha
  | @cons a' b as bs hab _ ih =>
    rcases mem_cons.1 ha with rfl | ha
    · exact ⟨b, mem_cons_self, hab⟩
    · obtain ⟨b', hmem, hb⟩ := ih ha
      exact ⟨b', mem_cons_of_mem _ hmem, hb⟩

/-- The type of an expression shows all arguments in it: a generic type that is reached has those of
its own in order, and stands in the type itself where it is reached openly. -/
structure Tree.Node.ShowsArguments (c : TypeContext) (n : Node) (type : String) : Prop where
  shown : ∀ g, n.Reaches g → ∃ text types, typeOf c g = .ok text
    ∧ g.typeParts.mapM (typeOf c) = .ok types ∧ (g.LeftAlone c → InOrder types text.toList)
  inside : ∀ g text, n.ReachesOpenly c g → typeOf c g = .ok text → text.toList <:+: type.toList

section

variable {c : TypeContext} {n : Node}

lemma mapGeneric_cases (hbase : c.override? base = none) (args : List String) :
    (isOverfull base args.length ∧ ∃ cause, c.mapGeneric n base args = .error (.overfull cause n))
      ∨ (¬isOverfull base args.length ∧ ∃ type, c.mapGeneric n base args = .ok type
        ∧ InOrder args type.toList) := by
  unfold TypeContext.mapGeneric isOverfull
  rw [hbase]
  by_cases hlist : base ∈ listTypes
  · simp only [hlist]
    rcases args with _ | ⟨a, _ | ⟨b, args⟩⟩
    · exact .inr ⟨by simp, _, rfl, trivial⟩
    · exact .inr ⟨by simp, _, rfl, "[]".toList, [], by simp, trivial⟩
    · exact .inl ⟨by simp, _, rfl⟩
  by_cases hmap : base ∈ mapTypes
  · simp only [hlist, hmap]
    rcases args with _ | ⟨a, _ | ⟨b, _ | ⟨d, args⟩⟩⟩
    · exact .inr ⟨by simp, _, rfl, trivial⟩
    · exact .inr ⟨by simp, _, rfl, "map[".toList, ("]" ++ Code.anyType).toList, by simp, trivial⟩
    · exact .inr ⟨by simp, _, rfl, "map[".toList, ("]" ++ b).toList, by simp, "]".toList, [],
        by simp, trivial⟩
    · exact .inl ⟨by simp, _, rfl⟩
  · simp only [hlist, hmap]
    refine .inr ⟨by simp, _, rfl, ?_⟩
    unfold Code.instantiated
    split
    · next hargs =>
        rw [List.isEmpty_iff.1 hargs]
        trivial
    · simpa using inOrder_intercalate args (c.mapName base ++ "[").toList "]".toList

lemma composed_of_kind_ne (h : n.isWhole) (hkind : n.kind ≠ .genericType)
    (hlength : types.length = n.typeParts.length) :
    ∃ type, n.composed c types = .ok type ∧ InOrder types type.toList := by
  unfold Node.isWhole at h
  unfold Node.typeParts Node.partLists at hlength
  unfold Node.composed
  -- An array and an annotated type have one part, the other kinds of nodes none.
  split at h <;> rename_i hk <;> simp only [hk] at hlength hkind ⊢
  iterate 2
    rw [eq_nil_of_length_eq_zero hlength]
    exact ⟨_, rfl, trivial⟩
  iterate 4
    obtain ⟨name, hname⟩ := Option.isSome_iff_exists.1 h
    rw [hname, eq_nil_of_length_eq_zero hlength]
    exact ⟨_, rfl, trivial⟩
  · obtain ⟨element, helement⟩ := Option.isSome_iff_exists.1 h
    obtain ⟨type, rfl⟩ := length_eq_one_iff.1 (by simpa [helement] using hlength)
    exact ⟨_, rfl, (Text.repeated (arrayDepth n.children) "[]").toList, [], by simp [Code.sliceOf],
      trivial⟩
  · exact absurd rfl hkind
  · obtain ⟨part, hpart⟩ := Option.isSome_iff_exists.1 h
    obtain ⟨type, rfl⟩ := length_eq_one_iff.1 (by simpa [hpart] using hlength)
    exact ⟨_, rfl, [], [], by simp, trivial⟩
  · cases h

lemma composed_cases (h : n.isWhole) (hlength : types.length = n.typeParts.length) :
    (n.Overfull c ∧ ∃ cause, n.composed c types = .error (.overfull cause n))
      ∨ (¬n.Overfull c ∧ ∃ type, n.composed c types = .ok type
        ∧ (n.LeftAlone c → InOrder types type.toList)) := by
  by_cases hkind : n.kind = .genericType
  · unfold Node.isWhole at h
    simp only [hkind, Bool.and_eq_true] at h
    obtain ⟨base, hbase⟩ := Option.isSome_iff_exists.1 h.1
    unfold Node.composed Node.Overfull Node.LeftAlone
    simp only [hkind, hbase, ← hlength]
    cases hover : c.override? base with
    | some type =>
      refine .inr ⟨by simp [hover], type, ?_, by simp [hover]⟩
      unfold TypeContext.mapGeneric
      rw [hover]
    | none =>
      obtain hfull | ⟨hfits, type, htype, horder⟩ := mapGeneric_cases (n := n) hover types
      · exact .inl ⟨⟨trivial, base, rfl, hover, hfull.1⟩, hfull.2⟩
      · exact .inr ⟨by simp [hfits], type, htype, fun _ => horder⟩
  · obtain ⟨type, htype, horder⟩ := composed_of_kind_ne (c := c) h hkind hlength
    exact .inr ⟨fun hfull => hkind hfull.1, type, htype, fun _ => horder⟩

lemma typeOf_eq_composed (h : n.isWhole) :
    typeOf c n = n.typeParts.mapM (typeOf c) >>= fun types => n.composed c types := by
  have hlists : n.partLists.length ≤ 1 := by
    unfold Node.isWhole at h
    unfold Node.partLists
    split at h <;> rename_i hkind <;> simp only [hkind] <;> simp_all
  rw [typeOf_eq, Node.typeParts]
  rcases hparts : n.partLists with _ | ⟨parts, _ | ⟨more, lists⟩⟩
  · rfl
  · rw [mapM_cons, mapM_nil, getLast?_singleton, Option.getD_some]
    cases parts.mapM (typeOf c) <;> rfl
  · simp [hparts] at hlists

lemma typeOf_cases (h : n.Complete) :
    (∃ g cause, n.Reaches g ∧ g.Overfull c ∧ typeOf c n = .error (.overfull cause g))
      ∨ ((∀ g, n.Reaches g → ¬g.Overfull c)
        ∧ ∃ type, typeOf c n = .ok type ∧ n.ShowsArguments c type) := by
  induction h with
  | @intro n whole parts ih =>
    rw [typeOf_eq_composed whole]
    obtain ⟨types, htypes, hall⟩ | ⟨p, hp, failure, hfailure, herror⟩ :=
      mapM_cases (typeOf c) n.typeParts
    · have hparts : ∀ p ∈ n.typeParts, (∀ g, p.Reaches g → ¬g.Overfull c)
          ∧ ∃ text ∈ types, typeOf c p = .ok text ∧ p.ShowsArguments c text := by
        intro p hp
        obtain ⟨text, hmem, htext⟩ := Outcome.exists_of_mem hall hp
        obtain ⟨_, _, _, _, herror⟩ | ⟨hnone, text', htext', hshows⟩ := ih p hp
        · cases herror.symm.trans htext
        · cases htext'.symm.trans htext
          exact ⟨hnone, text, hmem, htext, hshows⟩
      rw [htypes]
      obtain ⟨hfull, cause, herror⟩ | ⟨hfits, type, htype, horder⟩ :=
        composed_cases (c := c) whole hall.length_eq.symm
      · exact .inl ⟨n, cause, .refl, hfull, herror⟩
      have hn : typeOf c n = .ok type := by rw [typeOf_eq_composed whole, htypes]; exact htype
      refine .inr ⟨fun g hg => ?_, type, htype, fun g hg => ?_, fun g text hg htext => ?_⟩
      · obtain rfl | ⟨p, hp, hg⟩ := hg.cases_head
        · exact hfits
        · exact (hparts p hp).1 g hg
      · obtain rfl | ⟨p, hp, hg⟩ := hg.cases_head
        · exact ⟨type, types, hn, htypes, horder⟩
        · obtain ⟨-, text, -, -, hshows⟩ := hparts p hp
          exact hshows.shown g hg
      · obtain rfl | ⟨p, ⟨halone, hp⟩, hg⟩ := hg.cases_head
        · cases hn.symm.trans htext
          exact infix_rfl
        · obtain ⟨-, outer, hmem, -, hshows⟩ := hparts p hp
          exact (hshows.inside g text hg htext).trans ((horder halone).infix_of_mem outer hmem)
    · rw [herror]
      obtain ⟨g, cause, hg, hfull, hg'⟩ | ⟨-, type, htype, -⟩ := ih p hp
      · cases hfailure.symm.trans hg'
        exact .inl ⟨g, cause, .head hp hg, hfull, rfl⟩
      · cases hfailure.symm.trans htype

end

/-- A complete type expression has no Go type exactly when a list or a map that it reaches has too
many type arguments; there is no other failure.  Where it has one, no argument is lost. -/
theorem typeOf_fails_iff_overfull (c : TypeContext) {node : Node} (hcomplete : node.Complete) :
    ((∃ failure, typeOf c node = .error failure) ↔ ∃ g, node.Reaches g ∧ g.Overfull c)
    ∧ (∀ failure, typeOf c node = .error failure →
        ∃ cause g, failure = .overfull cause g ∧ node.Reaches g ∧ g.Overfull c)
    ∧ ∀ type, typeOf c node = .ok type → node.ShowsArguments c type := by
  obtain ⟨g, cause, hg, hfull, herror⟩ | ⟨hnone, type, htype, hshows⟩ :=
    typeOf_cases (c := c) hcomplete
  · refine ⟨iff_of_true ⟨_, herror⟩ ⟨g, hg, hfull⟩, fun failure h => ?_, fun type h => ?_⟩
    · cases h.symm.trans herror
      exact ⟨cause, g, rfl, hg, hfull⟩
    · cases h.symm.trans herror
  · have hok : ∀ failure, typeOf c node ≠ .error failure := fun failure h => by
      cases htype.symm.trans h
    refine ⟨iff_of_false (fun ⟨failure, h⟩ => hok failure h) fun ⟨g, hg, hfull⟩ => hnone g hg hfull,
      fun failure h => absurd h (hok failure), fun type' h => ?_⟩
    cases h.symm.trans htype
    exact hshows

/-- A generic type with the given arguments. -/
def Tree.Node.plainGeneric (base : String) (args : List Node) : Node :=
  .tree 0 .genericType
    [.leaf 0 .typeIdentifier base, .tree 0 .typeArguments args]

/-- The type `Box<List<A, B>>`. -/
def crowdedBox : Node :=
  .plainGeneric "Box" [.plainGeneric "List"
    [.leaf 0 .typeIdentifier "A", .leaf 0 .typeIdentifier "B"]]

/-- The settings write `Box` their own way. -/
def boxContext : TypeContext where
  settings := { typeMappings := Table.ofList [("Box", "box")] }

lemma complete_crowdedBox : crowdedBox.Complete := by
  refine .intro rfl fun p hp => ?_
  obtain rfl := mem_singleton.1 hp
  refine .intro rfl fun q hq => ?_
  have hleaf : q.isWhole = true ∧ q.typeParts.length = 0 := by
    revert q
    decide
  refine .intro hleaf.1 fun r hr => ?_
  rw [eq_nil_of_length_eq_zero hleaf.2] at hr
  cases hr

theorem typeOf_crowdedBox : crowdedBox.Complete
    ∧ (∃ failure, typeOf boxContext crowdedBox = .error failure)
    ∧ ∃ g, crowdedBox.Reaches g ∧ g.Overfull boxContext := by
  obtain ⟨hiff, -, -⟩ := typeOf_fails_iff_overfull boxContext complete_crowdedBox
  exact ⟨complete_crowdedBox, ⟨_, rfl⟩, hiff.1 ⟨_, rfl⟩⟩

end JavaToGo
