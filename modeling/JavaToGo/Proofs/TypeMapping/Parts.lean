import Mathlib.Data.List.Forall2
import JavaToGo.Proofs.Lowering.Result
import JavaToGo.Proofs.Lowering.Subtree

/-!
# The parts of type expressions

The type expressions that an expression is made of are mapped one after the
other, and their texts are put together.
-/

namespace JavaToGo

open JavaToGo.Tree (Node)
open List Tree.Node Outcome

lemma Outcome.mapM_congr {α β : Type} {f g : α → Outcome β} {as : List α}
    (h : ∀ a ∈ as, f a = g a) : as.mapM f = as.mapM g := by
  induction as with
  | nil => rfl
  | cons a as ih =>
    rw [mapM_cons, mapM_cons, h a mem_cons_self, ih fun a ha => h a (mem_cons_of_mem _ ha)]

lemma Outcome.mapM_cases {α β : Type} (f : α → Outcome β) (as : List α) :
    (∃ bs, as.mapM f = .ok bs ∧ Forall₂ (fun a b => f a = .ok b) as bs)
      ∨ ∃ a ∈ as, ∃ failure, f a = .error failure ∧ as.mapM f = .error failure := by
  induction as with
  | nil => exact .inl ⟨[], rfl, .nil⟩
  | cons a as ih =>
    rw [mapM_cons]
    cases ha : f a with
    | error failure => exact .inr ⟨a, mem_cons_self, failure, ha, rfl⟩
    | ok b =>
      rcases ih with ⟨bs, hbs, hall⟩ | ⟨a', ha', failure, hfailure, herror⟩
      · exact .inl ⟨b :: bs, by rw [hbs]; rfl, .cons ha hall⟩
      · exact .inr ⟨a', mem_cons_of_mem _ ha', failure, hfailure, by rw [herror]; rfl⟩

namespace Tree.Node

/-- Whether the node stands for a type; `void` does not. -/
def isType (n : Node) : Bool :=
  match n.kind with
  | .typeIdentifier | .scopedTypeIdentifier | .integralType | .floatingPointType | .booleanType
  | .arrayType | .genericType | .wildcard | .annotatedType => true
  | _ => false

def nextBase (n : Node) (base : Option String) : Option String :=
  match n.kind with
  | .typeIdentifier => some n.text
  | .scopedTypeIdentifier => lastTypeName? n.children
  | _ => base

/-- The name in front of the arguments of a generic type. -/
def genericBase? (n : Node) : Option String :=
  n.children.foldl (fun base n => n.nextBase base) none

/-- The type expressions that a type expression is made of; only the arguments of a generic type
may come in several lists. -/
def partLists (n : Node) : List (List Node) :=
  match n.kind with
  | .arrayType => [(n.fieldChild? "element").toList]
  | .genericType => (n.childrenOfKind .typeArguments).map namedChildren
  | .annotatedType => [(n.namedChildren.find? isType).toList]
  | _ => []

/-- The parts that count: the last list of them. -/
def typeParts (n : Node) : List Node :=
  n.partLists.getLast?.getD []

/-- The Go type of a node, put together from those of its parts. -/
def composed (c : TypeContext) (n : Node) (types : List String) : Outcome String :=
  match n.kind with
  | .typeIdentifier => .ok (c.mapName n.text)
  | .scopedTypeIdentifier =>
    match lastTypeName? n.children with
    | some name => .ok (c.mapName name)
    | none => .error (.unmapped .scopedWithoutName n)
  | .integralType | .floatingPointType | .booleanType =>
    match primitiveTypes.lookup n.text with
    | some type => .ok type
    | none => .error (.fault (.missingKey n.text))
  | .arrayType =>
    match types.head? with
    | some element => .ok (Code.sliceOf (arrayDepth n.children) element)
    | none => .error (.malformed (.missingField .arrayType "element") n)
  | .genericType =>
    match n.genericBase? with
    | some base => c.mapGeneric n base types
    | none => .error (.unmapped .genericWithoutBase n)
  | .wildcard => .ok "any"
  | .annotatedType =>
    match types.head? with
    | some type => .ok type
    | none => .error (.unmapped .annotatedWithoutType n)
  | _ => .error (.unmapped (.notAType n.kind n.text) n)

lemma mem_children_of_mem_partLists {n : Node} (h : parts ∈ n.partLists) (hp : p ∈ parts) :
    p ∈ n.children ∨ ∃ list ∈ n.children, p ∈ list.children := by
  unfold partLists at h
  split at h
  · rw [mem_singleton.1 h, Option.mem_toList] at hp
    exact .inl (mem_children_of_fieldChild? hp)
  · obtain ⟨list, hlist, rfl⟩ := mem_map.1 h
    exact .inr ⟨list, mem_children_of_childrenOfKind hlist, (mem_filter.1 hp).1⟩
  · rw [mem_singleton.1 h, Option.mem_toList] at hp
    exact .inl (mem_filter.1 (mem_of_find?_eq_some hp)).1
  · cases h

lemma Everywhere.typePart {q : Node → Prop} {n : Node} (h : n.Everywhere q)
    (hparts : parts ∈ n.partLists) (hp : p ∈ parts) : p.Everywhere q := by
  obtain hchild | ⟨list, hlist, hchild⟩ := mem_children_of_mem_partLists hparts hp
  · exact h.child hchild
  · exact (h.child hlist).child hchild

lemma induction_on_parts {q : Node → Prop}
    (step : ∀ n, (∀ parts ∈ n.partLists, ∀ p ∈ parts, q p) → q n) (n : Node) : q n :=
  step n fun parts hparts p hp =>
    have : p.height < n.height := by
      obtain hchild | ⟨list, hlist, hchild⟩ := mem_children_of_mem_partLists hparts hp
      · exact height_lt_of_mem_children hchild
      · exact Nat.lt_trans (height_lt_of_mem_children hchild) (height_lt_of_mem_children hlist)
    induction_on_parts step p
termination_by n.height

end Tree.Node

variable (c : TypeContext)

lemma tryType_ne_none {n : Node} (h : n.isType = true) : tryType c n ≠ .ok none := by
  obtain ⟨head, children⟩ := n
  rw [tryType]
  intro hnone
  split at hnone
  · cases hnone
  iterate 4 split at hnone <;> cases hnone
  · obtain ⟨element, -, ⟨⟩⟩ := exists_of_bind hnone
  · obtain ⟨⟨_ | base, args⟩, -, hrest⟩ := exists_of_bind hnone
    · cases hrest
    · obtain ⟨type, -, ⟨⟩⟩ := exists_of_bind hrest
  · cases hnone
  · obtain ⟨_ | type, -, ⟨⟩⟩ := exists_of_bind hnone
  · simp_all [Node.isType, Node.kind, Node.head]

lemma tryType_eq (n : Node) : tryType c n = if n.isType then some <$> typeOf c n else .ok none := by
  split
  · next h =>
      have hne := tryType_ne_none c h
      revert hne
      unfold typeOf
      rcases tryType c n with failure | _ | type
      · exact fun _ => rfl
      · exact fun hne => absurd rfl hne
      · exact fun _ => rfl
  · next h =>
      obtain ⟨head, children⟩ := n
      unfold Node.isType at h
      rw [tryType]
      split at h <;> simp_all [Node.kind, Node.head]

lemma argumentTypes_eq (ns : List Node) :
    argumentTypes c ns = (ns.filter named).mapM (typeOf c) := by
  induction ns with
  | nil =>
    rfl
  | cons n ns ih =>
    rw [argumentTypes, ih]
    cases hn : n.named
    · simp [hn]
    · simp [hn]
      rfl

/-- Of several names and of several lists of arguments, the last ones count. -/
lemma genericParts_eq (base : Option String) (args : List String) (ns : List Node) :
    genericParts c base args ns = do
      let lists ← (ns.filter fun n => n.kind == .typeArguments).mapM fun n =>
        n.namedChildren.mapM (typeOf c)
      return (ns.foldl (fun base n => n.nextBase base) base, lists.getLast?.getD args) := by
  induction ns generalizing base args with
  | nil =>
    rfl
  | cons n ns ih =>
    have hstep : genericParts c base args (n :: ns)
        = if n.kind = .typeArguments then
            n.namedChildren.mapM (typeOf c) >>= fun types => genericParts c base types ns
          else genericParts c (n.nextBase base) args ns := by
      obtain ⟨head, children⟩ := n
      rw [genericParts]
      unfold Node.nextBase
      split <;> simp_all [Node.kind, Node.head, Node.text, Node.children, argumentTypes_eq,
        Node.namedChildren]
    rw [hstep, foldl_cons]
    split
    · next hkind =>
        have hbase : n.nextBase base = base := by simp [Node.nextBase, hkind]
        simp only [ih, hbase]
        rw [filter_cons_of_pos (by simp [hkind]), mapM_cons]
        simp only [bind_assoc]
        simp [getLast?_cons]
    · next hkind => rw [ih, filter_cons_of_neg (by simpa using hkind)]

lemma elementType_eq (node : Node) (ns : List Node) :
    elementType c node ns
      = ((ns.find? fun n => n.field == some "element").map (typeOf c)).getD
        (.error (.malformed (.missingField node.kind "element") node)) := by
  induction ns with
  | nil =>
    rfl
  | cons n ns ih =>
    rw [elementType, ih]
    split
    · next hfield => simp [hfield, typeOf]
    · next hfield => rw [find?_cons_of_neg (by simpa using hfield)]

lemma firstType_eq (ns : List Node) :
    firstType c ns
      = (((ns.filter named).find? isType).map fun n => some <$> typeOf c n).getD (.ok none) := by
  induction ns with
  | nil =>
    rfl
  | cons n ns ih =>
    rw [firstType, ih, tryType_eq]
    cases hnamed : n.named with
    | false => simp [hnamed]
    | true =>
      cases htype : n.isType with
      | false =>
        simp [htype]
        rfl
      | true => simp [hnamed, htype]

lemma typeOf_eq (node : Node) :
    typeOf c node = (node.partLists.mapM fun parts => parts.mapM (typeOf c))
      >>= fun lists => node.composed c (lists.getLast?.getD []) := by
  obtain ⟨head, children⟩ := node
  rw [typeOf, tryType]
  unfold Node.partLists Node.composed
  simp only [Node.kind, Node.head, Node.children, Node.text]
  split <;> rename_i hkind <;> simp only [hkind]
  · rfl
  · cases lastTypeName? children <;> rfl
  · cases primitiveTypes.lookup head.text <;> rfl
  · cases primitiveTypes.lookup head.text <;> rfl
  · cases primitiveTypes.lookup head.text <;> rfl
  · rw [elementType_eq, Node.fieldChild?, Node.children, mapM_cons]
    rcases List.find? _ _ with _ | element
    · rw [show (Node.mk head children).kind = .arrayType from hkind]
      rfl
    · rw [Option.map_some, Option.toList_some, mapM_cons]
      cases typeOf c element <;> rfl
  · rw [genericParts_eq]
    simp only [Node.childrenOfKind, Node.genericBase?, Node.children, mapM_map, Function.comp_def]
    rcases List.mapM _ _ with failure | lists
    · rfl
    · cases List.foldl (fun base (n : Node) => n.nextBase base) none children with
      | none => rfl
      | some base => cases hmap : c.mapGeneric ⟨head, children⟩ base (lists.getLast?.getD []) <;>
          simp_all [requireType, bind, Except.bind, pure, Except.pure]
  · rfl
  · rw [firstType_eq, Node.namedChildren, Node.children, mapM_cons]
    rcases List.find? _ _ with _ | type
    · rfl
    · rw [Option.map_some, Option.toList_some, mapM_cons]
      cases typeOf c type <;> rfl
  · rfl

lemma related_getLast?_getD {α β : Type} {R : α → β → Prop} {as : List α} {bs : List β}
    (h : Forall₂ R as bs) {a : α} {b : β} (hab : R a b) :
    R (as.getLast?.getD a) (bs.getLast?.getD b) := by
  induction h generalizing a b with
  | nil => exact hab
  | cons hxy _ ih =>
    rw [getLast?_cons, getLast?_cons]
    exact ih hxy

end JavaToGo
