import JavaToGo.Lowering.Expression
import Mathlib.Tactic.Lemma

/-!
# What holds all over a tree

A rule only looks at nodes below its own.
-/

namespace JavaToGo

open List
namespace Tree
namespace Node

variable {node inner : Node}
variable {field : String}

lemma mem_walk_of_mem_children (hchild : inner ∈ node.children) (hn : n ∈ inner.walk) :
    n ∈ node.walk := by
  rw [walk_eq_flatMap]
  exact mem_cons_of_mem _ (mem_flatMap.2 ⟨inner, hchild, hn⟩)

lemma mem_children_of_operands (h : inner ∈ node.operands) : inner ∈ node.children :=
  (mem_filter.1 (mem_filter.1 h).1).1

lemma mem_children_of_fieldChildren (h : inner ∈ node.fieldChildren field) :
    inner ∈ node.children :=
  (mem_filter.1 h).1

lemma mem_children_of_fieldChild? (h : node.fieldChild? field = some inner) :
    inner ∈ node.children :=
  mem_of_find?_eq_some h

lemma fieldChild?_of_require (h : node.require field = .ok inner) :
    node.fieldChild? field = some inner := by
  rw [require] at h
  cases hchild : node.fieldChild? field with
  | none =>
    rw [hchild] at h
    cases h
  | some =>
    rw [hchild] at h
    cases h
    rfl

lemma mem_children_of_require (h : node.require field = .ok inner) : inner ∈ node.children :=
  mem_children_of_fieldChild? (fieldChild?_of_require h)

lemma mem_children_of_childrenOfKind {kind : Kind} (h : inner ∈ node.childrenOfKind kind) :
    inner ∈ node.children :=
  (mem_filter.1 h).1

lemma mem_children_of_childOfKind? {kind : Kind} (h : node.childOfKind? kind = some inner) :
    inner ∈ node.children :=
  mem_of_find?_eq_some h

lemma mem_children_of_updateParts (h : node.updateParts = .ok parts) : parts.1 ∈ node.children := by
  have hscan : ∀ (children : List Node) (scan : UpdateScan),
      (∀ n, scan.operand = some n → n ∈ node.children) → (∀ n ∈ children, n ∈ node.children) →
        ∀ n, (children.foldl UpdateScan.read scan).operand = some n → n ∈ node.children := by
    intro children
    induction children with
    | nil =>
      intro scan hoperand _ n hn
      exact hoperand n hn
    | cons first rest ih =>
      intro scan hoperand hall n hn
      refine ih (scan.read first) ?_ (fun m hm => hall m (mem_cons_of_mem _ hm)) n hn
      intro m hm
      unfold UpdateScan.read at hm
      split at hm
      · exact hoperand m hm
      · split at hm
        · cases hm
          exact hall first mem_cons_self
        · exact hoperand m hm
  unfold updateParts at h
  dsimp only at h
  split at h
  · rename_i operand operator hoperand _
    cases h
    refine hscan node.children {} ?_ (fun _ hn => hn) operand hoperand
    intro n hn
    cases hn
  · cases h

/-- The property holds of the node and of all nodes below it. -/
def Everywhere (p : Node → Prop) (node : Node) : Prop :=
  ∀ n ∈ node.walk, p n

instance {p : Node → Prop} [DecidablePred p] : Decidable (Everywhere p node) :=
  inferInstanceAs (Decidable (∀ n ∈ node.walk, p n))

variable {p : Node → Prop} (h : Everywhere p node)
include h

lemma Everywhere.here : p node :=
  h node (mem_walk_self node)

lemma Everywhere.child (hchild : inner ∈ node.children) : Everywhere p inner :=
  fun n hn => h n (mem_walk_of_mem_children hchild hn)

lemma Everywhere.operand (hchild : inner ∈ node.operands) : Everywhere p inner :=
  h.child (mem_children_of_operands hchild)

lemma Everywhere.part (hchild : node.require field = .ok inner) : Everywhere p inner :=
  h.child (mem_children_of_require hchild)

lemma Everywhere.part? (hchild : node.fieldChild? field = some inner) : Everywhere p inner :=
  h.child (mem_children_of_fieldChild? hchild)

lemma Everywhere.member (hchild : inner ∈ node.bodyMembers) : Everywhere p inner := by
  unfold bodyMembers at hchild
  split at hchild
  · cases hchild
  · rename_i body hbody
    obtain ⟨part, hpart, hmember⟩ := mem_flatMap.1 hchild
    have hbelow : Everywhere p part := (h.part? hbody).child (mem_filter.1 hpart).1
    unfold membersOfChild at hmember
    split at hmember
    · cases hmember
    split at hmember
    · exact hbelow.operand hmember
    · obtain rfl := mem_singleton.1 hmember
      exact hbelow

end Node
end Tree

namespace Lower

lemma exists_of_mem_arrayDimensions (h : size ∈ (arrayDimensions node).1) :
    ∃ inner ∈ node.children, size ∈ inner.operands := by
  -- A scan finds what it has found before, or an operand of a child.
  have hscan : ∀ (step : List Node × Nat → Node → List Node × Nat),
      (∀ found child, size ∈ (step found child).1 → size ∈ found.1 ∨ size ∈ child.operands) →
      ∀ (children : List Node) (found : List Node × Nat), size ∈ (children.foldl step found).1 →
        size ∈ found.1 ∨ ∃ inner ∈ children, size ∈ inner.operands := by
    intro step hstep children
    induction children with
    | nil => exact fun found h => .inl h
    | cons child children ih =>
      intro found h
      rcases ih _ h with hfound | ⟨inner, hinner, hsize⟩
      · rcases hstep found child hfound with hold | hnew
        · exact .inl hold
        · exact .inr ⟨child, mem_cons_self, hnew⟩
      · exact .inr ⟨inner, mem_cons_of_mem _ hinner, hsize⟩
  refine (hscan _ (fun found child hfound => ?_) node.children ([], 0) h).resolve_left not_mem_nil
  split at hfound
  · exact mem_append.1 hfound
  · exact .inl hfound
  · exact .inl hfound

end Lower
end JavaToGo
