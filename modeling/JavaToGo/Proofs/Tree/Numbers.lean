import Mathlib.Data.List.Nodup
import Mathlib.Data.List.Pairwise
import JavaToGo.Proofs.Lowering.Subtree

/-!
# Numbers and paths
-/

namespace JavaToGo.Tree.Node

open List

variable {n : Node} {root : Node}

mutual
/-- The nodes of a tree with the nodes above each, the innermost first. -/
def occurrences : Node → List (List Node × Node)
  | .mk head children =>
    ([], .mk head children)
      :: (occurrencesAll children).map fun o => (o.1 ++ [.mk head children], o.2)

def occurrencesAll : List Node → List (List Node × Node)
  | [] => []
  | n :: ns => occurrences n ++ occurrencesAll ns
end

lemma occurrencesAll_eq_flatMap (ns : List Node) : occurrencesAll ns = ns.flatMap occurrences := by
  induction ns with
  | nil => rfl
  | cons n ns ih => rw [occurrencesAll, ih, flatMap_cons]

lemma occurrences_eq (n : Node) :
    n.occurrences = ([], n) :: (n.children.flatMap occurrences).map fun o => (o.1 ++ [n], o.2) := by
  cases n
  rw [occurrences, occurrencesAll_eq_flatMap]
  rfl

mutual
theorem map_snd_occurrences : ∀ n : Node, n.occurrences.map Prod.snd = n.walk
  | .mk head children => by
    rw [occurrences, map_cons, map_map, walk]
    exact congrArg _ (map_snd_occurrencesAll children)

theorem map_snd_occurrencesAll : ∀ ns : List Node, (occurrencesAll ns).map Prod.snd = walkAll ns
  | [] => rfl
  | n :: ns => by
    rw [occurrencesAll, map_append, map_snd_occurrences n, map_snd_occurrencesAll ns, walkAll]
end

section

variable {number : Nat}

mutual
theorem pathTo_eq : ∀ root : Node, pathTo number root
    = (root.occurrences.find? fun o => o.2.id == number).map fun o => o.2 :: o.1
  | .mk head children => by
    rw [pathTo, occurrences]
    by_cases hid : head.id = number
    · rw [if_pos hid, find?_cons_of_pos (by simp [Node.id, Node.head, hid])]
      rfl
    · rw [if_neg hid, find?_cons_of_neg (by simp [Node.id, Node.head, hid]), pathInto_eq children,
        find?_map, Option.map_map, Option.map_map]
      rfl

theorem pathInto_eq : ∀ roots : List Node, pathInto number roots
    = ((occurrencesAll roots).find? fun o => o.2.id == number).map fun o => o.2 :: o.1
  | [] => rfl
  | root :: roots => by
    rw [pathInto, pathTo_eq root, pathInto_eq roots, occurrencesAll, find?_append]
    cases root.occurrences.find? fun o => o.2.id == number <;> rfl
end

lemma exists_of_pathTo (h : pathTo number root = some path) :
    ∃ above n, (above, n) ∈ root.occurrences ∧ n.id = number ∧ path = n :: above := by
  rw [pathTo_eq] at h
  obtain ⟨⟨above, n⟩, hfound, rfl⟩ := Option.map_eq_some_iff.1 h
  exact ⟨above, n, mem_of_find?_eq_some hfound, by simpa using find?_some hfound, rfl⟩

lemma mem_walk_of_occurrence {n m root : Node} (h : (above, n) ∈ root.occurrences)
    (hm : m ∈ n :: above) : m ∈ root.walk := by
  rw [occurrences_eq, mem_cons, mem_map] at h
  rcases h with h | ⟨⟨inner, k⟩, hinner, h⟩
  · obtain ⟨rfl, rfl⟩ := Prod.mk.inj h
    obtain rfl := mem_singleton.1 hm
    exact mem_walk_self _
  · obtain ⟨rfl, rfl⟩ := Prod.mk.inj h
    obtain ⟨child, hchild, hinner⟩ := mem_flatMap.1 hinner
    rw [← cons_append, mem_append, mem_singleton] at hm
    rcases hm with hm | rfl
    · exact mem_walk_of_mem_children hchild (mem_walk_of_occurrence hinner hm)
    · exact mem_walk_self _
termination_by root.height
decreasing_by exact height_lt_of_mem_children hchild

lemma id_of_find? (h : root.find? number = some n) : n.id = number := by
  obtain ⟨path, hpath, hhead⟩ := Option.bind_eq_some_iff.1 h
  obtain ⟨above, found, -, hid, rfl⟩ := exists_of_pathTo hpath
  cases hhead
  exact hid

lemma mem_walk_trans {m root : Node} (hn : n ∈ m.walk) (hm : m ∈ root.walk) : n ∈ root.walk := by
  rw [walk_eq_flatMap, mem_cons, mem_flatMap] at hm
  rcases hm with rfl | ⟨child, hchild, hm⟩
  · exact hn
  · exact mem_walk_of_mem_children hchild (mem_walk_trans hn hm)
termination_by root.height
decreasing_by exact height_lt_of_mem_children hchild

lemma mem_walk_of_mem_pathTo (h : pathTo number root = some path) (hn : n ∈ path) :
    n ∈ root.walk := by
  obtain ⟨above, found, hfound, -, rfl⟩ := exists_of_pathTo h
  exact mem_walk_of_occurrence hfound hn

lemma mem_walk_of_find? (h : root.find? number = some n) : n ∈ root.walk := by
  obtain ⟨path, hpath, hhead⟩ := Option.bind_eq_some_iff.1 h
  exact mem_walk_of_mem_pathTo hpath (mem_of_head? hhead)

lemma mem_walk_of_mem_ancestors (h : n ∈ root.ancestors number) : n ∈ root.walk := by
  unfold ancestors at h
  cases hpath : pathTo number root with
  | none =>
    rw [hpath] at h
    cases h
  | some =>
    rw [hpath] at h
    exact mem_walk_of_mem_pathTo hpath (mem_of_mem_tail h)

lemma mem_walk_of_enclosingType? (h : root.enclosingType? n = some owner) : owner ∈ root.walk :=
  mem_walk_of_mem_ancestors (mem_of_find?_eq_some h)

end

/-- No number stands in the tree twice. -/
def DistinctNumbers (root : Node) : Prop :=
  (root.walk.map id).Nodup

instance (root : Node) : Decidable root.DistinctNumbers :=
  inferInstanceAs (Decidable (root.walk.map id).Nodup)

lemma DistinctNumbers.eq_of_id (h : root.DistinctNumbers) (hn : n ∈ root.walk)
    (hm : m ∈ root.walk) (hid : n.id = m.id) : n = m :=
  inj_on_of_nodup_map h hn hm hid

lemma pathTo_of_mem_occurrences (hdistinct : root.DistinctNumbers)
    (h : (above, n) ∈ root.occurrences) : pathTo n.id root = some (n :: above) := by
  rw [DistinctNumbers, ← map_snd_occurrences, map_map] at hdistinct
  cases hpath : pathTo n.id root with
  | none =>
    rw [pathTo_eq, Option.map_eq_none_iff, find?_eq_none] at hpath
    exact absurd (beq_self_eq_true _) (hpath _ h)
  | some path =>
    obtain ⟨above', n', hmem, hid, rfl⟩ := exists_of_pathTo hpath
    cases inj_on_of_nodup_map hdistinct hmem h hid
    rfl
lemma ancestors_of_mem_occurrences {root : Node} (hdistinct : root.DistinctNumbers)
    (h : (above, n) ∈ root.occurrences) : root.ancestors n.id = above := by
  rw [ancestors, pathTo_of_mem_occurrences hdistinct h]
  rfl

lemma height_le_of_mem_walk {root : Node} (h : n ∈ root.walk) : n.height ≤ root.height := by
  rw [walk_eq_flatMap, mem_cons, mem_flatMap] at h
  rcases h with rfl | ⟨child, hchild, hn⟩
  · exact Nat.le_refl _
  · have hlt := height_lt_of_mem_children hchild
    have hle := height_le_of_mem_walk hn
    omega
termination_by root.height

lemma DistinctNumbers.parent_unique {root : Node} (h : root.DistinctNumbers) (hm : m ∈ root.walk)
    (hm' : m' ∈ root.walk) (hn : n ∈ m.children) (hn' : n ∈ m'.children) : m = m' := by
  unfold DistinctNumbers at h
  rw [walk_eq_flatMap, map_cons, map_flatMap, nodup_cons, nodup_flatMap] at h
  obtain ⟨-, hwithin, hapart⟩ := h
  have hown : ∀ {inner : Node}, n ∈ inner.children → n ∈ inner.walk := fun hchild =>
    mem_walk_of_mem_children hchild (mem_walk_self n)
  have hsame : ∀ a ∈ root.children, ∀ b ∈ root.children, n ∈ a.walk → n ∈ b.walk → a = b := by
    intro a ha b hb hna hnb
    have hsymm : Std.Symm (Function.onFun List.Disjoint fun a : Node => a.walk.map id) :=
      ⟨fun _ _ hdisjoint _ hb ha => hdisjoint ha hb⟩
    by_contra hne
    exact hapart.forall ha hb hne (mem_map_of_mem hna) (mem_map_of_mem hnb)
  -- Below the root the node is not the child of a node in its own tree.
  have hdirect : ∀ {inner : Node}, n ∈ root.children → ∀ b ∈ root.children, inner ∈ b.walk →
      n ∉ inner.children := by
    intro inner hchild b hb hinner hnot
    obtain rfl := hsame n hchild b hb (mem_walk_self n) (mem_walk_trans (hown hnot) hinner)
    have hlt := height_lt_of_mem_children hnot
    have hle := height_le_of_mem_walk hinner
    omega
  rw [walk_eq_flatMap, mem_cons, mem_flatMap] at hm hm'
  rcases hm with rfl | ⟨a, ha, hma⟩ <;> rcases hm' with rfl | ⟨b, hb, hmb⟩
  · rfl
  · exact absurd hn' (hdirect hn b hb hmb)
  · exact absurd hn (hdirect hn' a ha hma)
  · obtain rfl := hsame a ha b hb (mem_walk_trans (hown hn) hma) (mem_walk_trans (hown hn') hmb)
    exact DistinctNumbers.parent_unique (hwithin a ha) hma hmb hn hn'
termination_by root.height
decreasing_by exact height_lt_of_mem_children ha

variable (source : List UInt8)

mutual
theorem map_id_walk_number : ∀ (o : Outline) (number₀ : Nat) (field : Option String),
    (number source number₀ field o).walk.map id = List.range' number₀ o.size
  | .mk kind named first last _ children, number₀, field => by
    have hbelow := map_id_walkAll_numberAll children (number₀ + 1)
    rw [number, walk, map_cons, hbelow, Outline.size, Nat.add_comm 1, range'_succ]
    rfl

theorem map_id_walkAll_numberAll : ∀ (os : List Outline) (number₀ : Nat),
    (walkAll (numberAll source number₀ os)).map id = List.range' number₀ (Outline.sizeAll os)
  | [], number₀ => by simp [numberAll, Outline.sizeAll]
  | .mk kind named first last field children :: os, number₀ => by
    have hfirst := map_id_walk_number (.mk kind named first last field children) number₀ field
    have hrest := map_id_walkAll_numberAll os
    rw [numberAll, walkAll, map_append, hfirst, hrest, Outline.sizeAll]
    exact range'_append_1
end

end JavaToGo.Tree.Node
