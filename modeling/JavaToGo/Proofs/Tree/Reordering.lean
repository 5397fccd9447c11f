import JavaToGo.Proofs.Tree.Likeness

/-!
# Declarations in another order

A tree is reordered when the same declarations stand below its root in another
order, with other numbers and positions.
-/

namespace JavaToGo.Tree.Node

open List

section

variable (root n : Node)

/-- The declarations of types around a node. -/
def enclosingTypes : List Node :=
  (root.ancestors n.id).filter fun a => a.kind.isTypeDeclaration

/-- A node and the declarations of types around it, without numbers and positions. -/
def situation : List Node × Node :=
  ((root.enclosingTypes n).map bare, n.bare)

/-- Whether the analysis records such nodes. -/
def isRecorded : Bool :=
  n.kind.isTypeDeclaration || n.kind == .methodDeclaration || n.kind == .constructorDeclaration

variable {root n} {root' : Node}

section

variable (h : root.situation n = root'.situation n')
include h

lemma bare_of_situation : n.bare = n'.bare :=
  (Prod.mk.inj h).2

lemma enclosingType?_of_situation :
    (root.enclosingType? n).map bare = (root'.enclosingType? n').map bare := by
  have haround := congrArg List.head? (Prod.mk.inj h).1
  rw [head?_map, head?_map] at haround
  unfold enclosingTypes at haround
  rwa [head?_filter, head?_filter] at haround

lemma enclosingTypeParameters_of_situation :
    root.enclosingTypeParameters n = root'.enclosingTypeParameters n' := by
  have hbare : ∀ ns : List Node, (ns.map bare).flatMap ownTypeParameters
      = ns.flatMap ownTypeParameters := by
    simp [flatMap_map]
  have haround := congrArg (List.flatMap ownTypeParameters) (Prod.mk.inj h).1
  rwa [hbare, hbare] at haround

end

end

/-- A tree with the same declarations in another order. -/
structure Reordered (root root' : Node) : Prop where
  kind : root'.kind = root.kind
  numbers : root'.DistinctNumbers
  order : ∃ order : List Node, order.Perm root.children ∧ order.map bare = root'.children.map bare

lemma Reordered.isRecorded_eq (h : Reordered root root') : root'.isRecorded = root.isRecorded := by
  unfold isRecorded
  rw [h.kind]

/-- An occurrence without numbers and positions, and with declarations of types only around it. -/
def bareOccurrence (o : List Node × Node) : List Node × Node :=
  ((o.1.filter fun a => a.kind.isTypeDeclaration).map bare, o.2.bare)

variable {root : Node} {ks : List Node}

lemma map_situation_walk (hdistinct : root.DistinctNumbers)
    (hroot : root.kind.isTypeDeclaration = false) (hks : ∀ k ∈ ks, k ∈ root.children) :
    (ks.flatMap walk).map root.situation = (ks.flatMap occurrences).map bareOccurrence := by
  have hwalk : ks.flatMap walk = (ks.flatMap occurrences).map Prod.snd := by
    rw [map_flatMap]
    congr 1
    funext k
    exact k.map_snd_occurrences.symm
  rw [hwalk, map_map]
  refine map_congr_left fun o ho => ?_
  obtain ⟨k, hk, ho⟩ := mem_flatMap.1 ho
  have hoccurs : (o.1 ++ [root], o.2) ∈ root.occurrences := by
    rw [occurrences_eq]
    refine mem_cons_of_mem _ (mem_map.2 ⟨o, ?_, rfl⟩)
    exact mem_flatMap.2 ⟨k, hks k hk, ho⟩
  have habove := ancestors_of_mem_occurrences hdistinct hoccurs
  simp [situation, enclosingTypes, bareOccurrence, habove, hroot]

lemma map_bareOccurrence_congr {ks ks' : List Node} (h : ks.map bare = ks'.map bare) :
    (ks.flatMap occurrences).map bareOccurrence = (ks'.flatMap occurrences).map bareOccurrence := by
  have hbare : ∀ ks : List Node, (ks.flatMap occurrences).map bareOccurrence
      = ((ks.map bare).flatMap occurrences).map
          fun o => (o.1.filter fun a => a.kind.isTypeDeclaration, o.2) := by
    intro ks
    rw [flatMap_map, map_flatMap, map_flatMap]
    congr 1
    funext k
    rw [occurrences_bare]
    have hkind : (fun a : Node => a.kind.isTypeDeclaration) ∘ bare
        = fun a : Node => a.kind.isTypeDeclaration := by
      funext a
      simp
    simp [bareOccurrence, filter_map, hkind]
  rw [hbare ks, hbare ks', h]

variable (hdistinct : root.DistinctNumbers) (hroot : root.isRecorded = false)
include hroot

lemma filter_walk_of_not_recorded {p : Kind → Bool}
    (hp : ∀ n : Node, p n.kind = true → n.isRecorded = true) :
    (root.walk.filter fun n => p n.kind)
      = (root.children.flatMap walk).filter fun n => p n.kind := by
  have hown : p root.kind = false := by
    cases hkind : p root.kind with
    | false => rfl
    | true =>
      rw [hp root hkind] at hroot
      cases hroot
  rw [walk_eq_flatMap, filter_cons, hown]
  rfl

include hdistinct

lemma map_situation_of_reordered (h : Reordered root root') {order : List Node}
    (hperm : order.Perm root.children) (hbare : order.map bare = root'.children.map bare)
    (p : Kind → Bool) :
    ((order.flatMap walk).filter fun n => p n.kind).map root.situation
      = ((root'.children.flatMap walk).filter fun n => p n.kind).map root'.situation := by
  have htype : root.kind.isTypeDeclaration = false := by
    simp only [isRecorded, Bool.or_eq_false_iff] at hroot
    exact hroot.1.1
  have hall : (order.flatMap walk).map root.situation
      = (root'.children.flatMap walk).map root'.situation := by
    rw [map_situation_walk hdistinct htype fun k hk => hperm.mem_iff.1 hk,
      map_situation_walk h.numbers (h.kind ▸ htype) fun _ hk => hk, map_bareOccurrence_congr hbare]
  -- Which kind a node is of can be seen from its situation.
  have hfilter : ∀ (r : Node) (ns : List Node),
      (ns.filter fun n => p n.kind).map r.situation
        = (ns.map r.situation).filter fun v => p v.2.kind := by
    intro r ns
    rw [filter_map]
    congr 2
    funext n
    simp [situation]
  rw [hfilter, hfilter, hall]

lemma perm_situations_of_reordered (h : Reordered root root') {p : Kind → Bool}
    (hp : ∀ n : Node, p n.kind = true → n.isRecorded = true) :
    ((root'.walk.filter fun n => p n.kind).map root'.situation).Perm
      ((root.walk.filter fun n => p n.kind).map root.situation) := by
  obtain ⟨order, hperm, hbare⟩ := h.order
  have hroot' := h.isRecorded_eq.trans hroot
  rw [filter_walk_of_not_recorded hroot' hp, filter_walk_of_not_recorded hroot hp,
    ← map_situation_of_reordered hdistinct hroot h hperm hbare]
  exact ((hperm.flatMap_right walk).filter _).map _

end JavaToGo.Tree.Node
