import JavaToGo.Proofs.Tree.Numbers

/-!
# Trees without numbers and positions

What a declaration means depends on the kinds, fields and texts of its nodes.
-/

namespace JavaToGo.Tree.Node

open List

section

mutual
/-- The subtree without numbers and positions. -/
def bare : Node → Node
  | .mk head children =>
    .mk { id := 0, kind := head.kind, named := head.named, field := head.field, firstByte := 0,
          lastByte := 0, start := ⟨0, 0⟩, stop := ⟨0, 0⟩, text := head.text }
      (bareAll children)

def bareAll : List Node → List Node
  | [] => []
  | n :: ns => bare n :: bareAll ns
end

lemma bareAll_eq_map (ns : List Node) : bareAll ns = ns.map bare := by
  induction ns with
  | nil => rfl
  | cons n ns ih => rw [bareAll, ih, map_cons]

variable (n : Node)

@[simp] lemma kind_bare : n.bare.kind = n.kind := by
  cases n
  rfl

@[simp] lemma named_bare : n.bare.named = n.named := by
  cases n
  rfl

@[simp] lemma field_bare : n.bare.field = n.field := by
  cases n
  rfl

@[simp] lemma text_bare : n.bare.text = n.text := by
  cases n
  rfl

@[simp] lemma children_bare : n.bare.children = n.children.map bare := by
  cases n
  rw [bare, bareAll_eq_map]
  rfl

lemma find?_children_bare {p : Node → Bool} (hp : ∀ m, p m.bare = p m) :
    n.bare.children.find? p = (n.children.find? p).map bare := by
  rw [children_bare, find?_map]
  congr 2
  funext m
  exact hp m

lemma filter_children_bare {p : Node → Bool} (hp : ∀ m, p m.bare = p m) :
    n.bare.children.filter p = (n.children.filter p).map bare := by
  rw [children_bare, filter_map]
  congr 2
  funext m
  exact hp m

@[simp] lemma fieldChild?_bare (field : String) :
    n.bare.fieldChild? field = (n.fieldChild? field).map bare :=
  n.find?_children_bare fun m => by rw [field_bare]

@[simp] lemma childOfKind?_bare (kind : Kind) :
    n.bare.childOfKind? kind = (n.childOfKind? kind).map bare :=
  n.find?_children_bare fun m => by rw [kind_bare]

@[simp] lemma childrenOfKind_bare (kind : Kind) :
    n.bare.childrenOfKind kind = (n.childrenOfKind kind).map bare :=
  n.filter_children_bare fun m => by rw [kind_bare]

@[simp] lemma fieldChildren_bare (field : String) :
    n.bare.fieldChildren field = (n.fieldChildren field).map bare :=
  n.filter_children_bare fun m => by rw [field_bare]

@[simp] lemma namedChildren_bare : n.bare.namedChildren = n.namedChildren.map bare :=
  n.filter_children_bare named_bare

@[simp] lemma dimensionDepth_bare : n.bare.dimensionDepth = n.dimensionDepth := by
  rw [dimensionDepth, text_bare, dimensionDepth]

@[simp] lemma modifiers_bare : n.bare.modifiers = n.modifiers := by
  unfold modifiers
  rw [childOfKind?_bare]
  cases n.childOfKind? .modifiers with
  | none => rfl
  | some =>
    simp only [Option.map_some, children_bare, foldl_map, kind_bare]

lemma parameterName?_bare : n.bare.parameterName? = n.parameterName? := by
  unfold parameterName?
  rw [n.find?_children_bare fun m => by rw [kind_bare], Option.map_map]
  congr 1
  funext m
  exact m.text_bare

@[simp] lemma ownTypeParameters_bare : n.bare.ownTypeParameters = n.ownTypeParameters := by
  unfold ownTypeParameters
  rw [fieldChild?_bare]
  cases n.fieldChild? "type_parameters" with
  | none => rfl
  | some =>
    rw [Option.map_some, typeParameterNames, childrenOfKind_bare, filterMap_map]
    congr 1
    funext m
    exact m.parameterName?_bare

end

mutual
theorem occurrences_bare : ∀ n : Node,
    n.bare.occurrences = n.occurrences.map fun o => (o.1.map bare, o.2.bare)
  | .mk head children => by
    have hbelow := occurrencesAll_bare children
    simp only [bare, occurrences, hbelow, map_cons, map_map, map_nil]
    congr 2
    funext o
    simp [bare]

theorem occurrencesAll_bare : ∀ ns : List Node,
    occurrencesAll (bareAll ns) = (occurrencesAll ns).map fun o => (o.1.map bare, o.2.bare)
  | [] => rfl
  | n :: ns => by
    rw [bareAll, occurrencesAll, occurrences_bare n, occurrencesAll_bare ns, occurrencesAll,
      map_append]
end

end JavaToGo.Tree.Node
