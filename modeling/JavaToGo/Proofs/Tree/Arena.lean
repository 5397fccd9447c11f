import JavaToGo.Proofs.Tree.Cursor

/-!
# The table of a tree

A node of a numbered tree and all that is below it have consecutive numbers, the
node the first of them.  So a number is the position of a row, and a parent stands
before its children.
-/

namespace JavaToGo.Tree

open List

def Row.links (row : Row) : List (Nat × Option String) :=
  row.children.zip row.fields

def childrenAt (rows : List Row) (id : Nat) : List Nat :=
  rows[id]?.elim [] Row.children

def parentAt (rows : List Row) (id : Nat) : Option Nat :=
  rows[id]?.bind Row.parent

/-- A number is reached from another one by going down. -/
def Below (rows : List Row) : Nat → Nat → Prop :=
  Relation.ReflTransGen fun parent child => child ∈ childrenAt rows parent

mutual
/-- The tree below a number, which fills a field, is the outline. -/
inductive Reads (rows : List Row) : Nat → Option String → Outline → Prop
  | node {id : Nat} {row : Row} {field : Option String} {children : List Outline}
      (hrow : rows[id]? = some row) (hchildren : ReadsAll rows row.links children) :
      Reads rows id field
        (.mk row.kind.name row.named row.firstByte row.lastByte field children)

/-- The trees below listed numbers are the outlines. -/
inductive ReadsAll (rows : List Row) : List (Nat × Option String) → List Outline → Prop
  | nil : ReadsAll rows [] []
  | cons {id : Nat} {field : Option String} {links : List (Nat × Option String)} {o : Outline}
      {os : List Outline} (hfirst : Reads rows id field o) (hrest : ReadsAll rows links os) :
      ReadsAll rows ((id, field) :: links) (o :: os)
end

/-- Takes a number from the stack and puts its children back on it. -/
def walkStep (rows : List Row) : List Nat × List Nat → (List Nat × List Nat) ⊕ List Nat
  | ([], seen) => .inr seen
  | (id :: stack, seen) => .inl (childrenAt rows id ++ stack, seen ++ [id])

/-- Follows the parent. -/
def ancestorStep (rows : List Row) : Option Nat × List Nat → (Option Nat × List Nat) ⊕ List Nat
  | (none, seen) => .inr seen
  | (some id, seen) => .inl (parentAt rows id, seen ++ [id])

def Outline.withField (field : Option String) : Outline → Outline
  | .mk kind named first last _ children => .mk kind named first last field children

/-- The table says the same as the tree: the tree can be read back from it. -/
structure Holds (rows : List Row) (o : Outline) : Prop where
  ids : rows.map Row.id = List.range o.size
  root : ∀ row ∈ rows, row.parent = none ↔ row.id = 0
  parent : ∀ row ∈ rows, ∀ p, row.parent = some p →
    p < row.id ∧ ∃ above, rows[p]? = some above ∧ above.children.count row.id = 1
  fields : ∀ row ∈ rows, row.fields.length = row.children.length
  increasing : ∀ row ∈ rows, row.children.Pairwise (· < ·)
  /-- The first number reads as the tree, and as nothing else; its root fills no field. -/
  readBack : ∀ read, Reads rows 0 none read ↔ read = o.withField none
  /-- The walk from a node ends with what is below it, which has consecutive numbers. -/
  walk : ∀ row ∈ rows, ∃ count,
    (∀ found, Ends (walkStep rows) ([row.id], []) found ↔ found = List.range' row.id count)
      ∧ ∀ id, id ∈ List.range' row.id count ↔ Below rows row.id id
  /-- Climbing from a node goes from parent to parent and ends behind the first node. -/
  ancestors : ∀ row ∈ rows, ∃ above,
    (∀ found, Ends (ancestorStep rows) (row.parent, []) found ↔ found = above)
      ∧ (row.id :: above).IsChain (fun child parent => parentAt rows child = some parent)
      ∧ (row.id :: above).getLast? = some 0

namespace Node

section

/-- The rows of the nodes of a tree. -/
def table (root : Node) : List Row :=
  root.walk.map fun n => .ofNode ((root.ancestors n.id).head?.map id) n

@[simp] lemma links_ofNode (parent : Option Nat) (n : Node) :
    (Row.ofNode parent n).links = n.children.map fun c => (c.id, c.field) := by
  rw [Row.links, Row.ofNode, zip_map']

lemma table_eq_rowsOf {root : Node} (hdistinct : root.DistinctNumbers) :
    root.table = rowsOf none root := by
  rw [table, ← map_snd_occurrences, map_map]
  refine map_congr_left fun o ho => ?_
  have habove := ancestors_of_mem_occurrences hdistinct ho
  simp [habove, Row.ofOccurrence]

mutual
def outline : Node → Outline
  | .mk head children =>
    .mk head.kind.name head.named head.firstByte head.lastByte head.field (outlineAll children)

def outlineAll : List Node → List Outline
  | [] => []
  | n :: ns => outline n :: outlineAll ns
end

variable (source : List UInt8)

mutual
theorem outline_number : ∀ (o : Outline) (id : Nat) (field : Option String),
    (number source id field o).outline = o.withField field
  | .mk kind named first last own children, id, field => by
    rw [number, outline, outlineAll_numberAll children, Kind.ofName_name, Outline.withField]

theorem outlineAll_numberAll : ∀ (os : List Outline) (id : Nat),
    outlineAll (numberAll source id os) = os
  | [], id => by rw [numberAll, outlineAll]
  | .mk kind named first last field children :: os, id => by
    rw [numberAll, outlineAll, outline_number _ id field, outlineAll_numberAll os,
      Outline.withField]
end

/-- The numbers below a node follow its own without a gap. -/
def Consecutive (n : Node) : Prop :=
  n.walk.map id = List.range' n.id n.walk.length

mutual
theorem consecutive_of_mem_walk_number : ∀ (o : Outline) {number₀ : Nat}
    {field : Option String}, n ∈ (number source number₀ field o).walk → n.Consecutive
  | .mk kind named first last own children, number₀, field, h => by
    have hids := map_id_walk_number source (.mk kind named first last own children) number₀ field
    have hlength := congrArg List.length hids
    rw [length_map, length_range'] at hlength
    rw [number, walk, mem_cons] at h
    rcases h with rfl | h
    · rw [← hlength] at hids
      exact hids
    · exact consecutive_of_mem_walkAll_numberAll children h

theorem consecutive_of_mem_walkAll_numberAll : ∀ (os : List Outline) {number₀ : Nat},
    n ∈ walkAll (numberAll source number₀ os) → n.Consecutive
  | [], number₀, h => by simp [numberAll] at h
  | .mk kind named first last field children :: os, number₀, h => by
    rw [numberAll, walkAll, mem_append] at h
    rcases h with h | h
    · exact consecutive_of_mem_walk_number _ h
    · exact consecutive_of_mem_walkAll_numberAll os h
end

end

section

lemma sublist_flatMap_walk (ns : List Node) : ns.Sublist (ns.flatMap walk) := by
  induction ns with
  | nil => exact List.Sublist.slnil
  | cons n ns ih =>
    rw [flatMap_cons, walk_eq_flatMap]
    exact (ih.trans (sublist_append_right ..)).cons_cons n

lemma Consecutive.below {n : Node} (h : n.Consecutive) :
    ∃ count, (n.children.flatMap walk).map id = List.range' (n.id + 1) count := by
  rw [Consecutive, walk_eq_flatMap] at h
  exact ⟨_, (List.cons.inj h).2⟩

lemma Consecutive.pairwise_children {n : Node} (h : n.Consecutive) :
    (n.children.map id).Pairwise (· < ·) := by
  obtain ⟨count, hbelow⟩ := h.below
  have hall : ((n.children.flatMap walk).map id).Pairwise (· < ·) := by
    rw [hbelow]
    exact pairwise_lt_range'
  exact hall.sublist ((sublist_flatMap_walk n.children).map id)

lemma Consecutive.lt_of_mem_children {n : Node} (h : n.Consecutive) (hc : c ∈ n.children) :
    n.id < c.id := by
  obtain ⟨count, hbelow⟩ := h.below
  have hmem : c.id ∈ (n.children.flatMap walk).map id :=
    mem_map_of_mem ((sublist_flatMap_walk n.children).subset hc)
  rw [hbelow, mem_range'_1] at hmem
  omega

lemma occurrences_above {root : Node} (h : (above, n) ∈ root.occurrences) :
    (above = [] ∧ n = root)
      ∨ ∃ p rest, above = p :: rest ∧ n ∈ p.children ∧ (rest, p) ∈ root.occurrences := by
  rw [occurrences_eq, mem_cons, mem_map] at h
  rcases h with h | ⟨⟨inner, m⟩, hinner, h⟩
  · obtain ⟨rfl, rfl⟩ := Prod.mk.inj h
    exact .inl ⟨rfl, rfl⟩
  · obtain ⟨rfl, rfl⟩ := Prod.mk.inj h
    obtain ⟨child, hchild, hinner⟩ := mem_flatMap.1 hinner
    refine .inr ?_
    -- the path ends either at the child itself or at a node below it
    rcases occurrences_above hinner with ⟨rfl, rfl⟩ | ⟨p, rest, rfl, hn, hp⟩
    · refine ⟨root, [], rfl, hchild, ?_⟩
      rw [occurrences_eq]
      exact mem_cons_self
    · refine ⟨p, rest ++ [root], rfl, hn, ?_⟩
      rw [occurrences_eq]
      exact mem_cons_of_mem _ (mem_map.2 ⟨(rest, p), mem_flatMap.2 ⟨child, hchild, hp⟩, rfl⟩)
termination_by root.height
decreasing_by exact height_lt_of_mem_children hchild

structure Positioned (root : Node) : Prop where
  first : root.id = 0
  consecutive : ∀ n ∈ root.walk, n.Consecutive

lemma positioned_ofOutline (source : List UInt8) (o : Outline) :
    (ofOutline source o).Positioned := by
  refine ⟨?_, fun n hn => consecutive_of_mem_walk_number source o hn⟩
  cases o
  rfl

variable {root : Node} (h : root.Positioned)
include h

lemma Positioned.ids : root.walk.map id = List.range root.walk.length := by
  rw [h.consecutive root root.mem_walk_self, h.first, range_eq_range']

lemma Positioned.distinct : root.DistinctNumbers := by
  rw [DistinctNumbers, h.ids]
  exact nodup_range

lemma Positioned.getElem?_walk (hn : n ∈ root.walk) : root.walk[n.id]? = some n := by
  obtain ⟨i, hi, rfl⟩ := getElem_of_mem hn
  have hid : (root.walk[i]).id = i := by
    have hget := congrArg (fun ids : List Nat => ids[i]?) h.ids
    simpa [hi] using hget
  rw [hid]
  exact getElem?_eq_getElem hi

lemma Positioned.getElem?_table (hn : n ∈ root.walk) :
    root.table[n.id]? = some (.ofNode ((root.ancestors n.id).head?.map id) n) := by
  rw [table, getElem?_map, h.getElem?_walk hn]
  rfl

lemma Positioned.childrenAt_table (hn : n ∈ root.walk) :
    childrenAt root.table n.id = n.children.map id := by
  rw [childrenAt, h.getElem?_table hn]
  rfl

lemma Positioned.parentAt_table (hn : (above, n) ∈ root.occurrences) :
    parentAt root.table n.id = above.head?.map id := by
  rw [parentAt, h.getElem?_table (mem_walk_of_occurrence hn mem_cons_self),
    ancestors_of_mem_occurrences h.distinct hn]
  rfl

end

section

variable {root : Node}

mutual
theorem Positioned.reads_iff (h : root.Positioned) :
    ∀ {n : Node} {field : Option String} {read : Outline}, n ∈ root.walk →
      (Reads root.table n.id field read ↔ read = n.outline.withField field)
  | .mk head children, field, read, hn => by
    have hbelow : ∀ c ∈ children, c ∈ root.walk := fun c hc =>
      mem_walk_trans (mem_walk_of_mem_children hc c.mem_walk_self) hn
    constructor
    · intro hread
      cases hread with
      | node hrow hchildren =>
        obtain rfl := Option.some.inj ((h.getElem?_table hn).symm.trans hrow)
        rw [links_ofNode] at hchildren
        obtain rfl := (Positioned.readsAll_iff h hbelow).1 hchildren
        rfl
    · rintro rfl
      refine .node (h.getElem?_table hn) ?_
      rw [links_ofNode]
      exact (Positioned.readsAll_iff h hbelow).2 rfl

theorem Positioned.readsAll_iff (h : root.Positioned) :
    ∀ {ns : List Node} {read : List Outline}, (∀ n ∈ ns, n ∈ root.walk) →
      (ReadsAll root.table (ns.map fun n => (n.id, n.field)) read ↔ read = outlineAll ns)
  | [], read, _ => by
    constructor
    · intro hread
      cases hread
      rfl
    · rintro rfl
      exact .nil
  | n :: ns, read, hns => by
    have hfirst : ∀ {o : Outline}, Reads root.table n.id n.field o ↔ o = n.outline := by
      intro o
      rw [Positioned.reads_iff h (hns n mem_cons_self)]
      cases n
      rfl
    have hrest : ∀ m ∈ ns, m ∈ root.walk := fun m hm => hns m (mem_cons_of_mem _ hm)
    constructor
    · intro hread
      cases hread with
      | cons ho hos =>
        obtain rfl := hfirst.1 ho
        obtain rfl := (Positioned.readsAll_iff h hrest).1 hos
        rfl
    · rintro rfl
      exact .cons (hfirst.2 rfl) ((Positioned.readsAll_iff h hrest).2 rfl)
end

end

section

variable {root : Node}

mutual
theorem Positioned.ends_of_walk (h : root.Positioned) :
    ∀ {n : Node} {stack seen found : List Nat}, n ∈ root.walk →
      Ends (walkStep root.table) (stack, seen ++ n.walk.map id) found →
      Ends (walkStep root.table) (n.id :: stack, seen) found
  | .mk head children, stack, seen, found, hn, hends => by
    have hbelow : ∀ c ∈ children, c ∈ root.walk := fun c hc =>
      mem_walk_trans (mem_walk_of_mem_children hc c.mem_walk_self) hn
    refine .next rfl ?_
    rw [h.childrenAt_table hn]
    refine Positioned.ends_of_walkAll h hbelow ?_
    rw [walk, map_cons, append_cons] at hends
    exact hends

theorem Positioned.ends_of_walkAll (h : root.Positioned) :
    ∀ {ns : List Node} {stack seen found : List Nat}, (∀ n ∈ ns, n ∈ root.walk) →
      Ends (walkStep root.table) (stack, seen ++ (walkAll ns).map id) found →
      Ends (walkStep root.table) (ns.map id ++ stack, seen) found
  | [], stack, seen, found, _, hends => by
    rw [walkAll, map_nil, append_nil] at hends
    exact hends
  | n :: ns, stack, seen, found, hns, hends => by
    rw [walkAll, map_append, ← append_assoc] at hends
    exact Positioned.ends_of_walk h (hns n mem_cons_self)
      (Positioned.ends_of_walkAll h (fun m hm => hns m (mem_cons_of_mem _ hm)) hends)
end

lemma Positioned.ends_walk (h : root.Positioned) (hn : n ∈ root.walk) :
    Ends (walkStep root.table) ([n.id], []) (n.walk.map id) :=
  h.ends_of_walk hn (.stop rfl)

lemma Positioned.below_of_mem_walk (h : root.Positioned) (hn : n ∈ root.walk) (hm : m ∈ n.walk) :
    Below root.table n.id m.id := by
  rw [walk_eq_flatMap, mem_cons, mem_flatMap] at hm
  rcases hm with rfl | ⟨child, hchild, hm⟩
  · exact .refl
  · have hfirst : child.id ∈ childrenAt root.table n.id := by
      rw [h.childrenAt_table hn]
      exact mem_map_of_mem hchild
    have hwalk : child ∈ root.walk :=
      mem_walk_trans (mem_walk_of_mem_children hchild child.mem_walk_self) hn
    exact .head hfirst (h.below_of_mem_walk hwalk hm)
termination_by n.height
decreasing_by exact height_lt_of_mem_children hchild

lemma Positioned.mem_walk_iff_below (h : root.Positioned) {n : Node} (hn : n ∈ root.walk)
    {number : Nat} : number ∈ n.walk.map id ↔ Below root.table n.id number := by
  constructor
  · intro hmem
    obtain ⟨m, hm, rfl⟩ := mem_map.1 hmem
    exact h.below_of_mem_walk hn hm
  · intro hbelow
    induction hbelow with
    | refl => exact mem_map_of_mem n.mem_walk_self
    | tail _ hlast ih =>
      obtain ⟨m, hm, rfl⟩ := mem_map.1 ih
      rw [h.childrenAt_table (mem_walk_trans hm hn)] at hlast
      obtain ⟨child, hchild, rfl⟩ := mem_map.1 hlast
      exact mem_map_of_mem (mem_walk_trans (mem_walk_of_mem_children hchild child.mem_walk_self) hm)

lemma Positioned.ends_of_ancestors (h : root.Positioned) (hn : (above, n) ∈ root.occurrences)
    (seen : List Nat) :
    Ends (ancestorStep root.table) (parentAt root.table n.id, seen) (seen ++ above.map id) := by
  induction above generalizing n seen with
  | nil =>
    rw [h.parentAt_table hn]
    exact .stop (by simp [ancestorStep])
  | cons p rest ih =>
    obtain ⟨hnil, -⟩ | ⟨_, _, heq, -, hp⟩ := occurrences_above hn
    · cases hnil
    · obtain ⟨rfl, rfl⟩ := List.cons.inj heq
      rw [h.parentAt_table hn]
      refine .next rfl ?_
      have hrest := ih hp (seen ++ [p.id])
      rwa [append_assoc] at hrest

lemma Positioned.chain_above (h : root.Positioned) (hn : (above, n) ∈ root.occurrences) :
    (n.id :: above.map id).IsChain (fun child parent => parentAt root.table child = some parent)
      ∧ (n.id :: above.map id).getLast? = some 0 := by
  induction above generalizing n with
  | nil =>
    obtain ⟨-, rfl⟩ | ⟨_, _, heq, -, -⟩ := occurrences_above hn
    · exact ⟨.singleton _, congrArg some h.first⟩
    · cases heq
  | cons p rest ih =>
    obtain ⟨hnil, -⟩ | ⟨_, _, heq, -, hp⟩ := occurrences_above hn
    · cases hnil
    · obtain ⟨rfl, rfl⟩ := List.cons.inj heq
      obtain ⟨hchain, hlast⟩ := ih hp
      exact ⟨.cons_cons (h.parentAt_table hn) hchain, hlast⟩

end

variable {root : Node}

lemma exists_of_mem_table (hrow : row ∈ root.table) :
    ∃ n ∈ root.walk, row = .ofNode ((root.ancestors n.id).head?.map id) n := by
  obtain ⟨n, hn, rfl⟩ := mem_map.1 hrow
  exact ⟨n, hn, rfl⟩

lemma Positioned.occurs (h : root.Positioned) (hn : n ∈ root.walk) :
    (root.ancestors n.id, n) ∈ root.occurrences := by
  rw [← map_snd_occurrences] at hn
  obtain ⟨⟨above, m⟩, hm, rfl⟩ := mem_map.1 hn
  rwa [ancestors_of_mem_occurrences h.distinct hm]

lemma Positioned.listed_of_parent (h : root.Positioned) (hn : n ∈ root.walk)
    (hparent : (root.ancestors n.id).head?.map id = some parent) :
    parent < n.id ∧ ∃ above, root.table[parent]? = some above ∧ above.children.count n.id = 1 := by
  obtain ⟨hnil, -⟩ | ⟨p, rest, heq, hchild, hp⟩ := occurrences_above (h.occurs hn)
  · rw [hnil] at hparent
    cases hparent
  · rw [heq] at hparent
    obtain rfl := Option.some.inj hparent
    have hwalk : p ∈ root.walk := mem_walk_of_occurrence hp mem_cons_self
    have hconsecutive := h.consecutive p hwalk
    have honce : (p.children.map id).count n.id = 1 :=
      count_eq_one_of_mem hconsecutive.pairwise_children.nodup (mem_map_of_mem hchild)
    exact ⟨hconsecutive.lt_of_mem_children hchild, _, h.getElem?_table hwalk, honce⟩

lemma Positioned.head?_ancestors_iff (h : root.Positioned) (hn : n ∈ root.walk) :
    (root.ancestors n.id).head?.map id = none ↔ n.id = 0 := by
  obtain ⟨hnil, rfl⟩ | ⟨p, rest, heq, hchild, hp⟩ := occurrences_above (h.occurs hn)
  · rw [hnil]
    exact ⟨fun _ => h.first, fun _ => rfl⟩
  · have hparent : (root.ancestors n.id).head?.map id = some p.id := by rw [heq]; rfl
    have hlt := (h.listed_of_parent hn hparent).1
    rw [hparent]
    constructor
    · intro hnone
      cases hnone
    · omega

variable (source : List UInt8) (o : Outline)

lemma holds_table_ofOutline : Holds (ofOutline source o).table o := by
  have h := positioned_ofOutline source o
  refine ⟨?_, ?_, ?_, ?_, ?_, ?_, ?_, ?_⟩
  · rw [table_eq_rowsOf h.distinct, map_id_rowsOf, ofOutline, map_id_walk_number, range_eq_range']
  · intro row hrow
    obtain ⟨n, hn, rfl⟩ := exists_of_mem_table hrow
    exact h.head?_ancestors_iff hn
  · intro row hrow parent hparent
    obtain ⟨n, hn, rfl⟩ := exists_of_mem_table hrow
    exact h.listed_of_parent hn hparent
  · intro row hrow
    obtain ⟨n, hn, rfl⟩ := exists_of_mem_table hrow
    simp [Row.ofNode]
  · intro row hrow
    obtain ⟨n, hn, rfl⟩ := exists_of_mem_table hrow
    exact (h.consecutive n hn).pairwise_children
  · intro read
    have hread : Reads (ofOutline source o).table (ofOutline source o).id none read
        ↔ read = (ofOutline source o).outline.withField none :=
      h.reads_iff (mem_walk_self _)
    rw [ofOutline, outline_number] at hread
    cases o
    exact hread
  · intro row hrow
    obtain ⟨n, hn, rfl⟩ := exists_of_mem_table hrow
    have hfound : ∀ found, Ends (walkStep (ofOutline source o).table) ([n.id], []) found
        ↔ found = n.walk.map id := fun _ => (h.ends_walk hn).iff_eq
    have hbelow : ∀ number, number ∈ n.walk.map id ↔ Below (ofOutline source o).table n.id number :=
      fun _ => h.mem_walk_iff_below hn
    rw [h.consecutive n hn] at hfound hbelow
    exact ⟨n.walk.length, hfound, hbelow⟩
  · intro row hrow
    obtain ⟨n, hn, rfl⟩ := exists_of_mem_table hrow
    refine ⟨(ancestors (ofOutline source o) n.id).map id, fun found => ?_,
      h.chain_above (h.occurs hn)⟩
    have hends := h.ends_of_ancestors (h.occurs hn) []
    rw [h.parentAt_table (h.occurs hn)] at hends
    exact hends.iff_eq

/-- Copying a tree with a cursor ends with the table of the numbered tree.  The table holds the
tree, and the loops over its rows find what the walk and the ancestors of the numbered tree name. -/
theorem copy_faithful :
    (∀ rows, Ends (copyStep source) (.start o) rows ↔ rows = (ofOutline source o).table)
      ∧ Holds (ofOutline source o).table o
      ∧ ∀ n ∈ (ofOutline source o).walk,
        Ends (walkStep (ofOutline source o).table) ([n.id], []) (n.walk.map id)
          ∧ Ends (ancestorStep (ofOutline source o).table)
              (parentAt (ofOutline source o).table n.id, [])
              (((ofOutline source o).ancestors n.id).map id) := by
  have h := positioned_ofOutline source o
  refine ⟨fun rows => ?_, holds_table_ofOutline source o, fun n hn => ?_⟩
  · rw [table_eq_rowsOf h.distinct]
    exact (ends_copy source o).iff_eq
  · exact ⟨h.ends_walk hn, h.ends_of_ancestors (h.occurs hn) []⟩

end Node

end JavaToGo.Tree
