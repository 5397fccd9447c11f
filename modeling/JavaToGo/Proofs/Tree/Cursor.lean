import JavaToGo.Proofs.Draft.Stack
import JavaToGo.Proofs.Tree.Likeness

/-!
# Copying a tree with a cursor

A node is entered when the cursor comes to it from above or from the left; without
a child the cursor climbs until there is a sibling, and the loop ends where there
is nothing left to climb.
-/

namespace JavaToGo.Tree

open List

variable (rows : List Row) (parent : Option Nat)

section

variable {σ ρ : Type}

/-- A loop that is in a state ends with a result. -/
inductive Ends (step : σ → σ ⊕ ρ) : σ → ρ → Prop
  | stop {s : σ} {r : ρ} (hstep : step s = .inr r) : Ends step s r
  | next {s s' : σ} {r : ρ} (hstep : step s = .inl s') (hrest : Ends step s' r) : Ends step s r

variable {step : σ → σ ⊕ ρ}

lemma Ends.unique (h : Ends step s r) (h' : Ends step s r') : r' = r := by
  induction h with
  | stop hstep =>
    cases h' with
    | stop hstep' => exact Sum.inr.inj (hstep'.symm.trans hstep)
    | next hstep' _ => exact absurd (hstep'.symm.trans hstep) Sum.inl_ne_inr
  | next hstep _ ih =>
    cases h' with
    | stop hstep' => exact absurd (hstep'.symm.trans hstep) Sum.inr_ne_inl
    | next hstep' hrest' =>
      cases Sum.inl.inj (hstep'.symm.trans hstep)
      exact ih hrest'

lemma Ends.iff_eq (h : Ends step s r) : Ends step s r' ↔ r' = r :=
  ⟨h.unique, fun heq => heq ▸ h⟩

end

/-- What a table says about a node. -/
structure Row where
  id : Nat
  kind : Kind
  named : Bool
  firstByte : Nat
  lastByte : Nat
  start : Point
  stop : Point
  parent : Option Nat
  children : List Nat := []
  fields : List (Option String) := []
deriving DecidableEq, Repr

def Row.linked (row : Row) (children : List Nat) (fields : List (Option String)) : Row :=
  { row with children := row.children ++ children, fields := row.fields ++ fields }

def Row.ofNode (parent : Option Nat) (n : Node) : Row where
  id := n.id
  kind := n.kind
  named := n.named
  firstByte := n.head.firstByte
  lastByte := n.head.lastByte
  start := n.head.start
  stop := n.head.stop
  parent := parent
  children := n.children.map Node.id
  fields := n.children.map Node.field

def Row.ofOutline (source : List UInt8) (id : Nat) (parent : Option Nat) : Outline → Row
  | .mk kind named first last _ _ =>
    { id := id, kind := Kind.ofName kind, named := named, firstByte := first, lastByte := last,
      start := pointAt source first, stop := pointAt source last, parent := parent }

/-- Adds children to the row of the parent. -/
def link (rows : List Row) (parent : Option Nat) (children : List Nat)
    (fields : List (Option String)) : List Row :=
  parent.elim rows fun p => rows.modify p (·.linked children fields)

/-- Appends the row of a node, and its number to the row of its parent. -/
def enter (source : List UInt8) (rows : List Row) (parent : Option Nat) (field : Option String)
    (o : Outline) : List Row :=
  link (rows ++ [Row.ofOutline source rows.length parent o]) parent [rows.length] [field]

@[simp] lemma Row.linked_linked (row : Row) (children children' : List Nat)
    (fields fields' : List (Option String)) :
    (row.linked children fields).linked children' fields'
      = row.linked (children ++ children') (fields ++ fields') := by
  simp [linked]

@[simp] lemma length_link (children : List Nat) (fields : List (Option String)) :
    (link rows parent children fields).length = rows.length := by
  cases parent with
  | none => rfl
  | some => exact length_modify ..

lemma link_append {rows : List Row} {parent : Option Nat}
    (hparent : ∀ p ∈ parent, p < rows.length) (more : List Row) (children : List Nat)
    (fields : List (Option String)) :
    link (rows ++ more) parent children fields = link rows parent children fields ++ more := by
  cases parent with
  | none => rfl
  | some p => exact modify_append_left _ more (hparent p rfl)

lemma link_last {rows : List Row} {parent : Nat} (hparent : parent = rows.length) (row : Row)
    (children : List Nat) (fields : List (Option String)) :
    link (rows ++ [row]) (some parent) children fields = rows ++ [row.linked children fields] := by
  subst hparent
  exact modify_append_right _ [row] rows 0

lemma link_link (children children' : List Nat) (fields fields' : List (Option String)) :
    link (link rows parent children fields) parent children' fields'
      = link rows parent (children ++ children') (fields ++ fields') := by
  cases parent with
  | none => rfl
  | some p =>
    have hrow : (fun row : Row => row.linked children' fields')
        ∘ (fun row : Row => row.linked children fields)
        = fun row => row.linked (children ++ children') (fields ++ fields') :=
      funext fun row => row.linked_linked ..
    exact (modify_modify_eq ..).trans (congrArg (rows.modify p) hrow)

lemma link_nil : link rows parent [] [] = rows := by
  cases parent with
  | none => rfl
  | some p =>
    have hrow : (fun row : Row => row.linked [] []) = fun row => row :=
      funext fun row => by simp [Row.linked]
    exact (congrArg (rows.modify p) hrow).trans (modify_id ..)

def Outline.field : Outline → Option String
  | .mk _ _ _ _ field _ => field

def Outline.children : Outline → List Outline
  | .mk _ _ _ _ _ children => children

/-- A place in a tree: a node, its siblings to the right, and the nodes above it, each with its
siblings to the right, nearest first. -/
structure Cursor where
  node : Outline
  following : List Outline
  above : List (Outline × List Outline)

namespace Cursor

def atRoot (o : Outline) : Cursor :=
  ⟨o, [], []⟩

def firstChild? (c : Cursor) : Option Cursor :=
  c.node.children.head?.map fun o =>
    ⟨o, c.node.children.tail, (c.node, c.following) :: c.above⟩

def nextSibling? (c : Cursor) : Option Cursor :=
  c.following.head?.map fun o => ⟨o, c.following.tail, c.above⟩

def parent? (c : Cursor) : Option Cursor :=
  c.above.head?.map fun up => ⟨up.1, up.2, c.above.tail⟩

end Cursor

/-- What the copying loop does next. -/
inductive Phase where
  /-- It enters the node under the cursor. -/
  | visit
  /-- It looks for the next node to the right or further up. -/
  | climb
deriving DecidableEq, Repr

/-- The copying loop between two moves. -/
structure Copying where
  phase : Phase
  cursor : Cursor
  /-- The numbers of the nodes above the cursor, nearest first. -/
  ancestors : List Nat
  rows : List Row

/-- Enters the node under the cursor and moves to its first child, if there is one. -/
def visitStep (source : List UInt8) (s : Copying) : Copying :=
  let field := s.ancestors.head?.bind fun _ => s.cursor.node.field
  let rows := enter source s.rows s.ancestors.head? field s.cursor.node
  s.cursor.firstChild?.elim ⟨.climb, s.cursor, s.ancestors, rows⟩
    fun child => ⟨.visit, child, s.rows.length :: s.ancestors, rows⟩

/-- Moves to the next sibling, else to the parent; at the root there is nothing left to copy. -/
def climbStep (s : Copying) : Copying ⊕ List Row :=
  s.cursor.nextSibling?.elim
    (if s.ancestors.isEmpty then .inr s.rows
      else .inl { s with cursor := s.cursor.parent?.getD s.cursor, ancestors := s.ancestors.tail })
    fun sibling => .inl { s with phase := .visit, cursor := sibling }

/-- One round of the loop. -/
def copyStep (source : List UInt8) (s : Copying) : Copying ⊕ List Row :=
  if s.phase = .visit then .inl (visitStep source s) else climbStep s

def Copying.start (o : Outline) : Copying :=
  ⟨.visit, .atRoot o, [], []⟩

section

variable (source : List UInt8)

mutual
/-- Enters a node and all below it. -/
def enterTree (rows : List Row) (parent : Option Nat) (field : Option String) :
    Outline → List Row
  | .mk kind named first last own children =>
    enterAll (enter source rows parent field (.mk kind named first last own children)) rows.length
      children

def enterAll (rows : List Row) (parent : Nat) : List Outline → List Row
  | [] => rows
  | o :: os => enterAll (enterTree rows (some parent) o.field o) parent os
end

variable {source}

mutual
theorem ends_of_enterTree :
    ∀ (o : Outline) {following : List Outline} {above : List (Outline × List Outline)}
      {ancestors : List Nat} {rows : List Row},
      Ends (copyStep source)
          ⟨.climb, ⟨o, following, above⟩, ancestors,
            enterTree source rows ancestors.head? (ancestors.head?.bind fun _ => o.field) o⟩
          result →
        Ends (copyStep source) ⟨.visit, ⟨o, following, above⟩, ancestors, rows⟩ result
  | .mk _ _ _ _ _ [], _, _, _, _, h => .next rfl h
  | .mk _ _ _ _ _ (child :: rest), _, _, _, _, h =>
    .next rfl (ends_of_enterTree child (ends_of_enterAll child rest h))

theorem ends_of_enterAll {result : List Row} {parent : Outline} :
    ∀ (o : Outline) (os : List Outline) {following : List Outline}
      {above : List (Outline × List Outline)} {number : Nat} {ancestors : List Nat}
      {rows : List Row},
      Ends (copyStep source)
          ⟨.climb, ⟨parent, following, above⟩, ancestors, enterAll source rows number os⟩
          result →
        Ends (copyStep source)
          ⟨.climb, ⟨o, os, (parent, following) :: above⟩, number :: ancestors, rows⟩ result
  | _, [], _, _, _, _, _, h => .next rfl h
  | _, next :: rest, _, _, _, _, _, h =>
    .next rfl (ends_of_enterTree next (ends_of_enterAll next rest h))
end

lemma ends_enterTree (o : Outline) :
    Ends (copyStep source) (.start o) (enterTree source [] none none o) :=
  ends_of_enterTree o (.stop rfl)

end

def Row.ofOccurrence (parent : Option Nat) (o : List Node × Node) : Row :=
  .ofNode ((o.1.head?.map Node.id).or parent) o.2

def rowsOf (parent : Option Nat) (n : Node) : List Row :=
  n.occurrences.map (.ofOccurrence parent)

lemma rowsOf_eq (n : Node) :
    rowsOf parent n = .ofNode parent n :: n.children.flatMap (rowsOf (some n.id)) := by
  have hbelow (o : List Node × Node) :
      Row.ofOccurrence parent (o.1 ++ [n], o.2) = .ofOccurrence (some n.id) o := by
    obtain ⟨above, m⟩ := o
    cases above <;> rfl
  unfold rowsOf
  rw [Node.occurrences_eq, map_cons, map_map, map_flatMap]
  congr 2
  funext child
  exact map_congr_left fun o _ => hbelow o

lemma map_id_rowsOf (n : Node) : (rowsOf parent n).map Row.id = n.walk.map Node.id := by
  rw [rowsOf, map_map, ← Node.map_snd_occurrences, map_map]
  rfl

variable (source : List UInt8)

@[simp] lemma length_rowsOf_number (id : Nat) (field : Option String) (o : Outline) :
    (rowsOf parent (.number source id field o)).length = o.size := by
  have hids := map_id_rowsOf parent (.number source id field o)
  rw [Node.map_id_walk_number] at hids
  simpa using congrArg List.length hids

mutual
theorem enterTree_eq : ∀ (o : Outline) {rows : List Row} {parent : Option Nat}
    (field : Option String), (∀ p ∈ parent, p < rows.length) →
      enterTree source rows parent field o
        = link rows parent [rows.length] [field]
          ++ rowsOf parent (.number source rows.length field o)
  | .mk kind named first last own children, rows, parent, field, hparent => by
    have hentered : enter source rows parent field (.mk kind named first last own children)
        = link rows parent [rows.length] [field]
          ++ [Row.ofOutline source rows.length parent (.mk kind named first last own children)] :=
      link_append hparent _ _ _
    rw [enterTree, hentered, enterAll_eq children (by simp), link_last (by simp), rowsOf_eq]
    simp only [length_append, length_link, length_singleton, append_assoc, singleton_append]
    rfl

theorem enterAll_eq : ∀ (os : List Outline) {rows : List Row} {parent : Nat},
    parent < rows.length →
      enterAll source rows parent os
        = link rows (some parent) ((Node.numberAll source rows.length os).map Node.id)
            ((Node.numberAll source rows.length os).map Node.field)
          ++ (Node.numberAll source rows.length os).flatMap (rowsOf (some parent))
  | [], rows, parent, _ => by
    rw [enterAll, Node.numberAll, map_nil, map_nil, link_nil, flatMap_nil, append_nil]
  | .mk kind named first last field children :: os, rows, parent, hparent => by
    have hamong : ∀ p ∈ some parent, p < rows.length := fun p hp => Option.some.inj hp ▸ hparent
    have hlinked : parent < (link rows (some parent) [rows.length] [field]).length := by
      rw [length_link]
      exact hparent
    rw [enterAll, Outline.field, enterTree_eq _ field hamong, enterAll_eq os (by simp; omega),
      link_append (fun p hp => Option.some.inj hp ▸ hlinked), link_link]
    simp only [length_append, length_link, length_rowsOf_number, append_assoc]
    rfl
end

lemma ends_copy (o : Outline) :
    Ends (copyStep source) (.start o) (rowsOf none (.ofOutline source o)) := by
  have hends : Ends (copyStep source) (.start o) (enterTree source [] none none o) :=
    ends_enterTree o
  rw [enterTree_eq source o none (by simp)] at hends
  exact hends

end JavaToGo.Tree
