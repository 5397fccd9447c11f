import JavaToGo.Text.Utf8
import JavaToGo.Tree.Kind

/-!
# Syntax trees

**Numbers.**  `Node.ofOutline` numbers the nodes of a tree from zero, each node
before its children and the children from left to right.  Tables about a tree
are keyed by these numbers.
-/

namespace JavaToGo.Tree

/-- A position in the source: row and byte within the row, from zero. -/
structure Point where
  row : Nat
  column : Nat
deriving DecidableEq, Repr, Inhabited

def Point.advance (p : Point) (b : UInt8) : Point :=
  if b = 10 then ⟨p.row + 1, 0⟩ else ⟨p.row, p.column + 1⟩

/-- The point of a byte offset; an offset behind the source counts on in the last row. -/
def pointAt (source : List UInt8) (offset : Nat) : Point :=
  let last := (source.take offset).foldl Point.advance ⟨0, 0⟩
  ⟨last.row, last.column + (offset - source.length)⟩

/-- The text between two offsets. -/
def textOf (source : List UInt8) (first last : Nat) : String :=
  String.ofList (Text.Utf8.decodeFrom .rest ((source.drop first).take (last - first)))

/-- A tree as a parser hands it over: kinds, byte ranges and field names, not yet numbered and
without text. -/
inductive Outline where
  | mk (kind : String) (named : Bool) (first last : Nat) (field : Option String)
      (children : List Outline)
deriving Repr, Inhabited

mutual
def Outline.size : Outline → Nat
  | .mk _ _ _ _ _ children => 1 + Outline.sizeAll children

def Outline.sizeAll : List Outline → Nat
  | [] => 0
  | o :: os => o.size + Outline.sizeAll os
end

/-- What a node is, apart from its children. -/
structure Head where
  id : Nat
  kind : Kind
  /-- Whether the grammar gives the node a name; signs and key words have none. -/
  named : Bool
  /-- The field of the parent that the node fills. -/
  field : Option String
  firstByte : Nat
  lastByte : Nat
  start : Point
  stop : Point
  text : String
deriving DecidableEq, Repr, Inhabited

/-- A node with its number, its text and its children. -/
inductive Node where
  | mk (head : Head) (children : List Node)
deriving Repr, Inhabited

namespace Node

def head : Node → Head
  | .mk head _ => head

def children : Node → List Node
  | .mk _ children => children

section

variable (n : Node)

def id : Nat := n.head.id

def kind : Kind := n.head.kind

def named : Bool := n.head.named

def field : Option String := n.head.field

def text : String := n.head.text

/-- The row and the column where the node begins, counted from one. -/
def location : Nat × Nat :=
  (n.head.start.row + 1, n.head.start.column + 1)

def namedChildren : List Node :=
  n.children.filter named

/-- The named children that are no comments. -/
def operands : List Node :=
  n.namedChildren.filter fun c => !c.kind.isComment

def fieldChildren (field : String) : List Node :=
  n.children.filter fun c => c.field == some field

/-- The first child that fills a field. -/
def fieldChild? (field : String) : Option Node :=
  n.children.find? fun c => c.field == some field

def childrenOfKind (kind : Kind) : List Node :=
  n.children.filter fun c => c.kind == kind

def childOfKind? (kind : Kind) : Option Node :=
  n.children.find? fun c => c.kind == kind

/-- How many brackets the text opens: the depth of an array. -/
def dimensionDepth : Nat :=
  n.text.toList.count '['

end

mutual
/-- The node and all below it, each before its children. -/
def walk : Node → List Node
  | .mk head children => .mk head children :: walkAll children

def walkAll : List Node → List Node
  | [] => []
  | n :: ns => walk n ++ walkAll ns
end

mutual
/-- The number of nodes on the longest path down. -/
def height : Node → Nat
  | .mk _ children => 1 + heightAll children

/-- How many levels the highest of the subtrees has. -/
def heightAll : List Node → Nat
  | [] => 0
  | n :: ns => max (height n) (heightAll ns)
end

mutual
/-- The nodes from the one of a number up to the root. -/
def pathTo (id : Nat) : Node → Option (List Node)
  | .mk head children =>
    if head.id = id then some [.mk head children]
    else (pathInto id children).map (· ++ [.mk head children])

def pathInto (id : Nat) : List Node → Option (List Node)
  | [] => none
  | n :: ns =>
    match pathTo id n with
    | some path => some path
    | none => pathInto id ns
end

def find? (root : Node) (id : Nat) : Option Node :=
  (pathTo id root).bind List.head?

/-- The nodes above the one of a number, nearest first: a node does not know its parent. -/
def ancestors (root : Node) (id : Nat) : List Node :=
  ((pathTo id root).getD []).tail

def fieldLabel (n : Node) : String :=
  match n.field with
  | none => ""
  | some f => if f.isEmpty then "" else f ++ ": "

mutual
/-- The named structure of the subtree as an s-expression. -/
def sexpr : Node → String
  | .mk head children =>
    if head.named then
      match sexprAll children with
      | [] => "(" ++ head.kind.name ++ ")"
      | parts => "(" ++ head.kind.name ++ " " ++ " ".intercalate parts ++ ")"
    else "(\"" ++ head.kind.name ++ "\")"

def sexprAll : List Node → List String
  | [] => []
  | n :: ns => if n.named then (fieldLabel n ++ sexpr n) :: sexprAll ns else sexprAll ns
end

mutual
/-- Numbers an outline from `id` on. -/
def number (source : List UInt8) (id : Nat) (field : Option String) : Outline → Node
  | .mk kind named first last _ children =>
    .mk
      { id := id, kind := Kind.ofName kind, named := named, field := field,
        firstByte := first, lastByte := last,
        start := pointAt source first, stop := pointAt source last,
        text := textOf source first last }
      (numberAll source (id + 1) children)

/-- Numbers a list of outlines, one after the other, from `id` on. -/
def numberAll (source : List UInt8) (id : Nat) : List Outline → List Node
  | [] => []
  | .mk kind named first last field children :: os =>
    number source id field (.mk kind named first last field children)
      :: numberAll source (id + (Outline.mk kind named first last field children).size) os
end

/-- The tree of an outline over its source; the root fills no field. -/
def ofOutline (source : List UInt8) (outline : Outline) : Node :=
  number source 0 none outline

def emptyUnit (source : List UInt8) : Node :=
  ofOutline source (.mk "program" true 0 source.length none [])

@[simp] theorem walkAll_eq_flatMap (ns : List Node) : walkAll ns = ns.flatMap walk := by
  induction ns with
  | nil => rfl
  | cons n ns ih => simp [walkAll, ih]

theorem walk_eq_flatMap (n : Node) : n.walk = n :: n.children.flatMap walk := by
  cases n
  simp [walk, children]

theorem mem_walk_self (n : Node) : n ∈ n.walk := by
  rw [walk_eq_flatMap]
  exact List.mem_cons_self ..

theorem height_lt_of_mem_children {n c : Node} (h : c ∈ n.children) : c.height < n.height := by
  obtain ⟨head, children⟩ := n
  have hle : ∀ ns : List Node, c ∈ ns → c.height ≤ heightAll ns := by
    intro ns hns
    induction ns with
    | nil => simp at hns
    | cons m ms ih =>
      rw [heightAll]
      rcases List.mem_cons.1 hns with rfl | hms
      · exact Nat.le_max_left ..
      · exact Nat.le_trans (ih hms) (Nat.le_max_right ..)
  have := hle children h
  rw [height]
  omega

end Node

end Tree

export Tree (Kind Node)

end JavaToGo
