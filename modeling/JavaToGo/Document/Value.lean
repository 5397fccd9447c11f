import JavaToGo.Document.Node

/-!
# Values of nodes

Merging and evaluating only ever go down into a node, so its depth bounds the
recursion.
-/

namespace JavaToGo.Document
namespace Node

mutual
def depth : Node → Nat
  | .scalar .. => 1
  | .enclosing _ => 1
  | .list _ items _ => depthOfItems items + 1
  | .mapping _ entries _ => depthOfEntries entries + 1

def depthOfItems : List Node → Nat
  | [] => 0
  | item :: items => max item.depth (depthOfItems items)

def depthOfEntries : List (Node × Node) → Nat
  | [] => 0
  | (key, value) :: entries => max (max key.depth value.depth) (depthOfEntries entries)
end

def complain {α : Type} (node : Node) (complaint : Complaint) : Except ReadFault α :=
  .error (.malformed ⟨complaint, node.mark⟩)

section Merging

def isMergeKey (node : Node) : Bool :=
  node.tag = .merge

def asKey : Node → Node
  | .scalar .value word mark => .scalar .text word mark
  | node => node

mutual
/-- Merged entries come in front, so that the own ones win. -/
def mergedEntries (entries : List (Node × Node)) : Nat → Except ReadFault (List (Node × Node))
  | 0 => .ok entries
  | n + 1 => do
    let merges := (entries.filter fun e => e.1.isMergeKey).map Prod.snd
    let own := entries.filter fun e => !e.1.isMergeKey
    let merged ← merges.mapM fun node => mergeSource node n
    return merged.flatten ++ own.map fun e => (e.1.asKey, e.2)

/-- Of several mappings in a list the first one wins. -/
def mergeSource (node : Node) : Nat → Except ReadFault (List (Node × Node))
  | 0 => .ok []
  | n + 1 => do
    match node with
    | .mapping _ entries _ => mergedEntries entries n
    | .enclosing _ => return []
    | .list _ items _ =>
      let merged ← items.mapM fun
        | .mapping _ entries _ => mergedEntries entries n
        | .enclosing _ => return []
        | item => item.complain .badMerge
      return merged.reverse.flatten
    | .scalar .. => node.complain .badMerge
end

end Merging

section Evaluation

def wordValue (node : Node) (tag : Tag) (word : String) : Except ReadFault Document :=
  match tag with
  | .null => .ok .null
  | .bool => truthValue word
  | .integer => do return .integer (← integerValue word)
  | .fraction => fractionValue word
  | .moment => momentValue word
  | .text => .ok (.text word)
  | .bytes =>
    match bytesValue? word with
    | some value => .ok value
    | none => node.complain .badBytes
  | .list | .mapping | .set | .orderedPairs | .pairs => node.complain .badShape
  | .merge | .value | .other _ => node.complain (.unknownTag tag.name)

def isCompound : Tag → Bool
  | .list | .mapping | .set | .orderedPairs | .pairs => true
  | _ => false

mutual
def wordIn? : Node → Option String
  | .scalar _ word _ => some word
  | .mapping _ entries _ => wordInEntries? entries
  | _ => none

def wordInEntries? : List (Node × Node) → Option String
  | [] => none
  | (key, value) :: entries => if key.tag = .value then wordIn? value else wordInEntries? entries
end

def simpleValue (node : Node) : Except ReadFault Document :=
  match node.tag with
  | .other name => node.complain (.unknownTag name)
  | tag =>
    match node.wordIn? with
    | some word => node.wordValue tag word
    | none => node.complain .badShape

def isKeyValue : Document → Bool
  | .list _ | .mapping _ => false
  | _ => true

/-- The value of an entry whose key and value are evaluated by `go`. -/
def entryValue (go : Node → Except ReadFault Document) (entry : Node × Node) :
    Except ReadFault (Document × Document) := do
  let key ← go entry.1
  if !isKeyValue key then entry.1.complain .badKey
  return (key, ← go entry.2)

/-- The entries of a mapping whose parts are evaluated by `go`, merged down to a depth. -/
def mappingValue (go : Node → Except ReadFault Document) (entries : List (Node × Node))
    (depth : Nat) : Except ReadFault (List (Document × Document)) := do
  let found ← (← mergedEntries entries depth).mapM (entryValue go)
  return found.foldl (fun es e => addEntry e.1 e.2 es) []

def pairValue (go : Node → Except ReadFault Document) (node : Node) :
    Except ReadFault Document :=
  match node with
  | .mapping _ [entry] _ => do return .list [← go entry.1, ← go entry.2]
  | _ => node.complain .badShape

/-- The value of a node, as far as a number of levels; the lists and mappings of the level behind
them are empty. -/
def value (node : Node) : Nat → Except ReadFault Document
  | 0 => if isCompound node.tag then .ok (.list []) else node.simpleValue
  | n + 1 =>
    match node with
    | .enclosing _ => .ok (.list [])
    | .list .list items _ => do return .list (← items.mapM fun item => item.value n)
    | .list .orderedPairs items _ | .list .pairs items _ => do
      return .list (← items.mapM (pairValue fun item => item.value n))
    | .mapping .mapping entries _ => do
      return .mapping (← mappingValue (fun part => part.value n) entries (2 * node.depth))
    | .mapping .set entries _ => do
      let found ← mappingValue (fun part => part.value n) entries (2 * node.depth)
      return .list (found.map Prod.fst)
    | _ => if isCompound node.tag then node.complain .badShape else node.simpleValue

/-- What is wrong further out is found before what is wrong further in. -/
def valueByLevels (node : Node) : Except ReadFault Document := do
  let _ ← (List.range node.depth).mapM fun n => node.value n
  node.value node.depth

end Evaluation

end Node

/-- The document that a text stands for. -/
def read (cs : List Char) : Except ReadFault Document := do
  let (tokens, fault) := tokens cs
  match ← nodeOf tokens fault with
  | none => return .null
  | some node => node.valueByLevels

end JavaToGo.Document
