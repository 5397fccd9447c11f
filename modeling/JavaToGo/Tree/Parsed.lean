import JavaToGo.Document.Basic
import JavaToGo.Tree.Node

/-!
# Trees from a parser

A parser hands its tree over as a document.
-/

namespace JavaToGo

/-- The value of a whole number that is not negative. -/
def Document.asNat? : Document → Option Nat
  | .integer (.ofNat n) => some n
  | _ => none

namespace Tree

mutual
/-- A node is a list: its kind, whether it is named (zero or one), its first byte, the byte behind
its last one, the field that it fills or nothing, and its children, if any. -/
def Outline.ofDocument? : Document → Option Outline
  | .list [.text kind, named, first, last, field] => do
    return .mk kind ((← named.asNat?) != 0) (← first.asNat?) (← last.asNat?) field.asText? []
  | .list [.text kind, named, first, last, field, .list children] => do
    let found ← Outline.ofDocuments? children
    return .mk kind ((← named.asNat?) != 0) (← first.asNat?) (← last.asNat?) field.asText? found
  | _ => none

def Outline.ofDocuments? : List Document → Option (List Outline)
  | [] => some []
  | d :: ds => do
    let first ← Outline.ofDocument? d
    let rest ← Outline.ofDocuments? ds
    return first :: rest
end

def Node.ofDocument? (source : List UInt8) (document : Document) : Option Node :=
  (Outline.ofDocument? document).map (Node.ofOutline source)

end Tree
end JavaToGo
