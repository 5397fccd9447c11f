import JavaToGo.Text.Basic

/-!
# Go expressions
-/

namespace JavaToGo.Code

/-- A Go expression. -/
inductive Expr where
  | hole
  | raw (source : String)
  | var (name : String)
  | field (target : Expr) (name : String)
  | call (function : Expr) (args : List Expr) (variadic : Bool)
  | callNamed (function : String) (args : List Expr) (variadic : Bool)
  | binary (left : Expr) (operator : String) (right : Expr)
  | unary (operator : String) (operand : Expr)
  /-- A conversion `T(value)`. -/
  | cast (type : String) (value : Expr)
  | assertion (value : Expr) (type : String)
  | index (target position : Expr)
  | composite (type : String) (elements : List Expr) (keys : List String)
  /-- Whether a value has a type; a value that cannot be asked has not. -/
  | typeTest (value : Expr) (type : String)
  | choice (condition consequence alternative : Expr) (type : String)
deriving Repr, BEq, Inhabited

namespace Expr

def nil : Expr := .raw "nil"

def isCall : Expr → Bool
  | .call .. => true
  | .callNamed .. => true
  | _ => false

/-- Puts parentheses around a binary expression. -/
def parenthesized : Expr → String → String
  | .binary .., bareText => "(" ++ bareText ++ ")"
  | _, bareText => bareText

/-- Puts parentheses around a unary or a binary expression. -/
def unaryOperand : Expr → String → String
  | .unary .., bareText => "(" ++ bareText ++ ")"
  | e, bareText => parenthesized e bareText

/-- The type of a conversion; a pointer, a slice or a map needs parentheses. -/
def castType (type : String) : String :=
  if Text.startsWith type "[]" || Text.startsWith type "*" || Text.startsWith type "map[" then
    "(" ++ type ++ ")"
  else type

/-- The elements of a composite literal, with their keys if there are any. -/
def items (keys elements : List String) : List String :=
  if keys.isEmpty then elements
  else (keys.zip elements).map fun p => p.1 ++ ": " ++ p.2

/-- A call; a variadic one spreads its last argument. -/
def callText (function : String) (args : List String) (variadic : Bool) : String :=
  function ++ "(" ++ ", ".intercalate args ++ (if variadic then "..." else "") ++ ")"

def assertionText (value type : String) : String :=
  "interface\x7b\x7d(" ++ value ++ ").(" ++ type ++ ")"

/-- The text of a type test: a function that recovers when the value cannot be asked. -/
def typeTestText (value type : String) : String :=
  "func() (ok bool) \x7b\n\tdefer func() \x7b\n\t\tif recover() != nil \x7b\n\t\t\tok = false\n"
    ++ "\t\t\x7d\n\t\x7d()\n\t_, ok = " ++ assertionText value type ++ "\n\treturn\n\x7d()"

/-- The text of a choice: a function that returns one of the values. -/
def choiceText (condition consequence alternative type : String) : String :=
  "func() " ++ type ++ " \x7b\n\tif " ++ condition ++ " \x7b\n\t\treturn " ++ consequence
    ++ "\n\t\x7d\n\treturn " ++ alternative ++ "\n\x7d()"

mutual
/-- The text of the expression where it stands alone. -/
def bare : Expr → String
  | .hole => ""
  | .raw source => source
  | .var name => name
  | .field target name => parenthesized target (bare target) ++ "." ++ name
  | .call function args variadic =>
    callText (parenthesized function (bare function)) (bareAll args) variadic
  | .callNamed function args variadic => callText function (bareAll args) variadic
  | .binary left operator right =>
    parenthesized left (bare left) ++ " " ++ operator ++ " " ++ parenthesized right (bare right)
  | .unary operator operand => operator ++ unaryOperand operand (bare operand)
  | .cast type value => castType type ++ "(" ++ bare value ++ ")"
  | .assertion value type => assertionText (bare value) type
  | .index target position => parenthesized target (bare target) ++ "[" ++ bare position ++ "]"
  | .composite type elements keys =>
    type ++ "\x7b" ++ ", ".intercalate (items keys (bareAll elements)) ++ "\x7d"
  | .typeTest value type => typeTestText (bare value) type
  | .choice condition consequence alternative type =>
    choiceText (bare condition) (bare consequence) (bare alternative) type

def bareAll : List Expr → List String
  | [] => []
  | e :: es => bare e :: bareAll es
end

/-- The text of the expression where it is an operand. -/
def text (e : Expr) : String :=
  parenthesized e (bare e)

mutual
/-- Whether rendering meets no hole. -/
def complete : Expr → Bool
  | .hole => false
  | .raw _ => true
  | .var _ => true
  | .field target _ => complete target
  | .call function args _ => complete function && completeAll args
  | .callNamed _ args _ => completeAll args
  | .binary left _ right => complete left && complete right
  | .unary _ operand => complete operand
  | .cast _ value => complete value
  | .assertion value _ => complete value
  | .index target position => complete target && complete position
  | .composite _ elements keys =>
    if keys.isEmpty then completeAll elements else completeUpTo keys.length elements
  | .typeTest value _ => complete value
  | .choice condition consequence alternative _ =>
    complete condition && complete consequence && complete alternative

def completeAll : List Expr → Bool
  | [] => true
  | e :: es => complete e && completeAll es

/-- Whether rendering the first elements meets no hole. -/
def completeUpTo : Nat → List Expr → Bool
  | 0, _ => true
  | _, [] => true
  | n + 1, e :: es => complete e && completeUpTo n es
end

end Expr

end JavaToGo.Code
