import JavaToGo.Code.Stmt

/-!
# Go declarations

Names are final: the flags that say whether something is public do not change the
text.  A result type, a type or an alias that is missing or empty is not written.
-/

namespace JavaToGo.Code

/-- A parameter or a receiver. -/
structure Param where
  name : String
  type : String
deriving Repr, BEq, DecidableEq, Inhabited

def Param.text (p : Param) : String :=
  p.name ++ " " ++ p.type

structure Field where
  name : String
  type : String
  isPublic : Bool := false
deriving Repr, BEq, DecidableEq, Inhabited

def Field.text (f : Field) : String :=
  f.name ++ " " ++ f.type

/-- Type parameters in brackets, each bound by `any`. -/
def typeParamsText (names : List String) : String :=
  if names.isEmpty then "" else "[" ++ ", ".intercalate (names.map (· ++ " any")) ++ "]"

def paramsText (params : List Param) : String :=
  ", ".intercalate (params.map Param.text)

def resultText (result : Option String) : String :=
  match presentText result with
  | none => ""
  | some t => " " ++ t

def typeText (type : Option String) : String :=
  resultText type

/-- A header and a body in braces; an empty body stays on the line. -/
def bracedText (header : String) (body : List String) : String :=
  if body.isEmpty then header ++ " \x7b\x7d"
  else Text.unlines ((header ++ " \x7b") :: body.map ("\t" ++ ·) ++ ["\x7d"])

/-- A struct type, with the types that it embeds. -/
structure Struct where
  name : String
  fields : List Field := []
  embeds : List String := []
  isPublic : Bool := false
  typeParams : List String := []
  comments : List String := []
deriving Repr, BEq, DecidableEq, Inhabited

def Struct.text (s : Struct) : String :=
  Text.unlines
    (s.comments.flatMap commentLines
      ++ [bracedText ("type " ++ s.name ++ typeParamsText s.typeParams ++ " struct")
        (s.embeds ++ s.fields.map Field.text)])

/-- A type defined by another. -/
structure NamedType where
  name : String
  type : String
  isPublic : Bool := false
deriving Repr, BEq, DecidableEq, Inhabited

def NamedType.text (t : NamedType) : String :=
  "type " ++ t.name ++ " " ++ t.type

structure MethodSpec where
  name : String
  params : List Param := []
  result : Option String := none
deriving Repr, BEq, DecidableEq, Inhabited

def MethodSpec.text (m : MethodSpec) : String :=
  m.name ++ "(" ++ paramsText m.params ++ ")" ++ resultText m.result

/-- An interface type. -/
structure Interface where
  name : String
  methods : List MethodSpec := []
  embeds : List String := []
  isPublic : Bool := false
  typeParams : List String := []
deriving Repr, BEq, DecidableEq, Inhabited

def Interface.text (i : Interface) : String :=
  bracedText ("type " ++ i.name ++ typeParamsText i.typeParams ++ " interface")
    (i.embeds ++ i.methods.map MethodSpec.text)

/-- A function, or a method when it has a receiver. -/
structure Function where
  name : String
  params : List Param := []
  result : Option String := none
  body : List Stmt := []
  isPublic : Bool := false
  comments : List String := []
  typeParams : List String := []
  receiver : Option Param := none
deriving Repr, BEq, Inhabited

/-- Name, parameters and result. -/
def Function.signatureText (f : Function) : String :=
  f.name ++ typeParamsText f.typeParams ++ "(" ++ paramsText f.params ++ ")" ++ resultText f.result

def Function.bodyLines (f : Function) : List String :=
  (f.comments.flatMap commentLines).map ("\t" ++ ·) ++ Stmt.blockLines f.body

def receiverText : Option Param → String
  | none => ""
  | some r => "(" ++ r.text ++ ") "

/-- The function with its receiver and its body. -/
def Function.text (f : Function) : String :=
  Text.unlines
    (("func " ++ receiverText f.receiver ++ f.signatureText ++ " \x7b") :: f.bodyLines ++ ["\x7d"])

structure ModuleVar where
  name : String
  type : Option String := none
  value : Option Expr := none
  comments : List String := []
deriving Repr, BEq, Inhabited

def ModuleVar.text (v : ModuleVar) : String :=
  Text.unlines
    (v.comments.flatMap commentLines
      ++ ["var " ++ v.name ++ typeText v.type
        ++ (match v.value with
          | none => ""
          | some e => " = " ++ e.bare)])

structure ModuleConst where
  name : String
  value : Expr
  type : Option String := none
deriving Repr, BEq, Inhabited

def ModuleConst.text (c : ModuleConst) : String :=
  "const " ++ c.name ++ typeText c.type ++ " = " ++ c.value.bare

/-- One constant of a block; without a value it repeats the one before it. -/
structure ConstEntry where
  name : String
  type : Option String := none
  value : Option Expr := none
deriving Repr, BEq, Inhabited

def ConstEntry.text (c : ConstEntry) : String :=
  c.name ++ typeText c.type
    ++ (match c.value with
      | none => ""
      | some e => " = " ++ e.text)

/-- Constants that are declared together. -/
structure ConstBlock where
  entries : List ConstEntry := []
deriving Repr, BEq, Inhabited

def ConstBlock.text (b : ConstBlock) : String :=
  Text.unlines ("const (" :: b.entries.map (fun e => "\t" ++ e.text) ++ [")"])

/-- An import, perhaps with a local name. -/
structure Import where
  path : String
  localName : Option String := none
deriving Repr, BEq, DecidableEq, Inhabited

def Import.text (i : Import) : String :=
  (match presentText i.localName with
  | none => ""
  | some a => a ++ " ") ++ "\"" ++ i.path ++ "\""

/-- What stands in for a member that could not be converted: a comment that tells why. -/
structure FailedMember where
  location : String
  error : String
  source : String
  sexpr : String
deriving Repr, BEq, DecidableEq, Inhabited

/-- The lines that tell the error; an error without text has one line. -/
def errorLines (error : String) : List String :=
  match Text.lines error with
  | [] => ["// Error: "]
  | [line] => ["// Error: " ++ line]
  | line :: more => ("// Error: " ++ line) :: commentLines (Text.unlines more)

/-- A block of comments that tells of the failure. -/
def FailedMember.text (f : FailedMember) : String :=
  Text.unlines
    (["// FIXME: Failed to migrate", "// Location: " ++ f.location] ++ errorLines f.error
      ++ "// Java source:" :: commentLines f.source
      ++ "// S-expression:" :: commentLines f.sexpr)

def Function.complete (f : Function) : Bool :=
  Stmt.completeAll f.body

/-- Whether rendering the variable meets no hole. -/
def ModuleVar.complete (v : ModuleVar) : Bool :=
  v.value.all Expr.complete

def ModuleConst.complete (c : ModuleConst) : Bool :=
  c.value.complete

def ConstEntry.complete (c : ConstEntry) : Bool :=
  c.value.all Expr.complete

def ConstBlock.complete (b : ConstBlock) : Bool :=
  b.entries.all ConstEntry.complete

/-- A declaration of a Go file. -/
inductive Decl where
  | interface (i : Interface)
  | struct (s : Struct)
  | named (t : NamedType)
  | constBlock (b : ConstBlock)
  | const (c : ModuleConst)
  | var (v : ModuleVar)
  | function (f : Function)
  | failed (f : FailedMember)
deriving Repr, BEq, Inhabited

def Decl.text : Decl → String
  | .interface i => i.text
  | .struct s => s.text
  | .named t => t.text
  | .constBlock b => b.text
  | .const c => c.text
  | .var v => v.text
  | .function f => f.text
  | .failed f => f.text

/-- Whether rendering the declaration meets no hole. -/
def Decl.complete : Decl → Bool
  | .constBlock b => b.complete
  | .const c => c.complete
  | .var v => v.complete
  | .function f => f.complete
  | .interface _ | .struct _ | .named _ | .failed _ => true

end Code

export Code (Decl Param)

end JavaToGo
