import JavaToGo.Code.Expr
import JavaToGo.Text.Lines

/-!
# Go statements

A try statement has no counterpart in Go.  It is written as a function that is
called at once: deferred functions run the final block and recover, then come the
resources with their deferred closers, then the body.
-/

namespace JavaToGo.Code

mutual
/-- The statements of the generated code. -/
inductive Stmt where
  | hole
  | raw (source : String)
  | comment (comments : List String)
  /-- A variable with its type or its value; `short` asks for `:=`. -/
  | var (name : String) (type : Option String) (value : Option Expr) (short : Bool)
  | assign (target value : Expr)
  | step (target : Expr) (operator : String)
  | call (value : Expr)
  | ret (values : List Expr)
  | block (body : List Stmt)
  | labeled (label : String) (statement : Stmt)
  | cond (condition : Expr) (body : List Stmt) (elseBody : Option (List Stmt))
  | loop (init : Option Stmt) (condition : Option Expr) (post : Option Stmt) (body : List Stmt)
  | range (key value : String) (iterable : Expr) (body : List Stmt)
  | switch (value : Option Expr) (clauses : List SwitchClause)
  | tryCatch (body : List Stmt) (catches : List CatchClause) (finallyBody : Option (List Stmt))
      (resources : List Stmt) (closers : List Expr)
/-- One clause of a switch; a default clause is written without values. -/
inductive SwitchClause where
  | mk (values : List Expr) (body : List Stmt) (fallsThrough : Bool) (isDefault : Bool)
/-- A handler: the type it asks for, its statements, the name of the caught value. -/
inductive CatchClause where
  | mk (exceptionType : String) (body : List Stmt) (binding : Option String)
end

deriving instance Repr, BEq, Inhabited for Stmt, SwitchClause, CatchClause

namespace SwitchClause

def values : SwitchClause → List Expr
  | .mk values _ _ _ => values

def body : SwitchClause → List Stmt
  | .mk _ body _ _ => body

def fallsThrough : SwitchClause → Bool
  | .mk _ _ fallsThrough _ => fallsThrough

def isDefault : SwitchClause → Bool
  | .mk _ _ _ isDefault => isDefault

def header (values : List Expr) (isDefault : Bool) : String :=
  if isDefault then "default:"
  else "case " ++ ", ".intercalate (values.map Expr.bare) ++ ":"

def headerText (clause : SwitchClause) : String :=
  header clause.values clause.isDefault

/-- Whether the first line meets no hole. -/
def headerComplete (clause : SwitchClause) : Bool :=
  clause.isDefault || clause.values.all Expr.complete

end SwitchClause

namespace CatchClause

def exceptionType : CatchClause → String
  | .mk exceptionType _ _ => exceptionType

def body : CatchClause → List Stmt
  | .mk _ body _ => body

/-- The name of the caught value, when the body needs it. -/
def binding : CatchClause → Option String
  | .mk _ _ binding => binding

end CatchClause

def indentLine (line : String) : String :=
  if line.isEmpty then "" else "\t" ++ line

/-- The lines of a text, one step further in. -/
def indented (text : String) : List String :=
  (Text.lines text).map indentLine

/-- The lines of a comment; an empty comment has one line. -/
def commentLines (text : String) : List String :=
  match Text.lines text with
  | [] => ["//"]
  | ls => ls.map fun line => if line.isEmpty then "//" else "// " ++ line

def blockText (header : String) (body : List String) : String :=
  Text.unlines ((header ++ " \x7b") :: body ++ ["\x7d"])

/-- A text that is neither missing nor empty. -/
def presentText (text : Option String) : Option String :=
  text.filter fun t => !t.isEmpty

namespace Stmt

def isComment : Stmt → Bool
  | .comment _ => true
  | _ => false

def isCond : Stmt → Bool
  | .cond .. => true
  | _ => false

def isReturn : Stmt → Bool
  | .ret _ => true
  | _ => false

def varText (name : String) (type : Option String) (value : Option Expr) (short : Bool) : String :=
  match value with
  | none => "var " ++ name ++ " " ++ type.getD "None"
  | some v =>
    match type with
    | none => name ++ " := " ++ v.bare
    | some t =>
      if short then name ++ " := " ++ v.bare
      else "var " ++ name ++ " " ++ t ++ " = " ++ v.bare

def loopHeader (init condition post : Option String) : String :=
  match init, post with
  | none, none => Text.trimmedRight ("for " ++ condition.getD "")
  | _, _ =>
    Text.trimmedRight
      ("for " ++ init.getD "" ++ "; " ++ condition.getD "" ++ "; " ++ post.getD "")

def catchHeader (isFirst : Bool) (exceptionType : String) (binding : Option String) : String :=
  "\t\t" ++ (if isFirst then "if" else "\x7d else if") ++ " "
    ++ (presentText binding).getD "_" ++ ", ok := r.(" ++ exceptionType ++ "); ok \x7b"

def recoverLines (handlers : List String) : List String :=
  ["defer func() \x7b", "\tif r := recover(); r != nil \x7b"] ++ handlers
    ++ ["\t\t\x7d else \x7b", "\t\t\tpanic(r) // re-panic if it's not a handled exception",
      "\t\t\x7d", "\t\x7d", "\x7d()"]

def finallyLines (body : Option (List String)) : List String :=
  match body with
  | none => []
  | some ls => "defer func() \x7b" :: ls ++ ["\x7d()"]

/-- The function that a try statement is written as. -/
def tryText (finallyPart recoverPart resourcePart closerPart body : List String) : String :=
  Text.unlines
    ("func() \x7b" :: (finallyPart ++ recoverPart ++ resourcePart ++ closerPart).map indentLine
      ++ body ++ ["\x7d()"])

mutual
/-- The text of a statement, of one or several lines. -/
def text : Stmt → String
  | .hole => ""
  | .raw source => source
  | .comment comments => Text.unlines (comments.flatMap commentLines)
  | .var name type value short => varText name type value short
  | .assign target value => target.text ++ " = " ++ value.bare
  | .step target operator => target.text ++ operator
  | .call value => value.text
  | .ret values =>
    if values.isEmpty then "return" else "return " ++ ", ".intercalate (values.map Expr.bare)
  | .block body => Text.unlines ("\x7b" :: blockLines body ++ ["\x7d"])
  | .labeled label statement => label ++ ":\n" ++ text statement
  | .cond condition body none => blockText ("if " ++ condition.bare) (blockLines body)
  | .cond condition body (some elseBody) =>
    blockText ("if " ++ condition.bare) (blockLines body)
      ++ (match soleCond elseBody with
        | some chained => " else " ++ chained
        | none => " " ++ blockText "else" (blockLines elseBody))
  | .loop init condition post body =>
    blockText (loopHeader (optionText init) (condition.map Expr.bare) (optionText post))
      (blockLines body)
  | .range key value iterable body =>
    blockText ("for " ++ key ++ ", " ++ value ++ " := range " ++ iterable.bare) (blockLines body)
  | .switch value clauses =>
    Text.unlines
      (((match value with
        | none => "switch"
        | some v => "switch " ++ v.bare) ++ " \x7b") :: clauseLines clauses ++ ["\x7d"])
  | .tryCatch body catches finallyBody resources closers =>
    tryText (finallyLines (optionLines finallyBody))
      (if catches.isEmpty then [] else recoverLines (catchLines true catches))
      (plainLines resources)
      (closers.map fun closer => "defer " ++ closer.text ++ ".Close()")
      (blockLines body)

def optionText : Option Stmt → Option String
  | none => none
  | some s => some (text s)

/-- Cuts the text of each statement into lines and moves them in. -/
def blockLines : List Stmt → List String
  | [] => []
  | s :: ss => indented (text s) ++ blockLines ss

def optionLines : Option (List Stmt) → Option (List String)
  | none => none
  | some ss => some (blockLines ss)

def plainLines : List Stmt → List String
  | [] => []
  | s :: ss => Text.lines (text s) ++ plainLines ss

def soleCond : List Stmt → Option String
  | [s] => if isCond s then some (text s) else none
  | _ => none

def clauseLines : List SwitchClause → List String
  | [] => []
  | .mk values body fallsThrough isDefault :: clauses =>
    SwitchClause.header values isDefault :: blockLines body
      ++ (if fallsThrough then ["\tfallthrough"] else []) ++ clauseLines clauses

def catchLines : Bool → List CatchClause → List String
  | _, [] => []
  | isFirst, .mk exceptionType body binding :: catches =>
    catchHeader isFirst exceptionType binding
      :: (blockLines body).map (fun line => if line.isEmpty then "" else "\t\t" ++ line)
      ++ catchLines false catches
end

mutual
/-- Whether rendering the statement meets no hole. -/
def complete : Stmt → Bool
  | .hole => false
  | .raw _ => true
  | .comment _ => true
  | .var _ _ value _ => value.all Expr.complete
  | .assign target value => target.complete && value.complete
  | .step target _ => target.complete
  | .call value => value.complete
  | .ret values => values.all Expr.complete
  | .block body => completeAll body
  | .labeled _ statement => complete statement
  | .cond condition body none => condition.complete && completeAll body
  | .cond condition body (some elseBody) =>
    condition.complete && completeAll body && completeAll elseBody
  | .loop init condition post body =>
    completeOption init && condition.all Expr.complete && completeOption post && completeAll body
  | .range _ _ iterable body => iterable.complete && completeAll body
  | .switch value clauses => value.all Expr.complete && completeClauses clauses
  | .tryCatch body catches finallyBody resources closers =>
    completeAll body && completeCatches catches && completeBody finallyBody
      && completeAll resources && closers.all Expr.complete

/-- Whether rendering a statement that may be missing meets no hole. -/
def completeOption : Option Stmt → Bool
  | none => true
  | some s => complete s

/-- Whether rendering a block meets no hole. -/
def completeAll : List Stmt → Bool
  | [] => true
  | s :: ss => complete s && completeAll ss

/-- Whether rendering a block that may be missing meets no hole. -/
def completeBody : Option (List Stmt) → Bool
  | none => true
  | some ss => completeAll ss

def completeClauses : List SwitchClause → Bool
  | [] => true
  | .mk values body _ isDefault :: clauses =>
    (isDefault || values.all Expr.complete) && completeAll body && completeClauses clauses

/-- Whether rendering the handlers of a try statement meets no hole. -/
def completeCatches : List CatchClause → Bool
  | [] => true
  | .mk _ body _ :: catches => completeAll body && completeCatches catches
end

theorem blockLines_eq_flatMap (ss : List Stmt) :
    blockLines ss = ss.flatMap fun s => indented s.text := by
  induction ss with
  | nil => rfl
  | cons s ss ih => simp [blockLines, ih]

end Stmt

end Code

export Code (Expr Stmt SwitchClause CatchClause)

end JavaToGo
