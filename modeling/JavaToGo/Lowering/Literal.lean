import JavaToGo.Text.Basic

/-!
# Literals
-/

namespace JavaToGo.Literal

def dropSuffix (isSuffix : Char → Bool) (s : String) : String :=
  match s.toList.reverse with
  | '\n' :: c :: cs => if isSuffix c then String.ofList ('\n' :: cs).reverse else s
  | c :: cs => if isSuffix c then String.ofList cs.reverse else s
  | [] => s

/-- Drops underscores and the letter that gives the type. -/
def integer (s : String) : String :=
  dropSuffix (fun c => c == 'l' || c == 'L') (Text.eraseChar '_' s)

def isHex (s : String) : Bool :=
  Text.startsWith s "0x" || Text.startsWith s "0X"

/-- As for integers; in a hexadecimal number letters are digits and stay. -/
def float (s : String) : String :=
  let digits := Text.eraseChar '_' s
  if isHex digits then digits
  else dropSuffix (fun c => c == 'f' || c == 'F' || c == 'd' || c == 'D') digits

def gluedBackquote : String := "` + \"`\" + `"

/-- The body of a text block: what stands between its quotes, without a newline in front. -/
def blockBody (s : String) : List Char :=
  match (s.toList.take (s.length - 3)).drop 3 with
  | '\n' :: cs => cs
  | cs => cs

/-- A raw literal cannot hold a backquote: it is cut there and glued together again. -/
def raw (body : List Char) : String :=
  "`" ++ String.ofList (Text.replaceAll '`' gluedBackquote.toList body) ++ "`"

/-- A string literal stays, a text block becomes a raw literal. -/
def string (s : String) : String :=
  if Text.startsWith s "\"\"\"" then raw (blockBody s) else s

end JavaToGo.Literal
