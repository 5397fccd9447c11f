import JavaToGo.Document.Basic
import JavaToGo.Document.Moment
import JavaToGo.Document.Tag
import JavaToGo.Text.LetterCase

/-!
# Words

What a word without quotes stands for, and the value of a word under a tag.
-/

namespace JavaToGo.Document

section Kinds

def nullWords : List String := ["", "~", "null", "Null", "NULL"]

def truthWords : List String :=
  ["yes", "Yes", "YES", "no", "No", "NO", "true", "True", "TRUE", "false", "False", "FALSE", "on",
    "On", "ON", "off", "Off", "OFF"]

def isLooseDigit (c : Char) : Bool :=
  c.isDigit || c == '_'

/-- The word without a sign in front. -/
def unsigned : List Char → List Char
  | '+' :: cs => cs
  | '-' :: cs => cs
  | cs => cs

def behindDigits? : List Char → Option (List Char)
  | [] => none
  | c :: cs => if c.isDigit then some (cs.dropWhile isLooseDigit) else none

/-- What follows the digits in base sixty behind colons; there may be none. -/
def behindSixties : List Char → List Char
  | ':' :: a :: b :: cs =>
    if '0' ≤ a && a ≤ '5' && b.isDigit then behindSixties cs
    else if a.isDigit then behindSixties (b :: cs)
    else ':' :: a :: b :: cs
  | [':', a] => if a.isDigit then [] else [':', a]
  | cs => cs
termination_by cs => cs.length

def isExponent : List Char → Bool
  | [] => true
  | c :: sign :: cs =>
    (c == 'e' || c == 'E') && (sign == '+' || sign == '-') && !cs.isEmpty && cs.all Char.isDigit
  | [_] => false

def isPointNumber (cs : List Char) : Bool :=
  match behindDigits? (unsigned cs) with
  | some ('.' :: rest) => isExponent (rest.dropWhile isLooseDigit)
  | some (':' :: rest) =>
    match behindSixties (':' :: rest) with
    | '.' :: rest => rest.all isLooseDigit
    | _ => false
  | _ => false

/-- A number with a point may have an exponent with a sign. -/
def isFraction (cs : List Char) : Bool :=
  isPointNumber cs
    || (match cs with
      | '.' :: rest => (behindDigits? rest).any isExponent
      | _ => false)
    || [".inf", ".Inf", ".INF"].contains (String.ofList (unsigned cs))
    || [".nan", ".NaN", ".NAN"].contains (String.ofList cs)

/-- Decimal, or behind a zero octal, hexadecimal or binary, or in base sixty with colons. -/
def isInteger (cs : List Char) : Bool :=
  match unsigned cs with
  | [] => false
  | ['0'] => true
  | '0' :: 'b' :: digits => !digits.isEmpty && digits.all fun c => c == '0' || c == '1' || c == '_'
  | '0' :: 'x' :: digits =>
    !digits.isEmpty && digits.all fun c => (Text.hexValue? c).isSome || c == '_'
  | '0' :: digits => digits.all fun c => ('0' ≤ c && c ≤ '7') || c == '_'
  | c :: digits => c.isDigit && (behindSixties (digits.dropWhile isLooseDigit)).isEmpty

/-- What a word without quotes is taken for. -/
def wordTag (word : String) : Tag :=
  let cs := word.toList
  if truthWords.contains word then .bool
  else if isFraction cs then .fraction
  else if isInteger cs then .integer
  else if word == "<<" then .merge
  else if nullWords.contains word then .null
  else if Moment.isWord cs then .moment
  else if word == "=" then .value
  else .text

end Kinds

section Values

def longestNumber : Nat := 4300

def baseLetter : Nat → Char
  | 2 => 'b'
  | 8 => 'o'
  | _ => 'x'

def bareDigits (base : Nat) (cs : List Char) : List Char :=
  match cs with
  | '0' :: c :: digits => if base != 10 && c.toLower == baseLetter base then digits else cs
  | _ => cs

/-- The number that digits of a base stand for.  Blanks may stand around them, and a sign and what
announces the base in front of them. -/
def numberIn (base : Nat) (cs : List Char) : Except ReadFault Int :=
  let word := Text.trim cs
  let digits := bareDigits base (unsigned word)
  let values := digits.map Text.hexValue?
  if digits.isEmpty || (base == 10 && longestNumber < digits.length)
      || !values.all (fun v => v.any (· < base)) then .error .noSuchValue
  else
    let n : Nat := values.foldl (fun n v => base * n + v.getD 0) 0
    .ok (if word.head? = some '-' then -(n : Int) else n)

def unsignedValue (cs : List Char) : Except ReadFault Int :=
  match cs with
  | [] => .error .emptyNumber
  | ['0'] => .ok 0
  | '0' :: 'b' :: digits => numberIn 2 digits
  | '0' :: 'x' :: digits => numberIn 16 digits
  | '0' :: digits => numberIn 8 ('0' :: digits)
  | cs => do
    let parts ← (cs.splitOn ':').mapM (numberIn 10)
    return parts.foldl (fun n part => 60 * n + part) 0

/-- Low lines between digits do not count. -/
def integerValue (word : String) : Except ReadFault Int := do
  let cs := word.toList.filter (· != '_')
  let n ← unsignedValue (unsigned cs)
  return if cs.head? = some '-' then -n else n

def isLooseExponent : List Char → Bool
  | [] => true
  | c :: cs =>
    let digits := unsigned cs
    c == 'e' && !digits.isEmpty && digits.all Char.isDigit

/-- Whether a word in lower case is a decimal number, without end, or no number.  Blanks may stand
around it, and a sign in front of it. -/
def isDecimal (cs : List Char) : Bool :=
  let word := unsigned (Text.trim cs)
  let whole := word.takeWhile Char.isDigit
  let rest := word.dropWhile Char.isDigit
  let behind := if rest.head? = some '.' then rest.drop 1 else rest
  let part := if rest.head? = some '.' then behind.takeWhile Char.isDigit else []
  ["inf", "infinity", "nan"].contains (String.ofList word)
    || (!(whole.isEmpty && part.isEmpty) && isLooseExponent (behind.drop part.length))

/-- The number with a point that a word stands for.  Colons separate the digits of base sixty. -/
def fractionValue (word : String) : Except ReadFault Document :=
  let cs := (Text.lowerAll word).toList.filter (· != '_')
  let digits := unsigned cs
  if cs.isEmpty then .error .emptyNumber
  else if [".inf", ".nan"].contains (String.ofList digits)
      || (digits.splitOn ':').all isDecimal then .ok (.fraction word)
  else .error .noSuchValue

def truthValue (word : String) : Except ReadFault Document :=
  let lower := Text.lowerAll word
  if ["yes", "true", "on"].contains lower then .ok (.bool true)
  else if ["no", "false", "off"].contains lower then .ok (.bool false)
  else .error (.noTruth lower)

def momentValue (word : String) : Except ReadFault Document :=
  match Moment.ofWord? word.toList with
  | none => .error .noMoment
  | some m => if m.isReal then .ok (.moment word) else .error .noSuchValue

/-- The value of a digit in base sixty-four. -/
def sixBits? (c : Char) : Option Nat :=
  if 'A' ≤ c && c ≤ 'Z' then some (c.toNat - 'A'.toNat)
  else if 'a' ≤ c && c ≤ 'z' then some (c.toNat - 'a'.toNat + 26)
  else if c.isDigit then some (c.toNat - '0'.toNat + 52)
  else if c == '+' then some 62
  else if c == '/' then some 63
  else none

def groupBytes : List Nat → List UInt8
  | [a, b] => [UInt8.ofNat (a * 4 + b / 16)]
  | [a, b, c] => [UInt8.ofNat (a * 4 + b / 16), UInt8.ofNat (b * 16 + c / 4)]
  | [a, b, c, d] =>
    [UInt8.ofNat (a * 4 + b / 16), UInt8.ofNat (b * 16 + c / 4), UInt8.ofNat (c * 64 + d)]
  | _ => []

/-- The bytes of digits in base sixty-four behind those of an open group.  Equals signs fill the
last group up, and nothing behind them counts; other characters are left out. -/
def bytesFrom (group : List Nat) (fills : Nat) : List Char → Option (List UInt8)
  | [] => if group.isEmpty then some [] else none
  | c :: cs =>
    if c == '=' then
      if group.length < 2 then bytesFrom group fills cs
      else if group.length + fills < 3 then bytesFrom group (fills + 1) cs
      else some (groupBytes group)
    else
      match sixBits? c with
      | none => bytesFrom group fills cs
      | some digit =>
        if group.length < 3 then bytesFrom (group ++ [digit]) 0 cs
        else (bytesFrom [] 0 cs).map (groupBytes (group ++ [digit]) ++ ·)

def bytesValue? (word : String) : Option Document :=
  let cs := word.toList
  if cs.all fun c => c.toNat < 128 then (bytesFrom [] 0 cs).map .bytes else none

end Values

end JavaToGo.Document
