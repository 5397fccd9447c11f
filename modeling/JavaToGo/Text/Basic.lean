/-!
# Small operations on texts
-/

namespace JavaToGo.Text

/-- Whether a string begins with another. -/
def startsWith (s start : String) : Bool :=
  start.toList.isPrefixOf s.toList

def endsWith (s stop : String) : Bool :=
  stop.toList.isSuffixOf s.toList

/-- The string without its first `n` characters. -/
def dropChars (n : Nat) (s : String) : String :=
  String.ofList (s.toList.drop n)

/-- The first `n` characters of the string. -/
def takeChars (n : Nat) (s : String) : String :=
  String.ofList (s.toList.take n)

def dropLastChar (s : String) : String :=
  String.ofList s.toList.dropLast

/-- The string without a character. -/
def eraseChar (c : Char) (s : String) : String :=
  String.ofList (s.toList.filter (· != c))

/-- Replaces each occurrence of a character. -/
def replaceAll (c : Char) (by_ : List Char) (cs : List Char) : List Char :=
  cs.flatMap fun d => if d == c then by_ else [d]

/-- Reads a carriage return, alone or before a newline, as a newline. -/
def unixBreaks : List Char → List Char
  | [] => []
  | '\r' :: '\n' :: cs => '\n' :: unixBreaks cs
  | c :: cs => (if c == '\r' then '\n' else c) :: unixBreaks cs

/-- Drops the newlines at both ends. -/
def trimNewlines (cs : List Char) : List Char :=
  ((cs.dropWhile (· == '\n')).reverse.dropWhile (· == '\n')).reverse

/-- A copy of the string repeated `n` times. -/
def repeated (n : Nat) (s : String) : String :=
  String.join (List.replicate n s)

theorem startsWith_iff (s start : String) :
    startsWith s start = true ↔ start.toList <+: s.toList := by
  simp [startsWith]

/-- White space: the Unicode bidirectional classes WS, B and S and the category Zs. -/
def isBlank (c : Char) : Bool :=
  let n := c.toNat
  (0x09 ≤ n && n ≤ 0x0d) || (0x1c ≤ n && n ≤ 0x20) || n == 0x85 || n == 0xa0 || n == 0x1680
    || (0x2000 ≤ n && n ≤ 0x200a) || n == 0x2028 || n == 0x2029 || n == 0x202f || n == 0x205f
    || n == 0x3000

/-- Drops the white space in front. -/
def trimLeft (cs : List Char) : List Char :=
  cs.dropWhile isBlank

/-- Drops the white space behind. -/
def trimRight (cs : List Char) : List Char :=
  (cs.reverse.dropWhile isBlank).reverse

/-- Drops the white space at both ends. -/
def trim (cs : List Char) : List Char :=
  trimRight (trimLeft cs)

def trimmed (s : String) : String :=
  String.ofList (trim s.toList)

def trimmedRight (s : String) : String :=
  String.ofList (trimRight s.toList)

/-- The value of a hexadecimal digit in either case. -/
def hexValue? (c : Char) : Option Nat :=
  if c.isDigit then some (c.toNat - '0'.toNat)
  else if 'a' ≤ c && c ≤ 'f' then some (c.toNat - 'a'.toNat + 10)
  else if 'A' ≤ c && c ≤ 'F' then some (c.toNat - 'A'.toNat + 10)
  else none

/-- The number that hexadecimal digits write. -/
def hexNumber? (cs : List Char) : Option Nat :=
  cs.foldlM (fun n c => (hexValue? c).map fun d => 16 * n + d) 0

end JavaToGo.Text
