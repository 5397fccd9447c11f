/-!
# Lenient UTF-8

Bytes are read as text without ever failing: a maximal piece that begins like a sequence but is
none gives one replacement character, and the byte that ends it is read again.
-/

namespace JavaToGo.Text.Utf8

def replacement : Char := '�'

/-- Where the machine stands between two bytes. -/
inductive State where
  | rest
  /-- Inside a sequence: the bits so far, the bytes owed after the next one, and the range of the
  next one. -/
  | owing (bits : Nat) (more : Nat) (low high : Nat)
deriving DecidableEq, Repr

/-- What the first byte of a character leads to. -/
def first (b : Nat) : List Char × State :=
  if b < 0x80 then ([Char.ofNat b], .rest)
  else if 0xc2 ≤ b && b ≤ 0xdf then ([], .owing (b - 0xc0) 0 0x80 0xbf)
  else if b == 0xe0 then ([], .owing 0 1 0xa0 0xbf)
  else if b == 0xed then ([], .owing 0xd 1 0x80 0x9f)
  else if 0xe1 ≤ b && b ≤ 0xef then ([], .owing (b - 0xe0) 1 0x80 0xbf)
  else if b == 0xf0 then ([], .owing 0 2 0x90 0xbf)
  else if 0xf1 ≤ b && b ≤ 0xf3 then ([], .owing (b - 0xf0) 2 0x80 0xbf)
  else if b == 0xf4 then ([], .owing 4 2 0x80 0x8f)
  else ([replacement], .rest)

/-- What one byte adds, and the state behind it. -/
def step : State → Nat → List Char × State
  | .rest, b => first b
  | .owing bits more low high, b =>
    if low ≤ b && b ≤ high then
      let bits' := bits * 64 + (b - 0x80)
      match more with
      | 0 => ([Char.ofNat bits'], .rest)
      | k + 1 => ([], .owing bits' k 0x80 0xbf)
    else
      (replacement :: (first b).1, (first b).2)

/-- The characters of the bytes; what is no character is replaced. -/
def decodeFrom : State → List UInt8 → List Char
  | .rest, [] => []
  | .owing .., [] => [replacement]
  | s, b :: bs => (step s b.toNat).1 ++ decodeFrom (step s b.toNat).2 bs

def decode (bytes : ByteArray) : String :=
  String.ofList (decodeFrom .rest bytes.toList)

end JavaToGo.Text.Utf8
