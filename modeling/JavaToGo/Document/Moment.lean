/-!
# Dates and times
-/

namespace JavaToGo.Document

structure DayTime where
  hour : Nat
  minute : Nat
  second : Nat
  /-- The distance from the standard time in minutes, without its sign. -/
  offset : Nat := 0
deriving DecidableEq, Repr

/-- A date, or a date with a time. -/
structure Moment where
  year : Nat
  month : Nat
  day : Nat
  /-- Whether the month and the day have two digits. -/
  isWide : Bool
  time : Option DayTime := none
deriving DecidableEq, Repr

namespace Moment

section Reading

/-- A number of at least `least` and at most `most` digits, and what follows. -/
def digits? (least most : Nat) (cs : List Char) : Option (Nat × List Char) :=
  let found := (cs.take most).takeWhile Char.isDigit
  if found.length < least then none
  else some ((String.ofList found).toNat?.getD 0, cs.drop found.length)

def behind? (c : Char) : List Char → Option (List Char)
  | [] => none
  | d :: cs => if d == c then some cs else none

/-- The distance from the standard time, behind which nothing follows. -/
def offset? (cs : List Char) : Option Nat :=
  match cs.dropWhile fun c => c == ' ' || c == '\t' with
  | [] => if cs.isEmpty then some 0 else none
  | ['Z'] => some 0
  | sign :: rest => do
    if sign != '+' && sign != '-' then none
    let (hours, rest) ← digits? 1 2 rest
    match rest with
    | [] => return 60 * hours
    | ':' :: rest =>
      let (minutes, rest) ← digits? 2 2 rest
      if rest.isEmpty then return 60 * hours + minutes else none
    | _ => none

def withoutFraction : List Char → List Char
  | '.' :: cs => cs.dropWhile Char.isDigit
  | cs => cs

/-- Hours, minutes and seconds, perhaps with a fraction and a distance from standard time. -/
def time? (cs : List Char) : Option DayTime := do
  let (hour, cs) ← digits? 1 2 cs
  let (minute, cs) ← digits? 2 2 (← behind? ':' cs)
  let (second, cs) ← digits? 2 2 (← behind? ':' cs)
  return { hour := hour, minute := minute, second := second,
           offset := ← offset? (withoutFraction cs) }

def behindDate? : List Char → Option (List Char)
  | 'T' :: cs => some cs
  | 't' :: cs => some cs
  | cs =>
    let rest := cs.dropWhile fun c => c == ' ' || c == '\t'
    if rest.length < cs.length then some rest else none

/-- A date has four digits for the year, and one or two for the month and the day. -/
def ofWord? (cs : List Char) : Option Moment := do
  let (year, cs) ← digits? 4 4 cs
  let monthAt ← behind? '-' cs
  let (month, cs) ← digits? 1 2 monthAt
  let dayAt ← behind? '-' cs
  let (day, rest) ← digits? 1 2 dayAt
  let isWide := monthAt.length - cs.length == 2 && dayAt.length - rest.length == 2
  let date : Moment := { year := year, month := month, day := day, isWide := isWide }
  if rest.isEmpty then return date
  return { date with time := some (← time? (← behindDate? rest)) }

/-- A date alone is only taken for one when the month and the day have two digits. -/
def isWord (cs : List Char) : Bool :=
  (ofWord? cs).any fun m => m.isWide || m.time.isSome

end Reading

def daysIn (year month : Nat) : Nat :=
  if month == 2 then
    if year % 4 == 0 && (year % 100 != 0 || year % 400 == 0) then 29 else 28
  else if [4, 6, 9, 11].contains month then 30
  else 31

def timeExists (t : DayTime) : Bool :=
  t.hour < 24 && t.minute < 60 && t.second < 60 && t.offset < 24 * 60

/-- Whether the day exists. -/
def isReal (m : Moment) : Bool :=
  0 < m.year && 0 < m.month && m.month ≤ 12 && 0 < m.day && m.day ≤ daysIn m.year m.month
    && m.time.all timeExists

end Moment

end JavaToGo.Document
