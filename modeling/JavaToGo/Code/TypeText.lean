import JavaToGo.Code.Identifier
import JavaToGo.Text.Basic

/-!
# Go type texts

Go types are texts, well-formed or not: they come out of the type mapping and out
of the settings of the user alike.
-/

namespace JavaToGo.Code

def anyType : String := "interface\x7b\x7d"

def isSliceType (type : Option String) : Bool :=
  match type with
  | some t => Text.startsWith t "[]"
  | none => false

def isMapType (type : Option String) : Bool :=
  match type with
  | some t => Text.startsWith t "map["
  | none => false

def isVariadicType (type : String) : Bool :=
  Text.startsWith type "..."

def sliceElement (type : String) : String :=
  Text.dropChars 2 type

def sliceOf (depth : Nat) (type : String) : String :=
  Text.repeated depth "[]" ++ type

/-- A generic type with its arguments. -/
def instantiated (name : String) (args : List String) : String :=
  if args.isEmpty then name else name ++ "[" ++ ", ".intercalate args ++ "]"

variable {cs p : List Char}

section Arguments

def nesting (c : Char) : Int :=
  if c ∈ ['[', '(', '\x7b'] then 1 else if c ∈ [']', ')', '\x7d'] then -1 else 0

def consPiece (c : Char) : List (List Char) → List (List Char)
  | [] => [[c]]
  | p :: ps => (c :: p) :: ps

/-- Cuts a text at the commas outside of brackets. -/
def pieces : Int → List Char → List (List Char)
  | _, [] => [[]]
  | depth, c :: cs =>
    if c = ',' ∧ depth = 0 then [] :: pieces depth cs
    else consPiece c (pieces (depth + nesting c) cs)

def dropEmptyLast : List (List Char) → List (List Char)
  | [] => []
  | [p] => if p.isEmpty then [] else [p]
  | p :: q :: ps => p :: dropEmptyLast (q :: ps)

/-- The type arguments in a text, without the blanks around them. -/
def typeArguments (cs : List Char) : List (List Char) :=
  dropEmptyLast ((pieces 0 cs).map Text.trim)

theorem length_mem_consPiece {c : Char} {ps : List (List Char)} {n : Nat}
    (h : ∀ p ∈ ps, p.length ≤ n) :
    ∀ p ∈ consPiece c ps, p.length ≤ n + 1 := by
  cases ps with
  | nil => simp [consPiece]
  | cons q qs =>
    intro p hp
    simp only [consPiece, List.mem_cons] at hp
    rcases hp with rfl | hp
    · simpa using h q (by simp)
    · exact Nat.le_succ_of_le (h p (by simp [hp]))

theorem length_mem_pieces (cs : List Char) :
    ∀ (depth : Int), ∀ p ∈ pieces depth cs, p.length ≤ cs.length := by
  induction cs with
  | nil => simp [pieces]
  | cons c cs ih =>
    intro depth p hp
    rw [pieces] at hp
    split at hp
    · rcases List.mem_cons.1 hp with rfl | hp
      · simp
      · exact Nat.le_succ_of_le (ih depth p hp)
    · exact length_mem_consPiece (ih _) p hp

theorem mem_of_mem_dropEmptyLast :
    ∀ {ps : List (List Char)} {p : List Char}, p ∈ dropEmptyLast ps → p ∈ ps
  | [], _, h => by simp [dropEmptyLast] at h
  | [q], p, h => by
    unfold dropEmptyLast at h
    split at h
    · simp at h
    · exact h
  | q :: r :: ps, p, h => by
    rw [dropEmptyLast] at h
    rcases List.mem_cons.1 h with rfl | h
    · simp
    · exact List.mem_cons_of_mem _ (mem_of_mem_dropEmptyLast h)

theorem length_dropWhile_le {α : Type} (p : α → Bool) (l : List α) :
    (l.dropWhile p).length ≤ l.length :=
  (List.dropWhile_suffix p).length_le

theorem length_trim_le (cs : List Char) : (Text.trim cs).length ≤ cs.length := by
  unfold Text.trim Text.trimRight Text.trimLeft
  rw [List.length_reverse]
  refine Nat.le_trans (length_dropWhile_le _ _) ?_
  rw [List.length_reverse]
  exact length_dropWhile_le _ _

theorem length_mem_typeArguments (h : p ∈ typeArguments cs) : p.length ≤ cs.length := by
  obtain ⟨q, hq, rfl⟩ := List.mem_map.1 (mem_of_mem_dropEmptyLast h)
  exact Nat.le_trans (length_trim_le q) (length_mem_pieces cs 0 q hq)

end Arguments

section Fragments

/-- Drops the marks of pointers and variadic parameters. -/
def stripMarks : List Char → List Char
  | '*' :: cs => stripMarks cs
  | '.' :: '.' :: '.' :: cs => stripMarks cs
  | cs => cs

/-- Cuts a text at the bracket that closes one opened before it; `depth` counts those since. -/
def cutAtClose : Nat → List Char → Option (List Char × List Char)
  | _, [] => none
  | depth, c :: cs =>
    if c = '[' then (cutAtClose (depth + 1) cs).map fun p => (c :: p.1, p.2)
    else if c = ']' then
      match depth with
      | 0 => some ([], cs)
      | d + 1 => (cutAtClose d cs).map fun p => (c :: p.1, p.2)
    else (cutAtClose depth cs).map fun p => (c :: p.1, p.2)

/-- The letters, digits and the underscore of ASCII. -/
def isWordChar (c : Char) : Bool :=
  c.isAlphanum || c == '_'

def afterLastDot (cs : List Char) : List Char :=
  (cs.reverse.takeWhile (· != '.')).reverse

theorem length_stripMarks_le (cs : List Char) : (stripMarks cs).length ≤ cs.length := by
  fun_induction stripMarks cs with
  | case1 cs ih => exact Nat.le_succ_of_le ih
  | case2 cs ih => simp; omega
  | case3 cs => exact Nat.le_refl _

theorem length_cutAtClose {depth : Nat} {key rest : List Char}
    (h : cutAtClose depth cs = some (key, rest)) : key.length + rest.length < cs.length := by
  fun_induction cutAtClose depth cs generalizing key rest with
  | case1 => simp at h
  | case2 depth cs ih =>
    obtain ⟨⟨k, r⟩, hk, he⟩ := Option.map_eq_some_iff.1 h
    obtain ⟨rfl, rfl⟩ := Prod.mk.inj he
    have := ih hk
    simp; omega
  | case3 cs =>
    obtain ⟨rfl, rfl⟩ := Prod.mk.inj (Option.some.inj h)
    simp
  | case4 cs d _ ih =>
    obtain ⟨⟨k, r⟩, hk, he⟩ := Option.map_eq_some_iff.1 h
    obtain ⟨rfl, rfl⟩ := Prod.mk.inj he
    have := ih hk
    simp; omega
  | case5 depth c cs _ _ ih =>
    obtain ⟨⟨k, r⟩, hk, he⟩ := Option.map_eq_some_iff.1 h
    obtain ⟨rfl, rfl⟩ := Prod.mk.inj he
    have := ih hk
    simp; omega

theorem length_stripMarks_trim_le (cs : List Char) :
    (stripMarks (Text.trim cs)).length ≤ cs.length :=
  Nat.le_trans (length_stripMarks_le _) (length_trim_le cs)

theorem length_takeWhile_lt {d : Char} (h : d ∈ cs) :
    (cs.takeWhile (· != d)).length < cs.length := by
  induction cs with
  | nil => simp at h
  | cons c cs ih =>
    by_cases hc : c = d
    · simp [hc]
    · have hmem : d ∈ cs := by simpa [Ne.symm hc] using h
      simpa [List.takeWhile_cons, hc] using ih hmem

/-- How the text of a type is built. -/
inductive TypeShape where
  | slice (element : List Char)
  | map (key value : List Char)
  | any
  | generic (base : List Char) (args : List (List Char))
  | plain (name : List Char)
deriving DecidableEq, Repr

/-- The form of a text without marks, maps aside. -/
def plainShape (cs : List Char) : TypeShape :=
  if cs = anyType.toList ∨ cs = "any".toList then .any
  else if '[' ∈ cs ∧ cs.getLast? = some ']' then
    .generic (cs.takeWhile (· != '['))
      (typeArguments ((cs.dropWhile (· != '[')).drop 1).dropLast)
  else .plain cs

/-- The form of a text without marks. -/
def typeShape : List Char → TypeShape
  | '[' :: ']' :: cs => .slice cs
  | 'm' :: 'a' :: 'p' :: '[' :: cs =>
    match cutAtClose 0 cs with
    | some (key, value) => .map key value
    | none => plainShape ('m' :: 'a' :: 'p' :: '[' :: cs)
  | cs => plainShape cs

def TypeShape.parts : TypeShape → List (List Char)
  | .slice element => [element]
  | .map key value => [key, value]
  | .any => []
  | .generic base args => base :: args
  | .plain _ => []

theorem length_mem_parts_plainShape (h : p ∈ (plainShape cs).parts) : p.length < cs.length := by
  unfold plainShape at h
  split at h
  · simp [TypeShape.parts] at h
  split at h
  · rename_i hgen
    obtain ⟨hopen, _⟩ := hgen
    have hbase := length_takeWhile_lt hopen
    have hargs := length_dropWhile_le (· != '[') cs
    have hpos : 0 < cs.length := List.length_pos_of_mem hopen
    rcases List.mem_cons.1 h with rfl | h
    · omega
    · have := length_mem_typeArguments h
      simp only [List.length_dropLast, List.length_drop] at this
      omega
  · simp [TypeShape.parts] at h

theorem length_mem_parts (h : p ∈ (typeShape cs).parts) : p.length < cs.length := by
  unfold typeShape at h
  split at h
  · simp only [TypeShape.parts, List.mem_singleton] at h
    subst h
    simp only [List.length_cons]
    omega
  · split at h
    · rename_i rest key value hcut
      have := length_cutAtClose hcut
      simp only [TypeShape.parts, List.mem_cons, List.not_mem_nil, or_false] at h
      rcases h with rfl | rfl <;> (simp; omega)
    · exact length_mem_parts_plainShape h
  · exact length_mem_parts_plainShape h

def TypeShape.assemble (shape : TypeShape) (fragments : List (List Char)) : List Char :=
  match shape with
  | .slice _ => fragments.flatten ++ "Slice".toList
  | .map _ _ => "Map".toList ++ fragments.flatten
  | .any => "Any".toList
  | .generic _ _ => fragments.flatten
  | .plain name => exportedChars ((afterLastDot name).filter isWordChar)

/-- What a type gives to a name: of slices, maps and generic types their parts, of a plain name what
follows the last dot. -/
def fragmentChars (cs : List Char) : List Char :=
  let shape := typeShape (stripMarks (Text.trim cs))
  shape.assemble (shape.parts.attach.map fun p => fragmentChars p.1)
termination_by cs.length
decreasing_by
  exact Nat.lt_of_lt_of_le (length_mem_parts p.2) (length_stripMarks_trim_le cs)

def fragment (type : String) : String :=
  String.ofList (fragmentChars type.toList)

def splitArguments (args : String) : List String :=
  (typeArguments args.toList).map String.ofList

/-- The name of an overload after its argument types. -/
def overloadedName (base : String) (argumentTypes : List String) : String :=
  if argumentTypes.isEmpty then base ++ "WithoutArgs"
  else base ++ "With" ++ String.join (argumentTypes.map fragment)

end Fragments

end JavaToGo.Code
