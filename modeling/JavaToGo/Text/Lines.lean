/-!
# Lines

A text is cut into lines at every line break that Unicode knows, not only at the newline. The break
belongs to no line, a final break opens no further line, and the empty text has no lines.
-/

namespace JavaToGo.Text

/-- The characters that end a line. -/
def isLineBreak (c : Char) : Bool :=
  let n := c.toNat
  (0x0a ≤ n && n ≤ 0x0d) || (0x1c ≤ n && n ≤ 0x1e) || n == 0x85 || n == 0x2028 || n == 0x2029

def consLine (c : Char) : List (List Char) → List (List Char)
  | [] => [[c]]
  | l :: ls => (c :: l) :: ls

/-- The lines of a text, without their breaks. -/
def linesOf : List Char → List (List Char)
  | [] => []
  | '\r' :: '\n' :: cs => [] :: linesOf cs
  | c :: cs => if isLineBreak c then [] :: linesOf cs else consLine c (linesOf cs)

def lines (s : String) : List String :=
  (linesOf s.toList).map String.ofList

def firstLine (s : String) : String :=
  (lines s).headD ""

/-- Joins lines with newlines, without one at the end. -/
def unlines (ls : List String) : String :=
  "\n".intercalate ls

@[simp] theorem linesOf_nil : linesOf [] = [] := by
  simp [linesOf]

theorem linesOf_cons {c : Char} (h : isLineBreak c = false) (cs : List Char) :
    linesOf (c :: cs) = consLine c (linesOf cs) := by
  rw [linesOf]
  · simp [h]
  · rintro rest rfl rfl
    simp [isLineBreak] at h

theorem mem_linesOf_noBreak (cs : List Char) :
    ∀ l ∈ linesOf cs, ∀ c ∈ l, isLineBreak c = false := by
  fun_induction linesOf cs with
  | case1 => simp
  | case2 cs ih => simpa using ih
  | case3 c cs _ h ih => simpa using ih
  | case4 c cs _ h ih =>
    intro l hl
    cases hrest : linesOf cs with
    | nil =>
      simp only [hrest, consLine, List.mem_singleton] at hl
      subst hl
      simpa using h
    | cons m ms =>
      rw [hrest] at ih
      simp only [hrest, consLine, List.mem_cons] at hl
      rcases hl with rfl | hl
      · intro d hd
        rcases List.mem_cons.1 hd with rfl | hd
        · simpa using h
        · exact ih m (by simp) d hd
      · exact ih l (by simp [hl])

theorem linesOf_append_newline (l : List Char) (hl : ∀ c ∈ l, isLineBreak c = false)
    (cs : List Char) :
    linesOf (l ++ '\n' :: cs) = l :: linesOf cs := by
  induction l with
  | nil => simp [linesOf, isLineBreak]
  | cons c l ih =>
    rw [List.cons_append, linesOf_cons (hl c (by simp)), ih fun d hd => hl d (by simp [hd])]
    rfl

end JavaToGo.Text
