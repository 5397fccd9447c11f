import Mathlib.Data.List.Forall2
import JavaToGo.Code.Decl
import JavaToGo.Proofs.Code.Indentation

/-!
# What stands in for a member that could not be converted

The block that tells of a failed member is to be nothing but comments.  Error,
Java text and tree are cut at every line break first; the location is not, so
only its first row gets a comment mark.
-/

namespace JavaToGo.Code

open List Text

/-- A text, cut at its newlines. -/
def rows (s : String) : List String :=
  (s.toList.splitOn '\n').map String.ofList

/-- A row of a comment, all in one line. -/
structure Commented (row : String) : Prop where
  marked : Text.startsWith row "//" = true
  single : '\n' ∉ row.toList

/-- A row of a comment that shows a line. -/
def Shows (line row : String) : Prop :=
  row = "// Error: " ++ line ∨ row = "// " ++ line ∨ line = "" ∧ row = "//"

lemma rows_of_not_mem {s : String} (h : '\n' ∉ s.toList) : rows s = [s] := by
  have hsplit : List.splitOn '\n' (List.intercalate ['\n'] [s.toList]) = [s.toList] :=
    List.splitOn_intercalate '\n' (by simpa using h) (by simp)
  simp only [List.intercalate_singleton] at hsplit
  simp [rows, hsplit]

lemma rows_unlines (h : ls ≠ []) : rows (unlines ls) = ls.flatMap rows := by
  induction ls with
  | nil => exact absurd rfl h
  | cons l ls ih =>
    by_cases hls : ls = []
    · subst hls
      simp [rows, toList_unlines]
    · rw [flatMap_cons, ← ih hls, rows, toList_unlines, map_cons,
        joined_cons (by simpa using hls), List.splitOn_append_cons_self, map_append,
        ← toList_unlines]
      rfl

/-- What stands in front of a text belongs to its first row. -/
lemma exists_rows_append {a : String} (h : '\n' ∉ a.toList) (s : String) :
    ∃ first, rows (a ++ s) = (a ++ first) :: (rows s).tail := by
  obtain ⟨first, rest, hs⟩ : ∃ first rest, s.toList.splitOn '\n' = first :: rest :=
    exists_cons_of_ne_nil (List.splitOn_ne_nil _ _)
  have hsplit : ∀ cs : List Char, '\n' ∉ cs →
      (cs ++ s.toList).splitOn '\n' = (cs ++ first) :: rest := by
    intro cs hcs
    induction cs with
    | nil => exact hs
    | cons c cs ih =>
      simp only [mem_cons, not_or] at hcs
      rw [cons_append, List.splitOn_cons_eq_if_modifyHead, ih hcs.2,
        if_neg (by simpa using Ne.symm hcs.1)]
      rfl
  rw [rows, String.toList_append, hsplit _ h, rows, hs]
  simp

lemma noBreak_of_mem_lines (h : line ∈ lines text) : ∀ c ∈ line.toList, isLineBreak c = false := by
  obtain ⟨l, hl, rfl⟩ := mem_map.1 h
  simpa using mem_linesOf_noBreak text.toList l hl

lemma newline_not_mem_of_mem_lines (h : line ∈ lines text) : '\n' ∉ line.toList :=
  fun hmem => absurd (noBreak_of_mem_lines h _ hmem) (by decide)

lemma commented_of_mem_commentLines (h : row ∈ commentLines text) : Commented row := by
  unfold commentLines at h
  split at h
  · rw [mem_singleton.1 h]
    exact ⟨by decide, by decide⟩
  · next hlines =>
      obtain ⟨line, hline, rfl⟩ := mem_map.1 h
      split
      · exact ⟨by decide, by decide⟩
      · exact ⟨by simp [startsWith], by simpa using newline_not_mem_of_mem_lines hline⟩

lemma commented_of_mem_errorLines (h : row ∈ errorLines error) : Commented row := by
  have hfirst : ∀ line ∈ lines error, Commented ("// Error: " ++ line) := fun line hline =>
    ⟨by simp [startsWith], by simpa using newline_not_mem_of_mem_lines hline⟩
  unfold errorLines at h
  split at h
  · rw [mem_singleton.1 h]
    exact ⟨by decide, by decide⟩
  · next line hlines =>
      rw [mem_singleton.1 h]
      exact hfirst line (by simp [hlines])
  · next line more _ hlines =>
      rcases mem_cons.1 h with rfl | hmore
      · exact hfirst line (by simp [hlines])
      · exact commented_of_mem_commentLines hmore

lemma shows_commentLines (text : String) :
    List.SublistForall₂ Shows (lines text) (commentLines text) := by
  unfold commentLines
  split
  · next hlines =>
      rw [hlines]
      exact .nil
  · rw [List.sublistForall₂_iff]
    refine ⟨_, List.forall₂_map_right_iff.2 (List.forall₂_same.2 fun line _ => ?_), .refl _⟩
    split
    · next hempty => exact .inr (.inr ⟨String.isEmpty_iff.1 hempty, rfl⟩)
    · exact .inr (.inl rfl)

lemma lines_unlines (h : ∀ l ∈ ls, ∀ c ∈ l.toList, isLineBreak c = false) :
    lines (unlines ls) = if ls.getLast? = some "" then ls.dropLast else ls := by
  have hlast : (ls.map String.toList).getLast? = some [] ↔ ls.getLast? = some "" := by
    rw [getLast?_map]
    cases ls.getLast? <;> simp
  have hjoined := @linesOf_joined (ls.map String.toList) (by simpa using h)
  simp only [hlast] at hjoined
  rw [lines, toList_unlines, hjoined]
  split <;> simp [Function.comp_def]

lemma length_commentLines (h : lines text ≠ []) :
    (commentLines text).length = (lines text).length := by
  unfold commentLines
  split
  · contradiction
  · simp

/-- A blank last line of the error is lost, unless there are no more than two lines. -/
lemma shows_errorLines_iff (error : String) :
    List.SublistForall₂ Shows (lines error) (errorLines error)
      ↔ ¬ ((lines error).getLast? = some "" ∧ 2 < (lines error).length) := by
  unfold errorLines
  split
  · next hlines => simp [hlines, List.SublistForall₂.nil]
  · next line hlines =>
      simp only [hlines]
      exact iff_of_true (.cons (.inl rfl) .nil) (by simp)
  · next line more hmore hlines =>
      have hne : more ≠ [] := by
        rintro rfl
        exact hmore rfl
      have hcut := @lines_unlines more fun l hl =>
        @noBreak_of_mem_lines error l (by simp [hlines, hl])
      rw [hlines, getLast?_cons_of_ne_nil hne, length_cons]
      by_cases hlast : more.getLast? = some ""
      · rw [if_pos hlast] at hcut
        by_cases hone : more.length = 1
        · obtain ⟨last, rfl⟩ := length_eq_one_iff.1 hone
          obtain rfl : last = "" := by simpa using hlast
          refine iff_of_true (.cons (.inl rfl) ?_) (by simp)
          exact .cons (.inr (.inr ⟨rfl, by decide⟩)) .nil
        · have hlong : 1 < more.length := by
            have hpos := List.length_pos_of_ne_nil hne
            omega
          refine iff_of_false (fun h => ?_) (not_not_intro ⟨hlast, by omega⟩)
          obtain ⟨shown, hshown, hsub⟩ := List.sublistForall₂_iff.1 h
          have hkept : lines (unlines more) ≠ [] := by
            rw [hcut, ← length_pos_iff, List.length_dropLast]
            omega
          have hle := hshown.length_eq ▸ hsub.length_le
          rw [length_cons, length_cons, length_commentLines hkept, hcut,
            List.length_dropLast] at hle
          omega
      · rw [if_neg hlast] at hcut
        have hshows := shows_commentLines (unlines more)
        rw [hcut] at hshows
        exact iff_of_true (.cons (.inl rfl) hshows) fun h => hlast h.1

lemma rows_failedMember (f : FailedMember) :
    rows f.text = "// FIXME: Failed to migrate" :: rows ("// Location: " ++ f.location)
      ++ errorLines f.error ++ "// Java source:" :: commentLines f.source
      ++ "// S-expression:" :: commentLines f.sexpr := by
  have hflat : ∀ ls : List String, (∀ row ∈ ls, Commented row) → ls.flatMap rows = ls := by
    intro ls h
    induction ls with
    | nil => rfl
    | cons row ls ih =>
      rw [flatMap_cons, rows_of_not_mem (h row (by simp)).single,
        ih fun row hrow => h row (by simp [hrow])]
      rfl
  rw [FailedMember.text, rows_unlines (by simp)]
  simp only [flatMap_append, flatMap_cons,
    hflat _ fun _ => commented_of_mem_errorLines, hflat _ fun _ => commented_of_mem_commentLines]
  rw [rows_of_not_mem (s := "// FIXME: Failed to migrate") (by decide),
    rows_of_not_mem (s := "// Java source:") (by decide),
    rows_of_not_mem (s := "// S-expression:") (by decide)]
  simp

/-- Every row of the block is a comment exactly when this holds of the rows of the location behind
the first.  The rows of the error and of the Java text stand in order, but for a blank last row of
an error with more than two. -/
theorem failedMember_commented_iff (f : FailedMember) :
    ((∀ row ∈ rows f.text, Text.startsWith row "//" = true)
      ↔ ∀ row ∈ (rows f.location).tail, Text.startsWith row "//" = true)
    ∧ rows f.text = "// FIXME: Failed to migrate" :: rows ("// Location: " ++ f.location)
      ++ errorLines f.error ++ "// Java source:" :: commentLines f.source
      ++ "// S-expression:" :: commentLines f.sexpr
    ∧ List.SublistForall₂ Shows (lines f.source) (commentLines f.source)
    ∧ (List.SublistForall₂ Shows (lines f.error) (errorLines f.error)
      ↔ ¬ ((lines f.error).getLast? = some "" ∧ 2 < (lines f.error).length)) := by
  refine ⟨?_, rows_failedMember f, shows_commentLines f.source, shows_errorLines_iff f.error⟩
  obtain ⟨first, hlocation⟩ := exists_rows_append (a := "// Location: ") (by decide) f.location
  have hfirst : Text.startsWith ("// Location: " ++ first) "//" = true := by
    simp [Text.startsWith]
  have herror : ∀ row ∈ errorLines f.error, Text.startsWith row "//" = true :=
    fun row h => (commented_of_mem_errorLines h).marked
  have hcomment : ∀ text, ∀ row ∈ commentLines text, Text.startsWith row "//" = true :=
    fun text row h => (commented_of_mem_commentLines h).marked
  have hheads : Text.startsWith "// FIXME: Failed to migrate" "//" = true
      ∧ Text.startsWith "// Java source:" "//" = true
      ∧ Text.startsWith "// S-expression:" "//" = true := by decide
  simp only [rows_failedMember, hlocation, forall_mem_append, forall_mem_cons]
  constructor
  · rintro ⟨⟨⟨⟨-, -, htail⟩, -⟩, -⟩, -⟩
    exact htail
  · intro htail
    exact ⟨⟨⟨⟨hheads.1, hfirst, htail⟩, herror⟩, hheads.2.1, hcomment _⟩, hheads.2.2, hcomment _⟩

theorem failedMember_not_commented :
    let f : FailedMember := ⟨"class A\nB", "refused\nhere\n\n", "int b;", "(field)"⟩
    rows f.text = ["// FIXME: Failed to migrate", "// Location: class A", "B", "// Error: refused",
        "// here", "// Java source:", "// int b;", "// S-expression:", "// (field)"]
      ∧ lines f.error = ["refused", "here", ""] := by
  decide +kernel

end JavaToGo.Code
