import Mathlib.Logic.Function.Iterate
import JavaToGo.Code.Stmt

/-!
# Indentation

What happens to a piece of the text does not depend on what stands around it, as
long as the piece neither begins nor ends with a line break.
-/

namespace JavaToGo.Text

open List

def joined (ls : List (List Char)) : List Char :=
  ['\n'].intercalate ls

lemma toList_unlines (ls : List String) : (unlines ls).toList = joined (ls.map String.toList) :=
  String.toList_intercalate

@[simp] lemma joined_nil : joined [] = [] := rfl

@[simp] lemma joined_singleton : joined [l] = l := by
  simp [joined]

lemma joined_cons (h : ls ≠ []) : joined (l :: ls) = l ++ '\n' :: joined ls := by
  obtain ⟨k, ks, rfl⟩ := exists_cons_of_ne_nil h
  rfl

lemma joined_cons_cons (c : Char) (l : List Char) (ls : List (List Char)) :
    joined ((c :: l) :: ls) = c :: joined (l :: ls) := by
  cases ls with
  | nil => simp
  | cons k ks =>
    rw [joined_cons (cons_ne_nil k ks), joined_cons (cons_ne_nil k ks), cons_append]

lemma joined_suffix (ks : List (List Char)) : joined ls <:+ joined (ks ++ ls) := by
  induction ks with
  | nil => exact suffix_refl _
  | cons k ks ih =>
    by_cases hempty : ks ++ ls = []
    · rw [(append_eq_nil_iff.1 hempty).2]
      exact nil_suffix
    · rw [cons_append, joined_cons hempty]
      exact (ih.trans (suffix_cons ..)).trans (suffix_append ..)

lemma prefix_joined_append (ks : List (List Char)) : joined ls <+: joined (ls ++ ks) := by
  induction ls with
  | nil => exact nil_prefix
  | cons l ls ih =>
    rw [cons_append]
    by_cases hempty : ls = []
    · subst hempty
      rw [joined_singleton]
      by_cases hks : ks = []
      · subst hks
        simp
      · rw [nil_append, joined_cons hks]
        exact prefix_append ..
    · rw [joined_cons hempty, joined_cons (by simp [hempty]), prefix_append_right_inj,
        cons_prefix_cons]
      exact ⟨rfl, ih⟩

lemma infix_joined (h : ls <:+: ks) : joined ls <:+: joined ks := by
  obtain ⟨before, after, rfl⟩ := h
  rw [append_assoc]
  exact (prefix_joined_append after).isInfix.trans (joined_suffix before).isInfix

/-- A line one step further in; an empty one stays. -/
def tabbed (l : List Char) : List Char :=
  if l.isEmpty then [] else '\t' :: l

/-- Lines one step further in; the first of them only if it is a whole line. -/
def leading (whole : Bool) : List (List Char) → List (List Char)
  | [] => []
  | l :: ls => (if whole then tabbed l else l) :: ls.map tabbed

/-- A text one step further in; its first line only if it is a whole line. -/
def indent (whole : Bool) (cs : List Char) : List Char :=
  joined (leading whole (linesOf cs))

/-- A piece of a text, after the text has moved one step further in. -/
def moved (cs : List Char) : List Char :=
  indent false cs

lemma leading_true (ls : List (List Char)) : leading true ls = ls.map tabbed := by
  cases ls <;> rfl

lemma indent_true (cs : List Char) : indent true cs = joined ((linesOf cs).map tabbed) := by
  rw [indent, leading_true]

lemma linesOf_eq_nil_iff : linesOf cs = [] ↔ cs = [] := by
  constructor
  · fun_cases linesOf cs with
    | case1 => exact fun _ => rfl
    | case2 => exact fun h => nomatch h
    | case3 => exact fun h => nomatch h
    | case4 c cs =>
      cases linesOf cs <;> exact fun h => nomatch h
  · rintro rfl
    exact linesOf_nil

@[simp] lemma indent_nil (whole : Bool) : indent whole [] = [] := by
  rw [indent, linesOf_nil, leading, joined_nil]

lemma indent_cons (h : isLineBreak c = false) (whole : Bool) :
    indent whole (c :: cs) = (if whole then ['\t'] else []) ++ c :: indent false cs := by
  rw [indent, indent, linesOf_cons h]
  cases linesOf cs with
  | nil => cases whole <;> rfl
  | cons l ls =>
    cases whole with
    | false => exact joined_cons_cons ..
    | true => exact (joined_cons_cons ..).trans (congrArg _ (joined_cons_cons ..))

/-- A line break becomes a newline, unless the text ends behind it. -/
lemma indent_of_linesOf (h : linesOf bs = [] :: linesOf cs) (whole : Bool) :
    indent whole bs = if cs.isEmpty then [] else '\n' :: indent true cs := by
  rw [indent, h, leading]
  have hfirst : (if whole then tabbed [] else []) = [] := by cases whole <;> rfl
  rw [hfirst]
  cases cs with
  | nil => simp
  | cons c cs =>
    have hlines : (linesOf (c :: cs)).map tabbed ≠ [] := by
      simp [linesOf_eq_nil_iff]
    rw [joined_cons hlines, ← indent_true]
    rfl

lemma linesOf_cons_of_isLineBreak (h : isLineBreak c = true)
    (hpair : ∀ rest, c = '\r' → cs = '\n' :: rest → False) :
    linesOf (c :: cs) = [] :: linesOf cs := by
  rw [linesOf]
  · simp [h]
  · exact hpair

lemma exists_indent_append (before : List Char) (whole : Bool) :
    ∃ start, ∀ c cs, isLineBreak c = false →
      indent whole (before ++ c :: cs) = start ++ indent false (c :: cs) := by
  fun_induction linesOf before generalizing whole with
  | case1 =>
    refine ⟨if whole then ['\t'] else [], fun c cs hc => ?_⟩
    rw [nil_append, indent_cons hc whole, indent_cons hc false]
    rfl
  | case2 before ih =>
    obtain ⟨start, hstart⟩ := ih true
    refine ⟨'\n' :: start, fun c cs hc => ?_⟩
    have hlines : linesOf ('\r' :: '\n' :: (before ++ c :: cs))
        = [] :: linesOf (before ++ c :: cs) := by rw [linesOf]
    rw [cons_append, cons_append, indent_of_linesOf hlines, hstart c cs hc]
    simp
  | case3 b before hpair hb ih =>
    obtain ⟨start, hstart⟩ := ih true
    refine ⟨'\n' :: start, fun c cs hc => ?_⟩
    have hlines : linesOf (b :: (before ++ c :: cs)) = [] :: linesOf (before ++ c :: cs) := by
      refine linesOf_cons_of_isLineBreak hb fun rest hreturn hnewline => ?_
      cases before with
      | nil =>
        obtain ⟨rfl, -⟩ := List.cons.inj hnewline
        exact absurd hc (by decide)
      | cons d before =>
        obtain ⟨rfl, -⟩ := List.cons.inj hnewline
        exact hpair before hreturn rfl
    rw [cons_append, indent_of_linesOf hlines, hstart c cs hc]
    simp
  | case4 b before _ hb ih =>
    obtain ⟨start, hstart⟩ := ih false
    refine ⟨(if whole then ['\t'] else []) ++ b :: start, fun c cs hc => ?_⟩
    rw [cons_append, indent_cons (by simpa using hb), hstart c cs hc, append_assoc, cons_append]

/-- A text that neither begins nor ends with a line break. -/
structure Firm (cs : List Char) : Prop where
  first : ∀ c ∈ cs.head?, isLineBreak c = false
  last : ∀ c ∈ cs.getLast?, isLineBreak c = false

section

variable (h : Firm w)
include h

lemma Firm.exists_moved_append (after : List Char) :
    ∃ rest, moved (w ++ after) = moved w ++ rest := by
  rcases eq_nil_or_concat w with rfl | ⟨init, d, rfl⟩
  · exact ⟨moved after, by simp [moved]⟩
  · rw [concat_eq_append] at h ⊢
    have hd : isLineBreak d = false := h.last d (by simp)
    obtain ⟨start, hstart⟩ := exists_indent_append init false
    refine ⟨moved after, ?_⟩
    rw [moved, moved, moved, append_assoc, singleton_append, hstart d after hd,
      hstart d [] hd, indent_cons hd, indent_cons hd]
    simp

lemma Firm.infix_indent (hw : w <:+: text) : moved w <:+: indent true text := by
  obtain ⟨before, after, rfl⟩ := hw
  cases w with
  | nil =>
    exact nil_infix
  | cons c cs =>
    have hc : isLineBreak c = false := h.first c rfl
    obtain ⟨start, hstart⟩ := exists_indent_append before true
    obtain ⟨rest, hrest⟩ := h.exists_moved_append after
    refine ⟨start, rest, ?_⟩
    rw [append_assoc before, cons_append, hstart c (cs ++ after) hc, append_assoc, ← hrest]
    rfl

lemma Firm.head?_moved : (moved w).head? = w.head? := by
  cases w with
  | nil => rw [moved, indent_nil]
  | cons c cs =>
    rw [moved, indent_cons (h.first c rfl)]
    rfl

lemma Firm.getLast?_moved : (moved w).getLast? = w.getLast? := by
  rcases eq_nil_or_concat w with rfl | ⟨init, d, rfl⟩
  · rw [moved, indent_nil]
  · rw [concat_eq_append] at h ⊢
    have hd : isLineBreak d = false := h.last d (by simp)
    obtain ⟨start, hstart⟩ := exists_indent_append init false
    rw [moved, hstart d [] hd, indent_cons hd]
    simp

lemma Firm.moved : Firm (moved w) := by
  constructor
  · rw [h.head?_moved]
    exact h.first
  · rw [h.getLast?_moved]
    exact h.last

lemma Firm.iterate (n : Nat) :
    Firm (Text.moved^[n] w) ∧ (Text.moved^[n] w).getLast? = w.getLast? := by
  induction n with
  | zero => exact ⟨h, rfl⟩
  | succ _ ih =>
    rw [Function.iterate_succ_apply']
    exact ⟨ih.1.moved, ih.1.getLast?_moved.trans ih.2⟩

end

lemma linesOf_of_noBreak (hw : w ≠ []) (h : ∀ c ∈ w, isLineBreak c = false) : linesOf w = [w] := by
  induction w with
  | nil => exact absurd rfl hw
  | cons c cs ih =>
    rw [linesOf_cons (h c (by simp))]
    by_cases hcs : cs = []
    · subst hcs
      simp [consLine]
    · rw [ih hcs fun d hd => h d (by simp [hd]), consLine]

/-- Joining lines and cutting them again loses an empty last line, and nothing else. -/
lemma linesOf_joined (h : ∀ l ∈ ls, ∀ c ∈ l, isLineBreak c = false) :
    linesOf (joined ls) = if ls.getLast? = some [] then ls.dropLast else ls := by
  induction ls with
  | nil => rfl
  | cons l ls ih =>
    have hl : ∀ c ∈ l, isLineBreak c = false := h l (by simp)
    by_cases hls : ls = []
    · subst hls
      by_cases hempty : l = []
      · simp [hempty]
      · simp [hempty, linesOf_of_noBreak hempty hl]
    · rw [joined_cons hls, linesOf_append_newline l hl, ih fun k hk => h k (by simp [hk]),
        getLast?_cons_of_ne_nil hls, dropLast_cons_of_ne_nil hls]
      split <;> rfl

lemma prefix_linesOf_joined (h : ∀ l ∈ ls, ∀ c ∈ l, isLineBreak c = false) :
    linesOf (joined ls) <+: ls := by
  rw [linesOf_joined h]
  split
  · exact dropLast_prefix ls
  · exact prefix_rfl

lemma Firm.infix_map_tabbed (hls : ∀ l ∈ ls, ∀ c ∈ l, isLineBreak c = false) (h : Firm w)
    (hw : w <:+: joined ls) : Text.moved w <:+: joined (ls.map tabbed) := by
  have hindent := h.infix_indent hw
  rw [indent_true] at hindent
  exact hindent.trans (infix_joined ((prefix_linesOf_joined hls).map tabbed).isInfix)

lemma moved_of_noBreak (h : ∀ c ∈ w, isLineBreak c = false) : moved w = w := by
  induction w with
  | nil => exact indent_nil false
  | cons c cs ih =>
    have hcs : moved cs = cs := ih fun d hd => h d (by simp [hd])
    rw [moved, indent_cons (h c (by simp))]
    exact congrArg (c :: ·) hcs

lemma count_tab_le (w : List Char) (whole : Bool) : w.count '\t' ≤ (indent whole w).count '\t' := by
  fun_induction linesOf w generalizing whole with
  | case1 => simp
  | case2 cs ih =>
    have hlines : linesOf ('\r' :: '\n' :: cs) = [] :: linesOf cs := by rw [linesOf]
    rw [indent_of_linesOf hlines]
    cases cs with
    | nil => decide
    | cons c cs => simpa using ih true
  | case3 b cs hpair hb ih =>
    have hne : b ≠ '\t' := by
      rintro rfl
      exact absurd hb (by decide)
    rw [indent_of_linesOf (linesOf_cons_of_isLineBreak hb hpair), count_cons_of_ne hne]
    cases cs with
    | nil => simp
    | cons c cs => simpa using ih true
  | case4 b cs _ hb ih =>
    rw [indent_cons (by simpa using hb), count_append, count_cons, count_cons]
    have hrest := ih false
    omega

lemma count_tab_lt (w : List Char) (whole : Bool) (hw : w ≠ [])
    (hlast : ∀ c ∈ w.getLast?, isLineBreak c = false)
    (h : whole = true ∨ ∃ c ∈ w, isLineBreak c = true) :
    w.count '\t' < (indent whole w).count '\t' := by
  fun_induction linesOf w generalizing whole with
  | case1 => exact absurd rfl hw
  | case2 cs ih =>
    have hlines : linesOf ('\r' :: '\n' :: cs) = [] :: linesOf cs := by rw [linesOf]
    rw [indent_of_linesOf hlines]
    cases cs with
    | nil => exact absurd (hlast '\n' rfl) (by decide)
    | cons c cs =>
      have hrest := ih true (cons_ne_nil c cs) hlast (.inl rfl)
      simpa using hrest
  | case3 b cs hpair hb ih =>
    have hne : b ≠ '\t' := by
      rintro rfl
      exact absurd hb (by decide)
    rw [indent_of_linesOf (linesOf_cons_of_isLineBreak hb hpair), count_cons_of_ne hne]
    cases cs with
    | nil => exact absurd (hlast b rfl) (by simp [hb])
    | cons c cs =>
      have hrest := ih true (cons_ne_nil c cs) hlast (.inl rfl)
      simpa using hrest
  | case4 b cs _ hb ih =>
    rw [indent_cons (by simpa using hb), count_append, count_cons, count_cons]
    cases whole with
    | true =>
      have hrest := count_tab_le cs false
      simp
      omega
    | false =>
      obtain ⟨d, hd, hbreak⟩ := h.resolve_left (by decide)
      have hcs : d ∈ cs := by
        rcases mem_cons.1 hd with rfl | hcs
        · exact absurd hbreak hb
        · exact hcs
      have hne : cs ≠ [] := ne_nil_of_mem hcs
      have hend : ∀ c ∈ cs.getLast?, isLineBreak c = false := by
        rwa [getLast?_cons_of_ne_nil hne] at hlast
      have hrest := ih false hne hend (.inr ⟨d, hcs, hbreak⟩)
      omega

lemma count_tab_iterate_le (w : List Char) (n : Nat) : w.count '\t' ≤ (moved^[n] w).count '\t' := by
  induction n with
  | zero => exact Nat.le_refl _
  | succ _ ih =>
    rw [Function.iterate_succ_apply']
    exact Nat.le_trans ih (count_tab_le _ false)

lemma Firm.moved_iterate_eq_iff (h : Firm w) (hn : 0 < n) :
    Text.moved^[n] w = w ↔ ∀ c ∈ w, isLineBreak c = false := by
  constructor
  · intro heq c hc
    by_contra hbreak
    obtain ⟨n, rfl⟩ := Nat.exists_eq_succ_of_ne_zero (Nat.ne_of_gt hn)
    have hfirst : w.count '\t' < (Text.moved w).count '\t' :=
      count_tab_lt w false (ne_nil_of_mem hc) h.last (.inr ⟨c, hc, by simpa using hbreak⟩)
    have hrest := count_tab_iterate_le (Text.moved w) n
    rw [← Function.iterate_succ_apply, heq] at hrest
    omega
  · intro hflat
    exact Function.iterate_fixed (moved_of_noBreak hflat) n

variable {w : List Char}

lemma infix_trimRight (hlast : ∀ c ∈ w.getLast?, isBlank c = false) (hw : w <:+: text) :
    w <:+: trimRight text := by
  obtain ⟨before, after, rfl⟩ := hw
  rcases eq_nil_or_concat w with rfl | ⟨init, d, rfl⟩
  · exact nil_infix
  · rw [concat_eq_append] at hlast ⊢
    have hd : isBlank d = false := hlast d (by simp)
    -- the blanks are cut from what follows the piece, if at all
    have hkept : ∃ rest, (before ++ (init ++ [d]) ++ after).reverse.dropWhile isBlank
        = rest ++ (before ++ (init ++ [d])).reverse := by
      rw [reverse_append, dropWhile_append]
      split
      · exact ⟨[], by simp [hd]⟩
      · exact ⟨_, rfl⟩
    obtain ⟨rest, hrest⟩ := hkept
    refine ⟨before, rest.reverse, ?_⟩
    rw [trimRight, hrest]
    simp

end JavaToGo.Text
