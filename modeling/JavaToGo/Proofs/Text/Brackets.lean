import JavaToGo.Text.Basic
import JavaToGo.Text.Lines
import Mathlib.Tactic.Lemma

/-!
# Balanced texts

Reading composes over concatenation also where the pieces are not balanced, which
is how generated text is put together.
-/

namespace JavaToGo

open List
namespace Text

def closer? : Char → Option Char
  | '(' => some ')'
  | '[' => some ']'
  | '{' => some '}'
  | _ => none

def isBracket (c : Char) : Bool :=
  (closer? c).isSome || c == ')' || c == ']' || c == '}'

/-- The round, square and curly brackets of a text. -/
def brackets (s : String) : List Char :=
  s.toList.filter isBracket

/-- Properly nested words of brackets. -/
inductive Nested : List Char → Prop
  | nil : Nested []
  | pair {opener closer : Char} {u v : List Char} (hpair : closer? opener = some closer)
      (hu : Nested u) (hv : Nested v) : Nested (opener :: u ++ closer :: v)

/-- Reads one bracket: an opening one adds its closer, a closing one must be the innermost. -/
def remainingStep (due : List Char) (c : Char) : Option (List Char) :=
  match closer? c with
  | some d => some (d :: due)
  | none => if due.head? = some c then some due.tail else none

/-- The closers that are outstanding after a word, unless it closes what is not open. -/
def remaining (due word : List Char) : Option (List Char) :=
  word.foldlM remainingStep due

section

variable {due word u v : List Char} {d : Char}

lemma remaining_append :
    remaining due (u ++ v) = (remaining due u).bind fun rest => remaining rest v :=
  foldlM_append ..

lemma remaining_cons :
    remaining due (c :: word) = (remainingStep due c).bind fun rest => remaining rest word :=
  foldlM_cons ..

lemma remainingStep_of_closer (h : closer? c = some d) : remainingStep due c = some (d :: due) := by
  simp [remainingStep, h]

lemma closer?_of_closer (h : closer? c = some d) : closer? d = none := by
  unfold closer? at h
  split at h <;> cases h <;> rfl

lemma remainingStep_closer (h : closer? c = some d) : remainingStep (d :: due) d = some due := by
  simp [remainingStep, closer?_of_closer h]

lemma Nested.remaining_eq (h : Nested word) : remaining due word = some due := by
  induction h generalizing due with
  | nil => rfl
  | @pair opener closer u v hpair _ _ ihu ihv =>
    calc remaining due (opener :: u ++ closer :: v)
        = remaining (closer :: due) (u ++ closer :: v) := by
          simp [remaining_cons, remainingStep_of_closer hpair]
      _ = remaining (closer :: due) (closer :: v) := by
          simp [remaining_append, ihu]
      _ = remaining due v := by
          simp [remaining_cons, remainingStep_closer hpair]
      _ = some due := ihv

/-- The word closes what is due, with nested words between. -/
def Finishes : List Char → List Char → Prop
  | [], word => Nested word
  | d :: due, word => ∃ u v, word = u ++ d :: v ∧ Nested u ∧ Finishes due v

lemma Finishes.open_cons (hpair : closer? c = some d) (h : Finishes (d :: due) word) :
    Finishes due (c :: word) := by
  obtain ⟨u, v, rfl, hu, hv⟩ := h
  cases due with
  | nil => exact Nested.pair hpair hu hv
  | cons e due =>
    obtain ⟨u', v', rfl, hu', hv'⟩ := hv
    exact ⟨c :: u ++ d :: u', v', by simp, .pair hpair hu hu', hv'⟩

lemma finishes_of_remaining (h : remaining due word = some []) : Finishes due word := by
  induction word generalizing due with
  | nil =>
    cases h
    exact .nil
  | cons c word ih =>
    rw [remaining_cons, remainingStep] at h
    cases hc : closer? c with
    | some d =>
      rw [hc] at h
      exact (ih h).open_cons hc
    | none =>
      cases due with
      | nil => simp [hc] at h
      | cons d due =>
        rw [hc] at h
        by_cases hd : d = c
        · subst hd
          exact ⟨[], word, rfl, .nil, ih (by simpa using h)⟩
        · simp [hd] at h

lemma nested_iff : Nested word ↔ remaining [] word = some [] :=
  ⟨fun h => h.remaining_eq, fun h => finishes_of_remaining h⟩

instance : DecidablePred Nested := fun _ => decidable_of_iff _ nested_iff.symm

lemma Nested.append (hu : Nested u) (hv : Nested v) : Nested (u ++ v) := by
  simp [nested_iff, remaining_append, hu.remaining_eq, hv.remaining_eq]

lemma Nested.flatMap {α : Type} {f : α → List Char} {l : List α} (h : ∀ a ∈ l, Nested (f a)) :
    Nested (l.flatMap f) := by
  induction l with
  | nil => exact .nil
  | cons a l ih =>
    exact (h a (by simp)).append (ih fun b hb => h b (by simp [hb]))

end

variable (cs : List Char)

lemma brackets_ofList : brackets (String.ofList cs) = cs.filter isBracket := by
  simp [brackets]

@[simp] lemma brackets_append : brackets (s ++ t) = brackets s ++ brackets t := by
  simp [brackets]

lemma brackets_intercalate (h : brackets s = []) (ls : List String) :
    brackets (s.intercalate ls) = ls.flatMap brackets := by
  induction ls with
  | nil => simp [brackets]
  | cons l ls ih =>
    cases ls with
    | nil => simp
    | cons m ms =>
      rw [String.intercalate_cons_cons, brackets_append, brackets_append, ih, h]
      simp

@[simp] lemma brackets_unlines (ls : List String) : brackets (unlines ls) = ls.flatMap brackets :=
  brackets_intercalate (by decide) ls

lemma mem_of_isBracket (h : isBracket c = true) : c ∈ ['(', '[', '{', ')', ']', '}'] := by
  unfold isBracket closer? at h
  split at h <;> simp_all [or_assoc]

lemma isBracket_eq_false {p : Char → Bool} (h : ['(', '[', '{', ')', ']', '}'].any p = false)
    (hc : p c = true) : isBracket c = false := by
  cases hb : isBracket c with
  | false => rfl
  | true => exact absurd hc (any_eq_false.1 h c (mem_of_isBracket hb))

lemma flatMap_filter_consLine (c : Char) (ls : List (List Char)) :
    (consLine c ls).flatMap (List.filter isBracket)
      = List.filter isBracket [c] ++ ls.flatMap (List.filter isBracket) := by
  cases ls with
  | nil => simp [consLine]
  | cons l ls =>
    rw [consLine, flatMap_cons, flatMap_cons, ← singleton_append (l := l),
      filter_append, append_assoc]

lemma flatMap_filter_linesOf :
    (linesOf cs).flatMap (List.filter isBracket) = cs.filter isBracket := by
  fun_induction linesOf cs with
  | case1 => rfl
  | case2 cs ih => simpa [isBracket, closer?] using ih
  | case3 c cs _ h ih => simpa [isBracket_eq_false (by decide) h] using ih
  | case4 c cs _ h ih =>
    rw [flatMap_filter_consLine, ih, ← filter_append, singleton_append]

@[simp] lemma flatMap_brackets_lines (s : String) : (lines s).flatMap brackets = brackets s := by
  rw [lines, flatMap_map]
  simpa [brackets] using flatMap_filter_linesOf s.toList

lemma filter_dropWhile {p q : Char → Bool} (h : ∀ c, q c = true → p c = false) (cs : List Char) :
    (cs.dropWhile q).filter p = cs.filter p := by
  induction cs with
  | nil => rfl
  | cons c cs ih =>
    by_cases hc : q c = true
    · rw [dropWhile_cons_of_pos hc, ih, filter_cons_of_neg (by simp [h c hc])]
    · rw [dropWhile_cons_of_neg hc]

@[simp] lemma brackets_trimmedRight (s : String) : brackets (trimmedRight s) = brackets s := by
  rw [trimmedRight, brackets_ofList, trimRight, filter_reverse,
    filter_dropWhile fun _ => isBracket_eq_false (by decide), filter_reverse,
    reverse_reverse, brackets]

lemma filter_unixBreaks : (unixBreaks cs).filter isBracket = cs.filter isBracket := by
  fun_induction unixBreaks cs with
  | case1 => rfl
  | case2 cs ih => simpa [isBracket, closer?] using ih
  | case3 c cs _ ih =>
    by_cases hc : c = '\r'
    · subst hc
      simpa [isBracket, closer?] using ih
    · simp [hc, filter_cons, ih]

lemma filter_trimNewlines : (trimNewlines cs).filter isBracket = cs.filter isBracket := by
  have hnewline : ∀ c : Char, (c == '\n') = true → isBracket c = false :=
    fun _ => isBracket_eq_false (p := (· == '\n')) (by decide)
  rw [trimNewlines, filter_reverse, filter_dropWhile hnewline, filter_reverse,
    reverse_reverse, filter_dropWhile hnewline]

end Text

open Text

/-- The brackets of the text are a properly nested word. -/
def Balanced (s : String) : Prop :=
  Nested (brackets s)

instance : DecidablePred Balanced := fun s => inferInstanceAs (Decidable (Nested (brackets s)))

lemma balanced_iff : Balanced s ↔ remaining [] (brackets s) = some [] :=
  nested_iff

lemma Balanced.remaining_eq (h : Balanced s) : remaining due (brackets s) = some due :=
  Nested.remaining_eq h

lemma Balanced.append (hs : Balanced s) (ht : Balanced t) : Balanced (s ++ t) := by
  rw [Balanced, brackets_append]
  exact Nested.append hs ht

end JavaToGo
