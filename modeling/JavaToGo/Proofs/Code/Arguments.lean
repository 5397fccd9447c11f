import Mathlib.Tactic.Lemma
import JavaToGo.Code.TypeText

/-!
# Type arguments between commas

Within an argument the text is not cut, and behind it the depth is what it was
before, so the next comma is the one that was put there.
-/

namespace JavaToGo.Code

open List
open Text (trim)

/-- How deep in brackets a text ends that begins at the given depth. -/
def depthAfter (depth : Int) (cs : List Char) : Int :=
  cs.foldl (fun d c => d + nesting c) depth

/-- A text without blanks around it, whose brackets are closed in it after they are opened, and
which has no comma outside of them. -/
structure IsArgument (p : List Char) : Prop where
  nonempty : p ≠ []
  trimmed : trim p = p
  nested : ∀ i < p.length, 0 ≤ depthAfter 0 (p.take i)
  closed : depthAfter 0 p = 0
  comma : ∀ i < p.length, p[i]? = some ',' → depthAfter 0 (p.take i) ≠ 0

lemma pieces_append {p : List Char} (depth : Int)
    (hcomma : ∀ i < p.length, p[i]? = some ',' → depthAfter depth (p.take i) ≠ 0)
    (rest : List Char) :
    pieces depth (p ++ rest) = p.foldr consPiece (pieces (depthAfter depth p) rest) := by
  induction p generalizing depth with
  | nil => rfl
  | cons c p ih =>
    have hc : ¬(c = ',' ∧ depth = 0) := fun ⟨hc, hdepth⟩ =>
      hcomma 0 (by simp) (by simp [hc]) hdepth
    have hrest := ih (depth + nesting c) fun i hi hcomma' =>
      hcomma (i + 1) (by simpa using hi) (by simpa using hcomma')
    rw [cons_append, pieces, if_neg hc, hrest]
    rfl

lemma foldr_consPiece (t p : List Char) (ps : List (List Char)) :
    t.foldr consPiece (p :: ps) = (t ++ p) :: ps := by
  induction t with
  | nil => rfl
  | cons c t ih => rw [foldr_cons, ih, consPiece, cons_append]

lemma IsArgument.pieces_append {p : List Char} (h : IsArgument p) (rest : List Char) :
    pieces 0 (p ++ rest) = p.foldr consPiece (pieces 0 rest) := by
  rw [Code.pieces_append 0 h.comma, h.closed]

/-- Joined texts are cut where they were joined. -/
lemma trim_pieces_intercalate {p : List Char} {ps : List (List Char)}
    (h : ∀ q ∈ p :: ps, IsArgument q) :
    (pieces 0 ([',', ' '].intercalate (p :: ps))).map trim = p :: ps := by
  induction ps generalizing p with
  | nil =>
    have hp := h p mem_cons_self
    have hpieces := hp.pieces_append []
    rw [pieces, foldr_consPiece, append_nil] at hpieces
    rw [intercalate_singleton, hpieces, map_singleton, hp.trimmed]
  | cons q ps ih =>
    obtain ⟨hp, hrest⟩ := forall_mem_cons.1 h
    have hsep : pieces 0 ([',', ' '] ++ [',', ' '].intercalate (q :: ps))
        = [] :: consPiece ' ' (pieces 0 ([',', ' '].intercalate (q :: ps))) := rfl
    have hrest := ih hrest
    rw [intercalate_cons_cons, append_assoc, hp.pieces_append, hsep, foldr_consPiece, append_nil]
    -- The blank behind a comma begins the next piece and is trimmed off it.
    cases hpieces : pieces 0 ([',', ' '].intercalate (q :: ps)) with
    | nil =>
      rw [hpieces] at hrest
      cases hrest
    | cons r rs =>
      rw [hpieces] at hrest
      rw [map_cons, hp.trimmed, ← hrest]
      rfl

lemma dropEmptyLast_of_forall {ps : List (List Char)} (h : ∀ p ∈ ps, p ≠ []) :
    dropEmptyLast ps = ps := by
  fun_induction dropEmptyLast ps with
  | case1 => rfl
  | case2 p hp => exact absurd (isEmpty_iff.1 hp) (h p mem_cons_self)
  | case3 p hp => rfl
  | case4 p q ps ih => rw [ih fun r hr => h r (mem_cons_of_mem p hr)]

lemma typeArguments_intercalate {ps : List (List Char)} (h : ∀ p ∈ ps, IsArgument p) :
    typeArguments ([',', ' '].intercalate ps) = ps := by
  cases ps with
  | nil => rfl
  | cons p ps =>
    rw [typeArguments, trim_pieces_intercalate h]
    exact dropEmptyLast_of_forall fun q hq => (h q hq).nonempty

/-- Arguments that were joined are cut apart again, however they are nested. -/
theorem splitArguments_intercalate {parts : List String}
    (h : ∀ part ∈ parts, IsArgument part.toList) :
    splitArguments (", ".intercalate parts) = parts := by
  rw [splitArguments, String.toList_intercalate, show ", ".toList = [',', ' '] from rfl,
    typeArguments_intercalate (forall_mem_map.2 h), map_map]
  simp [Function.comp_def]

/-- Commas in brackets of two kinds do not count. -/
theorem splitArguments_nested :
    (∀ part ∈ ["K", "map[A]func(B, C)", "\x7b[D, E]\x7d"], IsArgument part.toList)
      ∧ splitArguments "K, map[A]func(B, C), \x7b[D, E]\x7d"
        = ["K", "map[A]func(B, C)", "\x7b[D, E]\x7d"] := by
  have h : ∀ part ∈ ["K", "map[A]func(B, C)", "\x7b[D, E]\x7d"], IsArgument part.toList := by
    simp only [forall_mem_cons, not_mem_nil, false_implies, implies_true, and_true]
    refine ⟨⟨?_, ?_, ?_, ?_, ?_⟩, ⟨?_, ?_, ?_, ?_, ?_⟩, ⟨?_, ?_, ?_, ?_, ?_⟩⟩ <;> decide
  exact ⟨h, splitArguments_intercalate h⟩

end JavaToGo.Code
