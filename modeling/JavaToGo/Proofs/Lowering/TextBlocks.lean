import Mathlib.Tactic.Lemma
import JavaToGo.Lowering.Literal

/-!
# The value of text blocks

A text block is written as string literals with plus signs between them.  Escapes
by number stand for bytes; literals with such escapes have no value here.
-/

namespace JavaToGo.Literal

open List

/-- A string literal, as it stands between its quotes. -/
inductive Quoted where
  | raw (text : List Char)
  | interpreted (text : List Char)
deriving DecidableEq

def escaped? (c : Char) : Option Char :=
  [('a', '\x07'), ('b', '\x08'), ('f', '\x0c'), ('n', '\n'), ('r', '\r'), ('t', '\t'),
    ('v', '\x0b'), ('\\', '\\'), ('"', '"')].lookup c

/-- What the text between double quotes stands for. -/
def unescaped? : List Char → Option (List Char)
  | [] => some []
  | '\\' :: c :: cs => (escaped? c).bind fun d => (unescaped? cs).map (d :: ·)
  | c :: cs => if c = '\\' then none else (unescaped? cs).map (c :: ·)

def Quoted.value? : Quoted → Option (List Char)
  | .raw text => some (text.filter (· != '\r'))
  | .interpreted text => unescaped? text

/-- What stands in front of the next backquote, and what behind it. -/
def cutRaw? : List Char → Option (List Char × List Char)
  | [] => none
  | c :: cs => if c = '`' then some ([], cs) else (cutRaw? cs).map fun p => (c :: p.1, p.2)

/-- What stands in front of the next double quote that is not escaped, and what behind it. -/
def cutInterpreted? : List Char → Option (List Char × List Char)
  | [] => none
  | '"' :: cs => some ([], cs)
  | '\n' :: _ => none
  | '\\' :: c :: cs => (cutInterpreted? cs).map fun p => ('\\' :: c :: p.1, p.2)
  | c :: cs => (cutInterpreted? cs).map fun p => (c :: p.1, p.2)

/-- The literal at the beginning of a text, and what follows it. -/
def literal? : List Char → Option (Quoted × List Char)
  | '`' :: cs => (cutRaw? cs).map fun p => (.raw p.1, p.2)
  | '"' :: cs => (cutInterpreted? cs).map fun p => (.interpreted p.1, p.2)
  | _ => none

/-- The text is made of the literals, with plus signs between them. -/
inductive IsSum : List Char → List Quoted → Prop
  | last {text : List Char} {q : Quoted} (h : literal? text = some (q, [])) : IsSum text [q]
  | plus {text rest : List Char} {q : Quoted} {qs : List Quoted}
      (h : literal? text = some (q, " + ".toList ++ rest)) (hrest : IsSum rest qs) :
      IsSum text (q :: qs)

/-- The value of a sum of literals. -/
def sumValue? (qs : List Quoted) : Option (List Char) :=
  (qs.mapM Quoted.value?).map flatten

lemma IsSum.unique (h : IsSum text qs) (h' : IsSum text qs') : qs = qs' := by
  induction h generalizing qs' with
  | last h =>
    cases h' with
    | last h' => cases h.symm.trans h'; rfl
    | plus h' => cases h.symm.trans h'
  | plus h _ ih =>
    cases h' with
    | last h' => cases h.symm.trans h'
    | plus h' hrest =>
      cases h.symm.trans h'
      rw [ih hrest]

lemma cutRaw?_append (h : '`' ∉ t) (rest : List Char) :
    cutRaw? (t ++ '`' :: rest) = some (t, rest) := by
  induction t with
  | nil => rfl
  | cons c t ih =>
    obtain ⟨hc, ht⟩ := not_or.1 (mt mem_cons.2 h)
    rw [cons_append, cutRaw?, if_neg (Ne.symm hc), ih ht]
    rfl

lemma literal?_raw (h : '`' ∉ t) (rest : List Char) :
    literal? ('`' :: (t ++ '`' :: rest)) = some (.raw t, rest) := by
  rw [literal?, cutRaw?_append h]
  rfl

/-- A part of a text block: a raw literal, or the backquote in double quotes. -/
def Quoted.IsPart (q : Quoted) : Prop :=
  (∃ text, q = .raw text) ∨ q = .interpreted ['`']

lemma sumValue?_cons (hq : q.value? = some v) (hqs : sumValue? qs = some w) :
    sumValue? (q :: qs) = some (v ++ w) := by
  obtain ⟨vs, hvs, rfl⟩ := Option.map_eq_some_iff.1 hqs
  simp [sumValue?, hq, hvs]

lemma value?_raw (h : '\r' ∉ t) : (Quoted.raw t).value? = some t :=
  congrArg some (filter_eq_self.2 fun _ hc => bne_iff_ne.2 (ne_of_mem_of_not_mem hc h))

/-- The characters in front of the next backquote are collected in `t`. -/
lemma exists_sum {t body : List Char} (ht : '`' ∉ t) (hreturn : '\r' ∉ t ++ body) :
    ∃ qs, IsSum ('`' :: (t ++ (Text.replaceAll '`' gluedBackquote.toList body ++ ['`']))) qs
      ∧ (∀ q ∈ qs, q.IsPart) ∧ sumValue? qs = some (t ++ body) := by
  induction body generalizing t with
  | nil =>
    rw [append_nil] at hreturn
    refine ⟨[.raw t], .last (literal?_raw ht []), ?_, sumValue?_cons (value?_raw hreturn) rfl⟩
    exact forall_mem_singleton.2 (.inl ⟨t, rfl⟩)
  | cons c body ih =>
    by_cases hc : c = '`'
    · subst hc
      obtain ⟨hreturn, hrest⟩ := not_or.1 (mt mem_append.2 hreturn)
      obtain ⟨qs, hsum, hparts, hvalue⟩ :=
        ih (t := []) not_mem_nil fun hmem => hrest (mem_cons_of_mem _ hmem)
      have hglued : IsSum ('"' :: '`' :: '"' :: (" + ".toList
          ++ '`' :: (Text.replaceAll '`' gluedBackquote.toList body ++ ['`'])))
          (.interpreted ['`'] :: qs) := .plus rfl hsum
      refine ⟨.raw t :: .interpreted ['`'] :: qs, .plus (literal?_raw ht _) hglued, ?_, ?_⟩
      · exact forall_mem_cons.2 ⟨.inl ⟨t, rfl⟩, forall_mem_cons.2 ⟨.inr rfl, hparts⟩⟩
      · exact sumValue?_cons (value?_raw hreturn) (sumValue?_cons (v := ['`']) rfl hvalue)
    · have hlast : '`' ∉ t ++ [c] := by simp [ht, Ne.symm hc]
      have hglued : Text.replaceAll '`' gluedBackquote.toList (c :: body)
          = c :: Text.replaceAll '`' gluedBackquote.toList body := by
        simp [Text.replaceAll, hc]
      rw [hglued]
      simpa using ih hlast (by simpa using hreturn)

/-- The text without a line break at its beginning. -/
def withoutBreak (cs : List Char) : List Char :=
  if cs.head? = some '\n' then cs.tail else cs

lemma blockBody_eq (b : String) :
    blockBody ("\"\"\"" ++ b ++ "\"\"\"") = withoutBreak b.toList := by
  have hlength : ("\"\"\"" ++ b ++ "\"\"\"").length - 3 = ("\"\"\"".toList ++ b.toList).length := by
    rw [← String.length_toList, String.toList_append, String.toList_append, length_append]
    exact Nat.add_sub_cancel _ 3
  rw [blockBody, hlength, String.toList_append, String.toList_append, take_left]
  cases b.toList with
  | nil => rfl
  | cons c cs =>
    by_cases hc : c = '\n'
    · rw [hc]
      rfl
    · simp [withoutBreak, hc]

lemma toList_string_block (b : String) :
    (string ("\"\"\"" ++ b ++ "\"\"\"")).toList
      = '`' :: ([] ++ (Text.replaceAll '`' gluedBackquote.toList (withoutBreak b.toList)
          ++ ['`'])) := by
  rw [string, if_pos (by simp [Text.startsWith]), blockBody_eq, raw]
  simp

/-- A text block is written as a sum of raw literals and backquotes in double quotes, which its text
allows to be read in one way only.  The value of the sum is what stands between the quotes of the
block, without a line break at the beginning. -/
theorem textBlock_value (b : String) (h : '\r' ∉ b.toList) :
    ∃ qs, IsSum (string ("\"\"\"" ++ b ++ "\"\"\"")).toList qs
      ∧ (∀ qs', IsSum (string ("\"\"\"" ++ b ++ "\"\"\"")).toList qs' → qs' = qs)
      ∧ (∀ q ∈ qs, (∃ text, q = .raw text) ∨ q = .interpreted ['`'])
      ∧ sumValue? qs = some (withoutBreak b.toList) := by
  have hreturn : '\r' ∉ [] ++ withoutBreak b.toList := by
    rw [nil_append, withoutBreak]
    split
    · exact fun hmem => h (mem_of_mem_tail hmem)
    · exact h
  rw [toList_string_block]
  obtain ⟨qs, hsum, hparts, hvalue⟩ := exists_sum not_mem_nil hreturn
  exact ⟨qs, hsum, fun qs' hsum' => hsum'.unique hsum, hparts, hvalue⟩

/-- Backquotes at both ends and next to each other. -/
theorem textBlock_value_backquotes :
    '\r' ∉ "\n`a``".toList ∧ string "\"\"\"\n`a``\"\"\""
      = "`` + \"`\" + `a` + \"`\" + `` + \"`\" + ``"
      ∧ ∃ qs, IsSum "`` + \"`\" + `a` + \"`\" + `` + \"`\" + ``".toList qs
        ∧ sumValue? qs = some "`a``".toList := by
  have hstring : string "\"\"\"\n`a``\"\"\"" = "`` + \"`\" + `a` + \"`\" + `` + \"`\" + ``" := by
    decide +kernel
  obtain ⟨qs, hsum, -, -, hvalue⟩ := textBlock_value "\n`a``" (by decide)
  exact ⟨by decide, hstring, qs, hstring ▸ hsum, hvalue⟩

end JavaToGo.Literal
