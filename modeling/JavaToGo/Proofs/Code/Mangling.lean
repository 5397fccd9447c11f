import Mathlib.Data.List.TakeWhile
import JavaToGo.Code.TypeText

/-!
# What overloads are named with

The part of a name that is read from the text of a type can stand in any name: it
is made of word characters and does not begin with a small letter.
-/

namespace JavaToGo.Code

open List

/-- Word characters only, the first of which is no small letter. -/
structure Mangled (cs : List Char) : Prop where
  word : cs.all isWordChar = true
  first : cs.head?.any Char.isLower = false

lemma Mangled.nil : Mangled [] :=
  ⟨rfl, rfl⟩

lemma Mangled.append (h : Mangled cs) (h' : Mangled ds) : Mangled (cs ++ ds) := by
  refine ⟨by rw [all_append, h.word, h'.word]; rfl, ?_⟩
  cases cs with
  | nil => exact h'.first
  | cons c cs => exact h.first

lemma Mangled.flatten {parts : List (List Char)} (h : ∀ p ∈ parts, Mangled p) :
    Mangled parts.flatten := by
  induction parts with
  | nil => exact .nil
  | cons p parts ih =>
    exact (h p mem_cons_self).append (ih fun q hq => h q (mem_cons_of_mem _ hq))

lemma toNat_lt_of_isWordChar (h : isWordChar c = true) : c.toNat < 128 := by
  rcases Bool.or_eq_true_iff.1 h with h | h
  · rcases Bool.or_eq_true_iff.1 h with h | h
    · rcases Bool.or_eq_true_iff.1 h with h | h
      · exact Nat.lt_of_le_of_lt (of_decide_eq_true h).2 (by decide)
      · exact Nat.lt_of_le_of_lt (of_decide_eq_true (Bool.and_eq_true_iff.1 h).2) (by decide)
    · exact Nat.lt_of_le_of_lt (of_decide_eq_true (Bool.and_eq_true_iff.1 h).2) (by decide)
  · rw [beq_iff_eq.1 h]
    decide

/-- A fact about word characters holds when it holds of the first characters there are. -/
lemma forall_isWordChar {P : Char → Prop}
    (h : ∀ n < 128, isWordChar (Char.ofNat n) = true → P (Char.ofNat n)) {c : Char}
    (hc : isWordChar c = true) : P c := by
  have hn := h c.toNat (toNat_lt_of_isWordChar hc)
  rw [Char.ofNat_toNat] at hn
  exact hn hc

/-- The capital form of a word character is one, and no small letter; what is no small letter is its
own. -/
lemma upper_of_isWordChar (h : isWordChar c = true) :
    Text.upper c = [(Text.upper c).headD c] ∧ isWordChar ((Text.upper c).headD c) = true
      ∧ ((Text.upper c).headD c).isLower = false
      ∧ (c.isLower = false → (Text.upper c).headD c = c) := by
  revert c
  exact @forall_isWordChar _ (by decide +kernel)

lemma mangled_exportedChars {cs : List Char} (h : cs.all isWordChar = true) :
    Mangled (exportedChars cs) := by
  cases cs with
  | nil => exact .nil
  | cons c cs =>
    obtain ⟨hc, hcs⟩ := Bool.and_eq_true_iff.1 (all_cons.symm.trans h)
    obtain ⟨hupper, hword, hcapital, -⟩ := upper_of_isWordChar hc
    rw [exportedChars, hupper, singleton_append]
    exact ⟨by rw [all_cons, hword, hcs]; rfl, hcapital⟩

lemma mangled_assemble (shape : TypeShape) {fragments : List (List Char)}
    (h : ∀ f ∈ fragments, Mangled f) : Mangled (shape.assemble fragments) := by
  cases shape with
  | slice => exact (Mangled.flatten h).append ⟨by decide, by decide⟩
  | map => exact Mangled.append ⟨by decide, by decide⟩ (.flatten h)
  | any => exact ⟨rfl, rfl⟩
  | generic => exact .flatten h
  | plain => exact mangled_exportedChars (all_eq_true.2 fun c hc => (mem_filter.1 hc).2)

lemma mangled_fragmentChars (cs : List Char) : Mangled (fragmentChars cs) := by
  rw [fragmentChars]
  refine mangled_assemble _ fun f hf => ?_
  obtain ⟨p, -, rfl⟩ := mem_map.1 hf
  exact mangled_fragmentChars p.1
termination_by cs.length
decreasing_by exact Nat.lt_of_lt_of_le (length_mem_parts p.2) (length_stripMarks_trim_le cs)

section

variable {cs : List Char}

lemma trim_of_forall (h : ∀ c ∈ cs, Text.isBlank c = false) : Text.trim cs = cs := by
  have hdrop : ∀ ds : List Char, (∀ d ∈ ds, Text.isBlank d = false) →
      ds.dropWhile Text.isBlank = ds := fun ds hds =>
    dropWhile_eq_self_iff.2 fun hpos => by simpa using hds _ (getElem_mem hpos)
  rw [Text.trim, Text.trimLeft, Text.trimRight, hdrop cs h,
    hdrop _ fun d hd => h d (mem_reverse.1 hd), reverse_reverse]

lemma stripMarks_of_notMem (hstar : '*' ∉ cs) (hdot : '.' ∉ cs) : stripMarks cs = cs := by
  refine stripMarks.eq_3 cs ?_ ?_
  · rintro ds rfl
    exact hstar mem_cons_self
  · rintro ds rfl
    exact hdot mem_cons_self

lemma typeShape_of_notMem (h : '[' ∉ cs) (hany : cs ≠ anyType.toList ∧ cs ≠ "any".toList) :
    typeShape cs = .plain cs := by
  have hplain : plainShape cs = .plain cs := by
    rw [plainShape, if_neg (not_or.2 hany), if_neg fun hopen => h hopen.1]
  unfold typeShape
  split
  · exact absurd mem_cons_self h
  · exact absurd (by simp) h
  · exact hplain

lemma afterLastDot_of_notMem (h : '.' ∉ cs) : afterLastDot cs = cs := by
  rw [afterLastDot, takeWhile_eq_self_iff.2 fun c hc => ?_, reverse_reverse]
  rw [bne_iff_ne]
  rintro rfl
  exact h (mem_reverse.1 hc)

/-- A part of a name is read as itself. -/
lemma fragmentChars_of_mangled (h : Mangled cs) : fragmentChars cs = cs := by
  have hword := all_eq_true.1 h.word
  have hnot : ∀ d, isWordChar d = false → d ∉ cs := fun d hd hmem => by
    rw [hword d hmem] at hd
    cases hd
  have hblank : ∀ {c}, isWordChar c = true → Text.isBlank c = false :=
    @forall_isWordChar _ (by decide +kernel)
  have hany : cs ≠ anyType.toList ∧ cs ≠ "any".toList := by
    constructor
    · rintro rfl
      exact absurd h.first (by decide)
    · rintro rfl
      exact absurd h.first (by decide)
  have hshape : typeShape (stripMarks (Text.trim cs)) = .plain cs := by
    rw [trim_of_forall fun c hc => hblank (hword c hc),
      stripMarks_of_notMem (hnot _ (by decide)) (hnot _ (by decide)),
      typeShape_of_notMem (hnot _ (by decide)) hany]
  rw [fragmentChars, hshape, TypeShape.assemble, afterLastDot_of_notMem (hnot _ (by decide)),
    filter_eq_self.2 hword]
  cases cs with
  | nil => rfl
  | cons c cs =>
    obtain ⟨hupper, -, -, hsame⟩ := upper_of_isWordChar (hword c mem_cons_self)
    rw [exportedChars, hupper, hsame (by simpa using h.first)]
    rfl

end

/-- The part of a name that a text gives is made of letters, digits and underscores, does not begin
with a small letter and gives itself.  So the name of an overload continues that of the method with
such characters only. -/
theorem fragment_mangled (type base : String) (types : List String) :
    ((fragment type).toList.all isWordChar = true
      ∧ (fragment type).toList.head?.any Char.isLower = false
      ∧ fragment (fragment type) = fragment type)
    ∧ ∃ rest, overloadedName base types = base ++ rest ∧ rest.toList.all isWordChar = true := by
  have hfragment : ∀ type, Mangled (fragment type).toList := fun type => by
    simpa [fragment] using mangled_fragmentChars type.toList
  refine ⟨⟨(hfragment type).word, (hfragment type).first, ?_⟩, ?_⟩
  · rw [fragment, fragmentChars_of_mangled (hfragment type), String.ofList_toList]
  · unfold overloadedName
    split
    · exact ⟨"WithoutArgs", rfl, by decide⟩
    · refine ⟨"With" ++ String.join (types.map fragment), by rw [String.append_assoc], ?_⟩
      have hrest : Mangled (types.map fun type => (fragment type).toList).flatten :=
        .flatten fun f hf => by
          obtain ⟨type, -, rfl⟩ := mem_map.1 hf
          exact hfragment type
      have htext : ("With" ++ String.join (types.map fragment)).toList
          = "With".toList ++ (types.map fun type => (fragment type).toList).flatten := by
        simp [Function.comp_def, flatMap]
      rw [htext, all_append, hrest.word]
      decide

end JavaToGo.Code
