import JavaToGo.Code.SourceFile
import JavaToGo.Proofs.Text.Brackets

/-!
# Balanced expressions and statements

What has balanced leaves is rendered as a balanced text.  Many texts open a
bracket in one piece and close it in another, so each is read piece by piece.
-/

namespace JavaToGo.Code

open Text List

/-! ### Leaves -/

/-- Every leaf is a balanced text; none is a place still to be filled. -/
def Filled (leaves : List (Option String)) : Prop :=
  ∀ leaf ∈ leaves, ∃ s ∈ leaf, Balanced s

instance (leaves : List (Option String)) : Decidable (Filled leaves) :=
  inferInstanceAs (Decidable (∀ leaf ∈ leaves, ∃ s ∈ leaf, Balanced s))

def optionLeaves (text : Option String) : List (Option String) :=
  text.toList.map some

variable (line : String)

@[simp] lemma filled_nil : Filled [] := by
  simp [Filled]

@[simp] lemma not_filled_none : ¬ Filled (none :: l) := by
  simp [Filled]

@[simp] lemma filled_cons : Filled (some s :: l) ↔ Balanced s ∧ Filled l := by
  simp [Filled]

@[simp] lemma filled_append : Filled (l ++ k) ↔ Filled l ∧ Filled k := by
  simp [Filled, or_imp, forall_and]

@[simp] lemma filled_map_some {ss : List String} : Filled (ss.map some) ↔ ∀ s ∈ ss, Balanced s := by
  simp [Filled]

@[simp] lemma filled_optionLeaves : Filled (optionLeaves o) ↔ ∀ s ∈ o, Balanced s := by
  simp [optionLeaves]

@[simp] lemma filled_flatMap {α : Type} {f : α → List (Option String)} {as : List α} :
    Filled (as.flatMap f) ↔ ∀ a ∈ as, Filled (f a) := by
  induction as with
  | nil => simp
  | cons a as ih => simp [ih]

namespace Expr

mutual
/-- The texts that an expression is made of; a hole has no text. -/
def leaves : Expr → List (Option String)
  | .hole => [none]
  | .raw source => [some source]
  | .var name => [some name]
  | .field target name => leaves target ++ [some name]
  | .call function args _ => leaves function ++ leavesAll args
  | .callNamed function args _ => some function :: leavesAll args
  | .binary left operator right => leaves left ++ some operator :: leaves right
  | .unary operator operand => some operator :: leaves operand
  | .cast type value => some type :: leaves value
  | .assertion value type => leaves value ++ [some type]
  | .index target position => leaves target ++ leaves position
  | .composite type elements keys => some type :: leavesAll elements ++ keys.map some
  | .typeTest value type => leaves value ++ [some type]
  | .choice condition consequence alternative type =>
    leaves condition ++ leaves consequence ++ leaves alternative ++ [some type]

def leavesAll : List Expr → List (Option String)
  | [] => []
  | e :: es => leaves e ++ leavesAll es
end

lemma completeUpTo_of_completeAll (h : completeAll es = true) (n : Nat) :
    completeUpTo n es = true := by
  induction es generalizing n with
  | nil => cases n <;> simp [completeUpTo]
  | cons e es ih =>
    simp only [completeAll, Bool.and_eq_true] at h
    cases n with
    | zero => simp [completeUpTo]
    | succ n => simp [completeUpTo, h.1, ih h.2]

lemma balanced_parens (h : Balanced s) : Balanced ("(" ++ s ++ ")") := by
  refine balanced_iff.2 ?_
  simp only [brackets_append, remaining_append, h.remaining_eq]
  decide +kernel

lemma balanced_listed (h : ∀ l ∈ ls, Balanced l) : Balanced (", ".intercalate ls) := by
  rw [Balanced, brackets_intercalate (by decide)]
  exact Nested.flatMap h

lemma balanced_parenthesized (e : Expr) (h : Balanced s) : Balanced (parenthesized e s) := by
  unfold parenthesized
  split
  · exact balanced_parens h
  · exact h

lemma balanced_unaryOperand (e : Expr) (h : Balanced s) : Balanced (unaryOperand e s) := by
  unfold unaryOperand
  split
  · exact balanced_parens h
  · exact balanced_parenthesized _ h

lemma balanced_castType (h : Balanced s) : Balanced (castType s) := by
  unfold castType
  split
  · exact balanced_parens h
  · exact h

lemma balanced_items {keys : List String} (hkeys : ∀ k ∈ keys, Balanced k)
    (helements : ∀ e ∈ elements, Balanced e) : ∀ i ∈ items keys elements, Balanced i := by
  unfold items
  split
  · exact helements
  · intro i hi
    obtain ⟨⟨k, e⟩, hmem, rfl⟩ := mem_map.1 hi
    obtain ⟨hk, he⟩ := of_mem_zip hmem
    exact ((hkeys k hk).append (by decide)).append (helements e he)

lemma balanced_callText (variadic : Bool) (hs : Balanced s) (hargs : ∀ a ∈ ls, Balanced a) :
    Balanced (callText s ls variadic) := by
  refine balanced_iff.2 ?_
  unfold callText
  simp only [brackets_append, remaining_append, hs.remaining_eq,
    (balanced_listed hargs).remaining_eq]
  cases variadic <;> decide +kernel

lemma balanced_assertionText (hs : Balanced s) (ht : Balanced t) :
    Balanced (assertionText s t) := by
  refine balanced_iff.2 ?_
  unfold assertionText
  simp only [brackets_append, remaining_append, hs.remaining_eq, ht.remaining_eq]
  decide +kernel

lemma balanced_typeTestText (hs : Balanced s) (ht : Balanced t) : Balanced (typeTestText s t) := by
  refine balanced_iff.2 ?_
  unfold typeTestText
  simp only [brackets_append, remaining_append, (balanced_assertionText hs ht).remaining_eq]
  decide +kernel

lemma balanced_choiceText (hs : Balanced s) (ht : Balanced t) (hu : Balanced u)
    (hv : Balanced v) : Balanced (choiceText s t u v) := by
  refine balanced_iff.2 ?_
  unfold choiceText
  simp only [brackets_append, remaining_append, hs.remaining_eq, ht.remaining_eq, hu.remaining_eq,
    hv.remaining_eq]
  decide +kernel

mutual
theorem rendered_bare : ∀ e : Expr, Filled e.leaves → e.complete = true ∧ Balanced e.bare
  | .hole, h => absurd h not_filled_none
  | .raw _, h => ⟨rfl, (filled_cons.1 h).1⟩
  | .var _, h => ⟨rfl, (filled_cons.1 h).1⟩
  | .field target name, h => by
    simp only [leaves, filled_append, filled_cons] at h
    obtain ⟨hcomplete, htarget⟩ := rendered_bare target h.1
    refine ⟨hcomplete, ?_⟩
    exact ((balanced_parenthesized target htarget).append (by decide)).append h.2.1
  | .call function args variadic, h => by
    simp only [leaves, filled_append] at h
    obtain ⟨hcomplete, hfunction⟩ := rendered_bare function h.1
    obtain ⟨hcompletes, hargs⟩ := rendered_bareAll args h.2
    refine ⟨by simp [complete, hcomplete, hcompletes], ?_⟩
    exact balanced_callText variadic (balanced_parenthesized function hfunction) hargs
  | .callNamed function args variadic, h => by
    simp only [leaves, filled_cons] at h
    obtain ⟨hcompletes, hargs⟩ := rendered_bareAll args h.2
    exact ⟨hcompletes, balanced_callText variadic h.1 hargs⟩
  | .binary left operator right, h => by
    simp only [leaves, filled_append, filled_cons] at h
    obtain ⟨hl, hleft⟩ := rendered_bare left h.1
    obtain ⟨hr, hright⟩ := rendered_bare right h.2.2
    refine ⟨by simp [complete, hl, hr], ?_⟩
    exact ((((balanced_parenthesized left hleft).append (by decide)).append h.2.1).append
      (by decide)).append (balanced_parenthesized right hright)
  | .unary operator operand, h => by
    simp only [leaves, filled_cons] at h
    obtain ⟨hcomplete, hoperand⟩ := rendered_bare operand h.2
    exact ⟨hcomplete, h.1.append (balanced_unaryOperand operand hoperand)⟩
  | .cast type value, h => by
    simp only [leaves, filled_cons] at h
    obtain ⟨hcomplete, hvalue⟩ := rendered_bare value h.2
    refine ⟨hcomplete, balanced_iff.2 ?_⟩
    simp only [bare, brackets_append, remaining_append, hvalue.remaining_eq,
      (balanced_castType h.1).remaining_eq]
    decide +kernel
  | .assertion value type, h => by
    simp only [leaves, filled_append, filled_cons] at h
    obtain ⟨hcomplete, hvalue⟩ := rendered_bare value h.1
    exact ⟨hcomplete, balanced_assertionText hvalue h.2.1⟩
  | .index target position, h => by
    simp only [leaves, filled_append] at h
    obtain ⟨hc, htarget⟩ := rendered_bare target h.1
    obtain ⟨hp, hposition⟩ := rendered_bare position h.2
    refine ⟨by simp [complete, hc, hp], balanced_iff.2 ?_⟩
    simp only [bare, brackets_append, remaining_append, hposition.remaining_eq,
      (balanced_parenthesized target htarget).remaining_eq]
    decide +kernel
  | .composite type elements keys, h => by
    simp only [leaves, filled_append, filled_cons, filled_map_some] at h
    obtain ⟨hcompletes, helements⟩ := rendered_bareAll elements h.1.2
    refine ⟨?_, balanced_iff.2 ?_⟩
    · simp [complete, hcompletes, completeUpTo_of_completeAll hcompletes]
    · simp only [bare, brackets_append, remaining_append, h.1.1.remaining_eq,
        (balanced_listed (balanced_items h.2 helements)).remaining_eq]
      decide +kernel
  | .typeTest value type, h => by
    simp only [leaves, filled_append, filled_cons] at h
    obtain ⟨hcomplete, hvalue⟩ := rendered_bare value h.1
    exact ⟨hcomplete, balanced_typeTestText hvalue h.2.1⟩
  | .choice condition consequence alternative type, h => by
    simp only [leaves, filled_append, filled_cons] at h
    obtain ⟨hc, hcondition⟩ := rendered_bare condition h.1.1.1
    obtain ⟨ht, hconsequence⟩ := rendered_bare consequence h.1.1.2
    obtain ⟨he, halternative⟩ := rendered_bare alternative h.1.2
    refine ⟨by simp [complete, hc, ht, he], ?_⟩
    exact balanced_choiceText hcondition hconsequence halternative h.2.1

theorem rendered_bareAll : ∀ es : List Expr, Filled (leavesAll es) →
    completeAll es = true ∧ ∀ s ∈ bareAll es, Balanced s
  | [], _ => ⟨rfl, by simp [bareAll]⟩
  | e :: es, h => by
    simp only [leavesAll, filled_append] at h
    obtain ⟨hcomplete, he⟩ := rendered_bare e h.1
    obtain ⟨hcompletes, hes⟩ := rendered_bareAll es h.2
    refine ⟨by simp [completeAll, hcomplete, hcompletes], ?_⟩
    simpa [bareAll] using ⟨he, hes⟩
end

lemma rendered_text {e : Expr} (h : Filled e.leaves) : e.complete = true ∧ Balanced e.text :=
  ⟨(rendered_bare e h).1, balanced_parenthesized e (rendered_bare e h).2⟩

end Expr

/-! ### Statements -/

section

variable {ls : List String}

@[simp] lemma brackets_indentLine : brackets (indentLine line) = brackets line := by
  unfold indentLine
  split
  · simp_all
  · rw [brackets_append]
    rfl

@[simp] lemma flatMap_brackets_indentLine (ls : List String) :
    (ls.map indentLine).flatMap brackets = ls.flatMap brackets := by
  simp [flatMap_map]

@[simp] lemma flatMap_brackets_indented (text : String) :
    (indented text).flatMap brackets = brackets text := by
  simp [indented]

lemma brackets_commentLine :
    brackets (if line.isEmpty then "//" else "// " ++ line) = brackets line := by
  split
  · simp_all
    decide
  · rw [brackets_append]
    rfl

@[simp] lemma flatMap_brackets_commentLines (text : String) :
    (commentLines text).flatMap brackets = brackets text := by
  rw [← flatMap_brackets_lines text]
  unfold commentLines
  split
  next h =>
    rw [h]
    decide
  next => simp only [flatMap_map, brackets_commentLine]

lemma balanced_blockText (hs : Balanced s) (hls : Nested (ls.flatMap brackets)) :
    Balanced (blockText s ls) := by
  refine balanced_iff.2 ?_
  unfold blockText
  simp only [brackets_unlines, flatMap_cons, flatMap_append,
    brackets_append, remaining_append, hs.remaining_eq, hls.remaining_eq]
  decide +kernel

lemma eq_some_of_presentText (h : presentText o = some t) : o = some t :=
  (Option.filter_eq_some_iff.1 h).1

lemma balanced_presentText {default : String} (ho : ∀ t ∈ o, Balanced t)
    (hdefault : Balanced default) : Balanced ((presentText o).getD default) := by
  cases o with
  | none => exact hdefault
  | some t =>
    unfold presentText
    rw [Option.filter_some]
    split
    · exact ho t rfl
    · exact hdefault

end

namespace Stmt

def valueLeaves (value : Option Expr) : List (Option String) :=
  value.toList.flatMap Expr.leaves

mutual
/-- The texts that a statement is made of. -/
def leaves : Stmt → List (Option String)
  | .hole => [none]
  | .raw source => [some source]
  | .comment comments => comments.map some
  | .var name type value _ => some name :: optionLeaves type ++ valueLeaves value
  | .assign target value => target.leaves ++ value.leaves
  | .step target operator => target.leaves ++ [some operator]
  | .call value => value.leaves
  | .ret values => values.flatMap Expr.leaves
  | .block body => leavesAll body
  | .labeled label statement => some label :: leaves statement
  | .cond condition body none => condition.leaves ++ leavesAll body
  | .cond condition body (some elseBody) =>
    condition.leaves ++ leavesAll body ++ leavesAll elseBody
  | .loop init condition post body =>
    leavesOption init ++ valueLeaves condition ++ leavesOption post ++ leavesAll body
  | .range key value iterable body =>
    some key :: some value :: iterable.leaves ++ leavesAll body
  | .switch value clauses => valueLeaves value ++ leavesClauses clauses
  | .tryCatch body catches finallyBody resources closers =>
    leavesAll body ++ leavesCatches catches ++ leavesBody finallyBody ++ leavesAll resources
      ++ closers.flatMap Expr.leaves

def leavesOption : Option Stmt → List (Option String)
  | none => []
  | some s => leaves s

def leavesAll : List Stmt → List (Option String)
  | [] => []
  | s :: ss => leaves s ++ leavesAll ss

def leavesBody : Option (List Stmt) → List (Option String)
  | none => []
  | some ss => leavesAll ss

def leavesClauses : List SwitchClause → List (Option String)
  | [] => []
  | .mk values body _ _ :: clauses =>
    values.flatMap Expr.leaves ++ leavesAll body ++ leavesClauses clauses

def leavesCatches : List CatchClause → List (Option String)
  | [] => []
  | .mk exceptionType body binding :: catches =>
    some exceptionType :: optionLeaves binding ++ leavesAll body ++ leavesCatches catches
end

section

variable {due : List Char}

lemma rendered_values {values : List Expr} (h : ∀ e ∈ values, Filled e.leaves) :
    values.all Expr.complete = true ∧ Balanced (", ".intercalate (values.map Expr.bare)) := by
  refine ⟨all_eq_true.2 fun e he => (Expr.rendered_bare e (h e he)).1, ?_⟩
  refine Expr.balanced_listed fun t ht => ?_
  obtain ⟨e, he, rfl⟩ := mem_map.1 ht
  exact (Expr.rendered_bare e (h e he)).2

lemma rendered_value (h : Filled (valueLeaves value)) :
    value.all Expr.complete = true ∧ ∀ e ∈ value, Balanced e.bare := by
  cases value with
  | none => simp
  | some e => simpa using Expr.rendered_bare e (by simpa [valueLeaves] using h)

lemma balanced_varText (short : Bool) (hname : Balanced name) (htype : ∀ t ∈ type, Balanced t)
    (hvalue : ∀ e ∈ value, Balanced e.bare) : Balanced (varText name type value short) := by
  cases value with
  | none =>
    have htype : Balanced (type.getD "None") := by
      cases type with
      | none => exact (by decide)
      | some t => exact htype t rfl
    exact ((Balanced.append (by decide) hname).append (by decide)).append htype
  | some e =>
    have hshort : Balanced (name ++ " := " ++ e.bare) :=
      (hname.append (by decide)).append (hvalue e rfl)
    cases type with
    | none => exact hshort
    | some t =>
      cases short with
      | true => exact hshort
      | false =>
        exact ((((Balanced.append (by decide) hname).append (by decide)).append
          (htype t rfl)).append (by decide)).append (hvalue e rfl)

lemma balanced_loopHeader
    (hinit : ∀ t ∈ init, Balanced t) (hcondition : ∀ t ∈ condition, Balanced t)
    (hpost : ∀ t ∈ post, Balanced t) : Balanced (loopHeader init condition post) := by
  have hgetD : ∀ {o : Option String}, (∀ t ∈ o, Balanced t) → Balanced (o.getD "") := by
    intro o ho
    cases o with
    | none => exact (by decide)
    | some t => exact ho t rfl
  unfold loopHeader
  split <;> rw [Balanced, brackets_trimmedRight]
  · exact Balanced.append (by decide) (hgetD hcondition)
  · exact ((((Balanced.append (by decide) (hgetD hinit)).append (by decide)).append
      (hgetD hcondition)).append (by decide)).append (hgetD hpost)

/-- What is to be closed before a handler: each header but the first closes the one before it. -/
def outstanding (isFirst : Bool) (due : List Char) : List Char :=
  if isFirst then due else '}' :: due

lemma remaining_catchHeader (isFirst : Bool) {exceptionType : String} {binding : Option String}
    (htype : Balanced exceptionType) (hbinding : ∀ t ∈ binding, Balanced t) :
    remaining (outstanding isFirst due) (brackets (catchHeader isFirst exceptionType binding))
      = some ('}' :: due) := by
  have hname := balanced_presentText hbinding (show Balanced "_" by decide)
  unfold catchHeader
  simp only [brackets_append, remaining_append, htype.remaining_eq, hname.remaining_eq]
  cases isFirst <;> rfl

lemma nested_recoverLines {handlers : List String}
    (h : ∀ due, remaining due (handlers.flatMap brackets) = some ('}' :: due)) :
    Nested ((recoverLines handlers).flatMap brackets) := by
  refine nested_iff.2 ?_
  unfold recoverLines
  simp only [flatMap_append, remaining_append, h]
  decide +kernel

lemma nested_finallyLines (h : ∀ ls ∈ body, Nested (ls.flatMap brackets)) :
    Nested ((finallyLines body).flatMap brackets) := by
  cases body with
  | none => exact .nil
  | some ls =>
    refine nested_iff.2 ?_
    unfold finallyLines
    simp only [flatMap_append, flatMap_cons, remaining_append, (h ls rfl).remaining_eq]
    decide +kernel

lemma balanced_tryText {finallyPart recoverPart resourcePart closerPart body : List String}
    (hfinally : Nested (finallyPart.flatMap brackets))
    (hrecover : Nested (recoverPart.flatMap brackets))
    (hresource : Nested (resourcePart.flatMap brackets))
    (hcloser : Nested (closerPart.flatMap brackets)) (hbody : Nested (body.flatMap brackets)) :
    Balanced (tryText finallyPart recoverPart resourcePart closerPart body) := by
  refine balanced_iff.2 ?_
  unfold tryText
  simp only [brackets_unlines, flatMap_append, flatMap_cons,
    flatMap_brackets_indentLine, remaining_append, hfinally.remaining_eq, hrecover.remaining_eq,
    hresource.remaining_eq, hcloser.remaining_eq, hbody.remaining_eq]
  decide +kernel

lemma rendered_header (isDefault : Bool) (h : ∀ e ∈ values, Filled e.leaves) :
    (isDefault || values.all Expr.complete) = true
      ∧ Balanced (SwitchClause.header values isDefault) := by
  obtain ⟨hcomplete, hvalues⟩ := rendered_values h
  refine ⟨by simp [hcomplete], ?_⟩
  unfold SwitchClause.header
  split
  · exact (by decide)
  · exact (Balanced.append (by decide) hvalues).append (by decide)

lemma brackets_handlerLine :
    brackets (if line.isEmpty then "" else "\t\t" ++ line) = brackets line := by
  split
  · simp_all
  · rw [brackets_append]
    rfl

end

mutual
theorem rendered_text : ∀ s : Stmt, Filled s.leaves → s.complete = true ∧ Balanced s.text
  | .hole, h => absurd h not_filled_none
  | .raw _, h => ⟨rfl, (filled_cons.1 h).1⟩
  | .comment comments, h => by
    refine ⟨rfl, ?_⟩
    rw [text, Balanced, brackets_unlines, flatMap_assoc]
    simp only [flatMap_brackets_commentLines]
    exact Nested.flatMap (filled_map_some.1 h)
  | .var name type value short, h => by
    simp only [leaves, filled_cons, filled_append, filled_optionLeaves] at h
    obtain ⟨hcomplete, hvalue⟩ := rendered_value h.2
    exact ⟨hcomplete, balanced_varText short h.1.1 h.1.2 hvalue⟩
  | .assign target value, h => by
    simp only [leaves, filled_append] at h
    obtain ⟨ht, htarget⟩ := Expr.rendered_text h.1
    obtain ⟨hv, hvalue⟩ := Expr.rendered_bare value h.2
    exact ⟨by simp [complete, ht, hv], (htarget.append (by decide)).append hvalue⟩
  | .step target operator, h => by
    simp only [leaves, filled_append, filled_cons] at h
    obtain ⟨hcomplete, htarget⟩ := Expr.rendered_text h.1
    exact ⟨hcomplete, htarget.append h.2.1⟩
  | .call value, h => Expr.rendered_text (e := value) h
  | .ret values, h => by
    obtain ⟨hcomplete, hvalues⟩ := rendered_values (filled_flatMap.1 h)
    refine ⟨hcomplete, ?_⟩
    rw [text]
    split
    · exact (by decide)
    · exact Balanced.append (by decide) hvalues
  | .block body, h => by
    obtain ⟨hcomplete, hbody⟩ := rendered_blockLines body h
    refine ⟨hcomplete, balanced_iff.2 ?_⟩
    simp only [text, brackets_unlines, flatMap_append, flatMap_cons, cons_append,
      remaining_append, hbody.remaining_eq]
    decide +kernel
  | .labeled label statement, h => by
    simp only [leaves, filled_cons] at h
    obtain ⟨hcomplete, hstatement⟩ := rendered_text statement h.2
    exact ⟨hcomplete, (h.1.append (by decide)).append hstatement⟩
  | .cond condition body none, h => by
    simp only [leaves, filled_append] at h
    obtain ⟨hc, hcondition⟩ := Expr.rendered_bare condition h.1
    obtain ⟨hb, hbody⟩ := rendered_blockLines body h.2
    refine ⟨by simp [complete, hc, hb], ?_⟩
    exact balanced_blockText (Balanced.append (by decide) hcondition) hbody
  | .cond condition body (some elseBody), h => by
    simp only [leaves, filled_append] at h
    obtain ⟨hc, hcondition⟩ := Expr.rendered_bare condition h.1.1
    obtain ⟨hb, hbody⟩ := rendered_blockLines body h.1.2
    obtain ⟨he, helse⟩ := rendered_blockLines elseBody h.2
    have hfirst := balanced_blockText (Balanced.append (s := "if ") (by decide) hcondition) hbody
    refine ⟨by simp [complete, hc, hb, he], hfirst.append ?_⟩
    split
    next chained hsole =>
      exact Balanced.append (by decide) (balanced_soleCond elseBody h.2 chained hsole)
    next => exact Balanced.append (by decide) (balanced_blockText (by decide) helse)
  | .loop init condition post body, h => by
    simp only [leaves, filled_append] at h
    obtain ⟨hi, hinit⟩ := rendered_optionText init h.1.1.1
    obtain ⟨hc, hcondition⟩ := rendered_value h.1.1.2
    obtain ⟨hp, hpost⟩ := rendered_optionText post h.1.2
    obtain ⟨hb, hbody⟩ := rendered_blockLines body h.2
    refine ⟨by simp [complete, hi, hc, hp, hb], ?_⟩
    refine balanced_blockText (balanced_loopHeader hinit ?_ hpost) hbody
    simpa using hcondition
  | .range key value iterable body, h => by
    simp only [leaves, filled_append, filled_cons] at h
    obtain ⟨hi, hiterable⟩ := Expr.rendered_bare iterable h.1.2.2
    obtain ⟨hb, hbody⟩ := rendered_blockLines body h.2
    refine ⟨by simp [complete, hi, hb], balanced_blockText ?_ hbody⟩
    exact ((((Balanced.append (by decide) h.1.1).append (by decide)).append h.1.2.1).append
      (by decide)).append hiterable
  | .switch value clauses, h => by
    simp only [leaves, filled_append] at h
    obtain ⟨hv, hvalue⟩ := rendered_value h.1
    obtain ⟨hc, hclauses⟩ := rendered_clauses clauses h.2
    refine ⟨by simp [complete, hv, hc], balanced_iff.2 ?_⟩
    cases value with
    | none =>
      simp only [text, brackets_unlines, flatMap_append, flatMap_cons,
        cons_append, remaining_append, hclauses.remaining_eq]
      decide +kernel
    | some v =>
      simp only [text, brackets_unlines, flatMap_append, flatMap_cons,
        cons_append, brackets_append, remaining_append, hclauses.remaining_eq,
        (hvalue v rfl).remaining_eq]
      decide +kernel
  | .tryCatch body catches finallyBody resources closers, h => by
    simp only [leaves, filled_append, filled_flatMap] at h
    obtain ⟨hb, hbody⟩ := rendered_blockLines body h.1.1.1.1
    obtain ⟨hc, hcatches⟩ := rendered_catches catches h.1.1.1.2
    obtain ⟨hf, hfinally⟩ := rendered_optionLines finallyBody h.1.1.2
    obtain ⟨hr, hresources⟩ := rendered_plainLines resources h.1.2
    have hclosers : closers.all Expr.complete = true :=
      all_eq_true.2 fun e he => (Expr.rendered_text (h.2 e he)).1
    refine ⟨by simp [complete, hb, hc, hf, hr, hclosers], ?_⟩
    refine balanced_tryText (nested_finallyLines hfinally) ?_ hresources ?_ hbody
    · split
      · exact .nil
      · next hne =>
        exact nested_recoverLines fun due => hcatches true due fun _ => by simpa using hne
    · rw [flatMap_map]
      refine Nested.flatMap fun e he => ?_
      exact (Balanced.append (by decide) (Expr.rendered_text (h.2 e he)).2).append (by decide)

theorem rendered_optionText : ∀ o : Option Stmt, Filled (leavesOption o) →
    completeOption o = true ∧ ∀ t ∈ optionText o, Balanced t
  | none, _ => ⟨rfl, by simp [optionText]⟩
  | some s, h => by simpa [optionText, completeOption] using rendered_text s h

theorem rendered_blockLines : ∀ ss : List Stmt, Filled (leavesAll ss) →
    completeAll ss = true ∧ Nested ((blockLines ss).flatMap brackets)
  | [], _ => ⟨rfl, .nil⟩
  | s :: ss, h => by
    simp only [leavesAll, filled_append] at h
    obtain ⟨hc, hs⟩ := rendered_text s h.1
    obtain ⟨hcs, hss⟩ := rendered_blockLines ss h.2
    refine ⟨by simp [completeAll, hc, hcs], ?_⟩
    rw [blockLines, flatMap_append, flatMap_brackets_indented]
    exact Nested.append hs hss

theorem rendered_optionLines : ∀ o : Option (List Stmt), Filled (leavesBody o) →
    completeBody o = true ∧ ∀ ls ∈ optionLines o, Nested (ls.flatMap brackets)
  | none, _ => ⟨rfl, by simp [optionLines]⟩
  | some ss, h => by simpa [optionLines, completeBody] using rendered_blockLines ss h

theorem rendered_plainLines : ∀ ss : List Stmt, Filled (leavesAll ss) →
    completeAll ss = true ∧ Nested ((plainLines ss).flatMap brackets)
  | [], _ => ⟨rfl, .nil⟩
  | s :: ss, h => by
    simp only [leavesAll, filled_append] at h
    obtain ⟨hc, hs⟩ := rendered_text s h.1
    obtain ⟨hcs, hss⟩ := rendered_plainLines ss h.2
    refine ⟨by simp [completeAll, hc, hcs], ?_⟩
    rw [plainLines, flatMap_append, flatMap_brackets_lines]
    exact Nested.append hs hss

theorem balanced_soleCond : ∀ ss : List Stmt, Filled (leavesAll ss) →
    ∀ t, soleCond ss = some t → Balanced t
  | [], _, t, ht => by simp [soleCond] at ht
  | [s], h, t, ht => by
    simp only [leavesAll, filled_append] at h
    simp only [soleCond, Option.ite_none_right_eq_some, Option.some.injEq] at ht
    exact ht.2 ▸ (rendered_text s h.1).2
  | _ :: _ :: _, _, t, ht => by simp [soleCond] at ht

theorem rendered_clauses : ∀ clauses : List SwitchClause, Filled (leavesClauses clauses) →
    completeClauses clauses = true ∧ Nested ((clauseLines clauses).flatMap brackets)
  | [], _ => ⟨rfl, .nil⟩
  | .mk values body fallsThrough isDefault :: clauses, h => by
    simp only [leavesClauses, filled_append, filled_flatMap] at h
    obtain ⟨hh, hheader⟩ := rendered_header isDefault h.1.1
    obtain ⟨hb, hbody⟩ := rendered_blockLines body h.1.2
    obtain ⟨hc, hclauses⟩ := rendered_clauses clauses h.2
    refine ⟨by simp [completeClauses, hh, hb, hc], nested_iff.2 ?_⟩
    simp only [clauseLines, flatMap_append, flatMap_cons, cons_append,
      remaining_append, hheader.remaining_eq, hbody.remaining_eq, hclauses.remaining_eq]
    cases fallsThrough <;> decide +kernel

theorem rendered_catches : ∀ catches : List CatchClause, Filled (leavesCatches catches) →
    completeCatches catches = true
      ∧ ∀ isFirst due, (isFirst = true → catches ≠ []) →
        remaining (outstanding isFirst due) ((catchLines isFirst catches).flatMap brackets)
          = some ('}' :: due)
  | [], _ => by
    refine ⟨rfl, fun isFirst due hne => ?_⟩
    cases isFirst with
    | true => exact absurd rfl (hne rfl)
    | false => rfl
  | .mk exceptionType body binding :: catches, h => by
    simp only [leavesCatches, filled_append, filled_cons, filled_optionLeaves] at h
    obtain ⟨hb, hbody⟩ := rendered_blockLines body h.1.2
    obtain ⟨hc, hcatches⟩ := rendered_catches catches h.2
    refine ⟨by simp [completeCatches, hb, hc], fun isFirst due _ => ?_⟩
    have hrest := hcatches false due (by simp)
    simp only [catchLines, flatMap_append, flatMap_cons, cons_append,
      flatMap_map, brackets_handlerLine, remaining_append,
      remaining_catchHeader isFirst h.1.1.1 h.1.1.2, hbody.remaining_eq, Option.bind_some]
    exact hrest
end

end Stmt

end JavaToGo.Code
