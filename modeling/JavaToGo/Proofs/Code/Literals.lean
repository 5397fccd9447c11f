import JavaToGo.Lowering.Literal
import JavaToGo.Proofs.Code.Indentation

/-!
# Literals in rendered statements

A statement is indented after it was rendered, by cutting its text into lines, so
a literal of several lines is cut with it and its lines move.
-/

namespace JavaToGo.Code

open List Text

/-- A place where text is taken as it is. -/
structure Spot where
  source : String
  /-- How many steps further in it is written than the text that it belongs to. -/
  depth : Nat := 0
  inHeader : Bool := false
  omitted : Bool := false
deriving DecidableEq, Repr

namespace Spot

def deeper (s : Spot) : Spot :=
  { s with depth := s.depth + 1 }

def heading (s : Spot) : Spot :=
  { s with inHeader := true }

def dropped (s : Spot) : Spot :=
  { s with omitted := true }

/-- The text of a spot after it was moved in. -/
def written (s : Spot) : List Char :=
  moved^[s.depth] s.source.toList

/-- Something is written that neither begins nor ends with a line break; at the end of a header
it does not end with a blank either. -/
structure Stands (s : Spot) : Prop where
  kept : s.omitted = false
  firm : Firm s.source.toList
  solid : s.inHeader = true → ∀ c ∈ s.source.toList.getLast?, Text.isBlank c = false

lemma written_deeper (s : Spot) : s.deeper.written = moved s.written :=
  Function.iterate_succ_apply' ..

lemma Stands.of_deeper {s : Spot} (h : s.deeper.Stands) : s.Stands :=
  ⟨h.kept, h.firm, h.solid⟩

lemma Stands.firm_written {s : Spot} (h : s.Stands) : Firm s.written :=
  (h.firm.iterate s.depth).1

end Spot

/-! ### Texts that show spots -/

/-- Every spot that stands is found in the text. -/
def Shown (text : String) (spots : List Spot) : Prop :=
  ∀ s ∈ spots, s.Stands → s.written <:+: text.toList

def ShownAmong (texts : List String) (spots : List Spot) : Prop :=
  ∀ s ∈ spots, s.Stands → ∃ t ∈ texts, s.written <:+: t.toList

section

variable {t : String}

@[simp] lemma shown_nil : Shown s [] :=
  fun _ h => nomatch h

@[simp] lemma shown_append : Shown s (spots ++ more) ↔ Shown s spots ∧ Shown s more := by
  simp [Shown, or_imp, forall_and]

lemma Shown.mono (h : Shown s spots) (hst : s.toList <:+: t.toList) : Shown t spots :=
  fun spot hspot hstands => (h spot hspot hstands).trans hst

lemma Shown.left (h : Shown s spots) (t : String) : Shown (s ++ t) spots := by
  refine h.mono ?_
  rw [String.toList_append]
  exact (prefix_append ..).isInfix

lemma Shown.right (h : Shown t spots) (s : String) : Shown (s ++ t) spots := by
  refine h.mono ?_
  rw [String.toList_append]
  exact (suffix_append ..).isInfix

lemma shown_dropped (s : String) (spots : List Spot) : Shown s (spots.map Spot.dropped) := by
  intro spot hspot hstands
  obtain ⟨inner, -, rfl⟩ := mem_map.1 hspot
  exact absurd hstands.kept (by simp [Spot.dropped])

lemma Shown.lines (h : Shown (unlines ls) spots) (hls : ls <:+: ks) : Shown (unlines ks) spots := by
  refine h.mono ?_
  rw [toList_unlines, toList_unlines]
  exact infix_joined (hls.map _)

lemma Shown.line (h : Shown s spots) (hs : s ∈ ls) : Shown (unlines ls) spots := by
  have hsole : Shown (unlines [s]) spots := by
    exact h
  obtain ⟨before, after, rfl⟩ := append_of_mem hs
  exact hsole.lines ⟨before, after, by simp⟩

lemma toList_indentLine (line : String) : (indentLine line).toList = tabbed line.toList := by
  unfold indentLine tabbed
  by_cases hempty : line = ""
  · simp [hempty]
  · simp [hempty]

lemma map_toList_indentLine (ls : List String) :
    (ls.map indentLine).map String.toList = (ls.map String.toList).map tabbed := by
  simp [toList_indentLine]

lemma Shown.furtherIn (h : Shown s spots) : Shown (indentLine s) spots := by
  unfold Code.indentLine
  split
  · rename_i hempty
    rwa [String.isEmpty_iff.1 hempty] at h
  · exact h.right "\t"

lemma Shown.indented (h : Shown s spots) :
    Shown (unlines (indented s)) (spots.map Spot.deeper) := by
  intro spot hspot hstands
  obtain ⟨inner, hinner, rfl⟩ := mem_map.1 hspot
  have hmoved := hstands.of_deeper.firm_written.infix_indent (h inner hinner hstands.of_deeper)
  rw [Text.indent_true] at hmoved
  rw [Spot.written_deeper, Text.toList_unlines, Code.indented, map_toList_indentLine]
  simpa [Text.lines] using hmoved

lemma Shown.map_indentLine (h : Shown (unlines ls) spots)
    (hls : ∀ l ∈ ls, ∀ c ∈ l.toList, isLineBreak c = false) :
    Shown (unlines (ls.map indentLine)) (spots.map Spot.deeper) := by
  intro spot hspot hstands
  obtain ⟨inner, hinner, rfl⟩ := mem_map.1 hspot
  have hfound := h inner hinner hstands.of_deeper
  rw [toList_unlines] at hfound
  rw [Spot.written_deeper, toList_unlines, map_toList_indentLine]
  exact hstands.of_deeper.firm_written.infix_map_tabbed (by simpa using hls) hfound

lemma Shown.trimmedRight (h : Shown s spots) :
    Shown (Text.trimmedRight s) (spots.map Spot.heading) := by
  intro spot hspot hstands
  obtain ⟨inner, hinner, rfl⟩ := mem_map.1 hspot
  have hinside : inner.Stands := ⟨hstands.kept, hstands.firm, fun _ => hstands.solid rfl⟩
  rw [Text.trimmedRight, String.toList_ofList]
  refine Text.infix_trimRight ?_ (h inner hinner hinside)
  show ∀ c ∈ inner.written.getLast?, Text.isBlank c = false
  rw [Spot.written, (hinside.firm.iterate inner.depth).2]
  exact hstands.solid rfl

@[simp] lemma shownAmong_nil : ShownAmong ls [] :=
  fun _ h => nomatch h

lemma ShownAmong.cons (h : Shown s spots) (hrest : ShownAmong ls more) :
    ShownAmong (s :: ls) (spots ++ more) := by
  intro spot hspot hstands
  rcases mem_append.1 hspot with hspot | hspot
  · exact ⟨s, mem_cons_self, h spot hspot hstands⟩
  · obtain ⟨t, ht, hfound⟩ := hrest spot hspot hstands
    exact ⟨t, mem_cons_of_mem _ ht, hfound⟩

lemma ShownAmong.append (h : ShownAmong ls spots) (hmore : ShownAmong ls more) :
    ShownAmong ls (spots ++ more) := by
  intro spot hspot
  exact (mem_append.1 hspot).elim (h spot) (hmore spot)

lemma shownAmong_dropped (spots : List Spot) : ShownAmong ls (spots.map Spot.dropped) := by
  intro spot hspot hstands
  obtain ⟨inner, -, rfl⟩ := mem_map.1 hspot
  exact absurd hstands.kept (by simp [Spot.dropped])

lemma toList_infix_intercalate (sep : String) (hs : s ∈ ls) :
    s.toList <:+: (sep.intercalate ls).toList := by
  induction ls with
  | nil => cases hs
  | cons l ls ih =>
    cases ls with
    | nil =>
      obtain rfl := mem_singleton.1 hs
      simp
    | cons k ks =>
      rw [String.intercalate_cons_cons, String.toList_append, String.toList_append]
      rcases mem_cons.1 hs with rfl | hs
      · rw [append_assoc]
        exact (prefix_append ..).isInfix
      · exact (ih hs).trans (suffix_append ..).isInfix

lemma ShownAmong.intercalate (h : ShownAmong ls spots) (sep : String) :
    Shown (sep.intercalate ls) spots := by
  intro spot hspot hstands
  obtain ⟨t, ht, hfound⟩ := h spot hspot hstands
  exact hfound.trans (toList_infix_intercalate sep ht)

end

/-! ### Expressions -/

namespace Expr

mutual
/-- The places of an expression where text is taken as it is. -/
def spots : Expr → List Spot
  | .hole => []
  | .raw source => [{ source := source }]
  | .var _ => []
  | .field target _ => spots target
  | .call function args _ => spots function ++ spotsAll args
  | .callNamed _ args _ => spotsAll args
  | .binary left _ right => spots left ++ spots right
  | .unary _ operand => spots operand
  | .cast _ value => spots value
  | .assertion value _ => spots value
  | .index target position => spots target ++ spots position
  | .composite _ elements keys =>
    if keys.isEmpty then spotsAll elements else spotsUpTo keys.length elements
  | .typeTest value _ => spots value
  | .choice condition consequence alternative _ =>
    spots condition ++ spots consequence ++ spots alternative

def spotsAll : List Expr → List Spot
  | [] => []
  | e :: es => spots e ++ spotsAll es

def spotsUpTo : Nat → List Expr → List Spot
  | _, [] => []
  | 0, e :: es => (spots e).map Spot.dropped ++ spotsUpTo 0 es
  | n + 1, e :: es => spots e ++ spotsUpTo n es
end

lemma shown_parenthesized {spots : List Spot} {s : String} (e : Expr) (h : Shown s spots) :
    Shown (parenthesized e s) spots := by
  cases e <;> first | exact h | exact (h.right "(").left ")"

lemma shown_unaryOperand {spots : List Spot} {s : String} (e : Expr) (h : Shown s spots) :
    Shown (unaryOperand e s) spots := by
  cases e <;> first | exact (h.right "(").left ")" | exact shown_parenthesized _ h

lemma shown_callText {function : String} {args : List String} {spots more : List Spot}
    (hfunction : Shown function spots) (hargs : ShownAmong args more) (variadic : Bool) :
    Shown (callText function args variadic) (spots ++ more) := by
  have hlist := hargs.intercalate ", "
  rw [shown_append]
  constructor
  · exact (((hfunction.left "(").left _).left _).left ")"
  · exact ((hlist.right (function ++ "(")).left _).left ")"

lemma shown_assertionText {value : String} {spots : List Spot} (h : Shown value spots)
    (type : String) : Shown (assertionText value type) spots :=
  (((h.right _).left _).left _).left _

mutual
theorem shown_bare : ∀ e : Expr, Shown e.bare e.spots
  | .hole => by simp [spots]
  | .raw source => by
    intro spot hspot _
    rw [spots, mem_singleton] at hspot
    subst hspot
    exact infix_refl _
  | .var name => by simp [spots]
  | .field target name => by
    exact ((shown_parenthesized target (shown_bare target)).left ".").left name
  | .call function args variadic => by
    exact shown_callText (shown_parenthesized function (shown_bare function))
      (shownAmong_bareAll args) variadic
  | .callNamed function args variadic => by
    exact shown_callText (shown_nil : Shown function []) (shownAmong_bareAll args) variadic
  | .binary left operator right => by
    rw [bare, spots, shown_append]
    constructor
    · exact ((((shown_parenthesized left (shown_bare left)).left _).left _).left _).left _
    · exact (shown_parenthesized right (shown_bare right)).right _
  | .unary operator operand => by
    exact (shown_unaryOperand operand (shown_bare operand)).right operator
  | .cast type value => by
    exact ((shown_bare value).right _).left ")"
  | .assertion value type => by
    exact shown_assertionText (shown_bare value) type
  | .index target position => by
    rw [bare, spots, shown_append]
    constructor
    · exact (((shown_parenthesized target (shown_bare target)).left _).left _).left _
    · exact ((shown_bare position).right _).left _
  | .composite type elements keys => by
    rw [bare, spots, items]
    split
    · exact (((shownAmong_bareAll elements).intercalate ", ").right _).left _
    · exact (((shownAmong_zip elements keys).intercalate ", ").right _).left _
  | .typeTest value type => by
    exact ((shown_assertionText (shown_bare value) type).right _).left _
  | .choice condition consequence alternative type => by
    rw [bare, spots, shown_append, shown_append]
    refine ⟨⟨?_, ?_⟩, ?_⟩
    · exact (((((shown_bare condition).right _).left _).left _).left _).left _ |>.left _
    · exact ((((shown_bare consequence).right _).left _).left _).left _
    · exact ((shown_bare alternative).right _).left _

theorem shownAmong_bareAll : ∀ es : List Expr, ShownAmong (bareAll es) (spotsAll es)
  | [] => by simp [spotsAll]
  | e :: es => by
    exact (shownAmong_bareAll es).cons (shown_bare e)

theorem shownAmong_zip : ∀ (es : List Expr) (keys : List String),
    ShownAmong ((keys.zip (bareAll es)).map fun p => p.1 ++ ": " ++ p.2) (spotsUpTo keys.length es)
  | [], keys => by simp [spotsUpTo]
  | e :: es, [] => by
    exact (shownAmong_dropped _).append (shownAmong_zip es [])
  | e :: es, key :: keys => by
    exact (shownAmong_zip es keys).cons ((shown_bare e).right _)
end

lemma shown_text (e : Expr) : Shown e.text e.spots :=
  shown_parenthesized e (shown_bare e)

lemma shownAmong_map_bare (es : List Expr) : ShownAmong (es.map bare) (es.flatMap spots) := by
  induction es with
  | nil => simp
  | cons e es ih => exact ih.cons (shown_bare e)

end Expr

/-! ### Statements -/

namespace Stmt

mutual
/-- The places of a statement where text is taken as it is, with their depths. -/
def spots : Stmt → List Spot
  | .hole => []
  | .raw _ => []
  | .comment _ => []
  | .var _ _ value _ => value.toList.flatMap Expr.spots
  | .assign target value => target.spots ++ value.spots
  | .step target _ => target.spots
  | .call value => value.spots
  | .ret values => values.flatMap Expr.spots
  | .block body => blockSpots body
  | .labeled _ statement => spots statement
  | .cond condition body none => condition.spots ++ blockSpots body
  | .cond condition body (some elseBody) =>
    condition.spots ++ blockSpots body ++ (soleSpots elseBody).getD (blockSpots elseBody)
  | .loop init condition post body =>
    (optionSpots init ++ condition.toList.flatMap Expr.spots ++ optionSpots post).map Spot.heading
      ++ blockSpots body
  | .range _ _ iterable body => iterable.spots ++ blockSpots body
  | .switch value clauses => value.toList.flatMap Expr.spots ++ clauseSpots clauses
  | .tryCatch body catches finallyBody resources closers =>
    (finallySpots finallyBody).map Spot.deeper ++ (catchSpots catches).map Spot.deeper
      ++ blockSpots resources ++ closers.flatMap Expr.spots ++ blockSpots body

def optionSpots : Option Stmt → List Spot
  | none => []
  | some s => spots s

def blockSpots : List Stmt → List Spot
  | [] => []
  | s :: ss => (spots s).map Spot.deeper ++ blockSpots ss

def finallySpots : Option (List Stmt) → List Spot
  | none => []
  | some ss => blockSpots ss

def soleSpots : List Stmt → Option (List Spot)
  | [s] => if isCond s then some (spots s) else none
  | _ => none

def clauseSpots : List SwitchClause → List Spot
  | [] => []
  | .mk values body _ isDefault :: clauses =>
    (if isDefault then (values.flatMap Expr.spots).map Spot.dropped else values.flatMap Expr.spots)
      ++ blockSpots body ++ clauseSpots clauses

def catchSpots : List CatchClause → List Spot
  | [] => []
  | .mk _ body _ :: catches =>
    ((blockSpots body).map Spot.deeper).map Spot.deeper ++ catchSpots catches
end

def NoBreak (line : String) : Prop :=
  ∀ c ∈ line.toList, Text.isLineBreak c = false

lemma noBreak_indentLine (h : NoBreak line) : NoBreak (indentLine line) := by
  intro c hc
  rw [toList_indentLine] at hc
  unfold tabbed at hc
  split at hc
  · cases hc
  · rcases mem_cons.1 hc with rfl | hc
    · decide
    · exact h c hc

lemma noBreak_of_mem_map {ls : List String} (h : ∀ l ∈ ls, NoBreak l) :
    ∀ l ∈ ls.map indentLine, NoBreak l := by
  intro l hl
  obtain ⟨inner, hinner, rfl⟩ := mem_map.1 hl
  exact noBreak_indentLine (h inner hinner)

lemma noBreak_indented {text : String} (h : line ∈ indented text) : NoBreak line := by
  obtain ⟨inner, hinner, rfl⟩ := mem_map.1 h
  obtain ⟨cs, hcs, rfl⟩ := mem_map.1 hinner
  refine noBreak_indentLine fun c hc => ?_
  rw [String.toList_ofList] at hc
  exact mem_linesOf_noBreak _ cs hcs c hc

lemma noBreak_blockLines (h : line ∈ blockLines ss) : NoBreak line := by
  rw [blockLines_eq_flatMap] at h
  obtain ⟨s, -, hline⟩ := mem_flatMap.1 h
  exact noBreak_indented hline

lemma map_indentLine_plainLines (ss : List Stmt) :
    (plainLines ss).map indentLine = blockLines ss := by
  induction ss with
  | nil => rfl
  | cons s ss ih =>
    rw [plainLines, map_append, ih]
    rfl

lemma shown_blockText {header : String} {lines : List String} {spots more : List Spot}
    (hheader : Shown header spots) (hlines : Shown (unlines lines) more) :
    Shown (blockText header lines) (spots ++ more) := by
  rw [shown_append]
  constructor
  · exact (hheader.left " \x7b").line mem_cons_self
  · exact hlines.lines ⟨[header ++ " \x7b"], ["\x7d"], by simp⟩

lemma shown_varText (name : String) (type : Option String) (value : Option Expr) (short : Bool) :
    Shown (varText name type value short) (value.toList.flatMap Expr.spots) := by
  cases value with
  | none => exact shown_nil
  | some v =>
    rw [Option.toList_some, flatMap_singleton]
    have hv := v.shown_bare
    cases type with
    | none => exact hv.right _
    | some t => cases short <;> exact hv.right _

lemma shown_loopHeader {init condition post : Option String} (hinit : Shown (init.getD "") a)
    (hcondition : Shown (condition.getD "") b) (hpost : Shown (post.getD "") c) :
    Shown (loopHeader init condition post) ((a ++ b ++ c).map Spot.heading) := by
  have hfull : Shown ("for " ++ init.getD "" ++ "; " ++ condition.getD "" ++ "; " ++ post.getD "")
      (a ++ b ++ c) := by
    rw [shown_append, shown_append]
    exact ⟨⟨((((hinit.right _).left _).left _).left _).left _,
      ((hcondition.right _).left _).left _⟩, hpost.right _⟩
  unfold loopHeader
  split
  · refine Shown.trimmedRight ?_
    rw [shown_append, shown_append]
    exact ⟨⟨hinit.mono nil_infix, hcondition.right _⟩, hpost.mono nil_infix⟩
  · exact hfull.trimmedRight

lemma shown_header (values : List Expr) (isDefault : Bool) :
    Shown (SwitchClause.header values isDefault)
      (if isDefault then (values.flatMap Expr.spots).map Spot.dropped
        else values.flatMap Expr.spots) := by
  cases isDefault with
  | true => exact shown_dropped _ _
  | false => exact (((Expr.shownAmong_map_bare values).intercalate _).right _).left _

lemma soleSpots_eq_none (h : soleCond ss = none) : soleSpots ss = none := by
  fun_cases soleCond ss with
  | case1 s hcond => simp [soleCond, hcond] at h
  | case2 s hcond => simp [soleSpots, hcond]
  | case3 ss hother => rw [soleSpots] ; exact hother

lemma shown_closers (closers : List Expr) :
    Shown
      (unlines ((closers.map fun closer => "defer " ++ closer.text ++ ".Close()").map indentLine))
      (closers.flatMap Expr.spots) := by
  intro spot hspot
  obtain ⟨closer, hcloser, hspot⟩ := mem_flatMap.1 hspot
  have hline : Shown (indentLine ("defer " ++ closer.text ++ ".Close()")) closer.spots :=
    ((closer.shown_text.right _).left _).furtherIn
  refine hline.line ?_ spot hspot
  exact mem_map_of_mem (mem_map.2 ⟨closer, hcloser, rfl⟩)

lemma shown_tryText {finallyPart recoverPart resourcePart closerPart : List String}
    (ha : Shown (unlines (finallyPart.map indentLine)) a)
    (hb : Shown (unlines (recoverPart.map indentLine)) b)
    (hc : Shown (unlines (resourcePart.map indentLine)) c)
    (hd : Shown (unlines (closerPart.map indentLine)) d) (he : Shown (unlines body) e) :
    Shown (tryText finallyPart recoverPart resourcePart closerPart body)
      (a ++ b ++ c ++ d ++ e) := by
  unfold tryText
  simp only [map_append, shown_append]
  generalize finallyPart.map indentLine = F at *
  generalize recoverPart.map indentLine = R at *
  generalize resourcePart.map indentLine = P at *
  generalize closerPart.map indentLine = C at *
  refine ⟨⟨⟨⟨?_, ?_⟩, ?_⟩, ?_⟩, ?_⟩
  · exact ha.lines ⟨["func() \x7b"], R ++ P ++ C ++ body ++ ["\x7d()"], by simp⟩
  · exact hb.lines ⟨"func() \x7b" :: F, P ++ C ++ body ++ ["\x7d()"], by simp⟩
  · exact hc.lines ⟨"func() \x7b" :: F ++ R, C ++ body ++ ["\x7d()"], by simp⟩
  · exact hd.lines ⟨"func() \x7b" :: F ++ R ++ P, body ++ ["\x7d()"], by simp⟩
  · exact he.lines ⟨"func() \x7b" :: F ++ R ++ P ++ C, ["\x7d()"], by simp⟩

lemma map_twice (ls : List String) :
    ls.map (fun line => if line.isEmpty then "" else "\t\t" ++ line)
      = (ls.map indentLine).map indentLine := by
  rw [map_map]
  refine map_congr_left fun line _ => ?_
  unfold indentLine
  by_cases hempty : line = ""
  · simp [hempty]
  · simp [hempty, ← String.append_assoc]

mutual
theorem shown_text : ∀ s : Stmt, Shown s.text s.spots
  | .hole => by simp [spots]
  | .raw source => by simp [spots]
  | .comment comments => by simp [spots]
  | .var name type value short => by
    exact shown_varText name type value short
  | .assign target value => by
    rw [text, spots, shown_append]
    exact ⟨(target.shown_text.left _).left _, value.shown_bare.right _⟩
  | .step target operator => by
    exact target.shown_text.left operator
  | .call value => by
    exact value.shown_text
  | .ret values => by
    cases values with
    | nil => exact shown_nil
    | cons v vs => exact ((Expr.shownAmong_map_bare (v :: vs)).intercalate ", ").right _
  | .block body => by
    exact (shown_blockLines body).lines ⟨["\x7b"], ["\x7d"], by simp⟩
  | .labeled label statement => by
    exact (shown_text statement).right _
  | .cond condition body none => by
    exact shown_blockText (condition.shown_bare.right _) (shown_blockLines body)
  | .cond condition body (some elseBody) => by
    rw [text, spots, shown_append]
    refine ⟨(shown_blockText (condition.shown_bare.right _) (shown_blockLines body)).left _, ?_⟩
    cases hsole : soleCond elseBody with
    | none =>
      rw [soleSpots_eq_none hsole]
      have helse := shown_blockText (shown_nil : Shown "else" []) (shown_blockLines elseBody)
      exact (helse.right _).right _
    | some =>
      obtain ⟨sole, hspots, hchained⟩ := shown_soleCond elseBody hsole
      rw [hspots]
      exact (hchained.right _).right _
  | .loop init condition post body => by
    refine shown_blockText (shown_loopHeader (shown_optionText init) ?_ (shown_optionText post))
      (shown_blockLines body)
    cases condition with
    | none => exact shown_nil
    | some e =>
      rw [Option.toList_some, flatMap_singleton]
      exact e.shown_bare
  | .range key value iterable body => by
    exact shown_blockText (iterable.shown_bare.right _) (shown_blockLines body)
  | .switch none clauses => by
    exact (shown_clauseLines clauses).lines ⟨["switch \x7b"], ["\x7d"], by simp⟩
  | .switch (some value) clauses => by
    rw [spots, Option.toList_some, flatMap_singleton]
    exact shown_blockText (value.shown_bare.right _) (shown_clauseLines clauses)
  | .tryCatch body catches finallyBody resources closers => by
    have hfinally : Shown (unlines ((finallyLines (optionLines finallyBody)).map indentLine))
        ((finallySpots finallyBody).map Spot.deeper) := shown_finallyLines finallyBody
    have hcatches : Shown
        (unlines ((if catches.isEmpty then [] else recoverLines (catchLines true catches)).map
          indentLine))
        ((catchSpots catches).map Spot.deeper) := by
      cases catches with
      | nil => exact shown_nil
      | cons clause rest =>
        have hlines := shown_catchLines true (clause :: rest)
        refine hlines.lines (List.IsInfix.map indentLine ?_)
        exact ⟨_, _, rfl⟩
    have hresources := shown_blockLines resources
    rw [← map_indentLine_plainLines] at hresources
    have hclosers := shown_closers closers
    exact shown_tryText hfinally hcatches hresources hclosers (shown_blockLines body)

theorem shown_blockLines : ∀ ss : List Stmt, Shown (unlines (blockLines ss)) (blockSpots ss)
  | [] => by simp [blockSpots]
  | s :: ss => by
    rw [blockSpots, shown_append]
    exact ⟨(shown_text s).indented.lines (prefix_append ..).isInfix,
      (shown_blockLines ss).lines (suffix_append ..).isInfix⟩

theorem shown_optionText : ∀ s : Option Stmt, Shown ((optionText s).getD "") (optionSpots s)
  | none => shown_nil
  | some s => shown_text s

theorem shown_soleCond : ∀ (ss : List Stmt) {chained : String}, soleCond ss = some chained →
    ∃ sole, soleSpots ss = some sole ∧ Shown chained sole
  | [], chained, h => nomatch h
  | [s], chained, h => by
    rw [soleCond] at h
    split at h
    · rename_i hcond
      obtain rfl := Option.some.inj h
      exact ⟨spots s, if_pos hcond, shown_text s⟩
    · cases h
  | _ :: _ :: _, chained, h => nomatch h

theorem shown_finallyLines : ∀ body : Option (List Stmt),
    Shown (unlines ((finallyLines (optionLines body)).map indentLine))
      ((finallySpots body).map Spot.deeper)
  | none => shown_nil
  | some ss => by
    have hmoved := (shown_blockLines ss).map_indentLine fun _ => noBreak_blockLines
    refine hmoved.lines (List.IsInfix.map indentLine ?_)
    exact ⟨["defer func() \x7b"], ["\x7d()"], rfl⟩

theorem shown_clauseLines : ∀ clauses : List SwitchClause,
    Shown (unlines (clauseLines clauses)) (clauseSpots clauses)
  | [] => shown_nil
  | .mk values body fallsThrough isDefault :: clauses => by
    rw [clauseLines, clauseSpots, shown_append, shown_append]
    refine ⟨⟨?_, ?_⟩, ?_⟩
    · exact (shown_header values isDefault).line (by simp)
    · exact (shown_blockLines body).lines ⟨[SwitchClause.header values isDefault],
        (if fallsThrough then ["\tfallthrough"] else []) ++ clauseLines clauses, by simp⟩
    · exact (shown_clauseLines clauses).lines (suffix_append ..).isInfix

theorem shown_catchLines : ∀ (isFirst : Bool) (catches : List CatchClause),
    Shown (unlines ((catchLines isFirst catches).map indentLine))
      ((catchSpots catches).map Spot.deeper)
  | _, [] => shown_nil
  | isFirst, .mk exceptionType body binding :: catches => by
    rw [catchLines, catchSpots, map_append, map_append, shown_append, map_twice]
    constructor
    · have hlines : ∀ line ∈ blockLines body, NoBreak line := fun _ => noBreak_blockLines
      have hmoved := ((shown_blockLines body).map_indentLine hlines).map_indentLine
        (noBreak_of_mem_map hlines)
      have hagain := hmoved.map_indentLine (noBreak_of_mem_map (noBreak_of_mem_map hlines))
      exact hagain.lines ⟨[indentLine (catchHeader isFirst exceptionType binding)],
        (catchLines false catches).map indentLine, by simp⟩
    · exact (shown_catchLines false catches).lines (suffix_append ..).isInfix
end

lemma depth_pos_of_mem_blockSpots (h : spot ∈ blockSpots ss) : 0 < spot.depth := by
  induction ss with
  | nil => cases h
  | cons s ss ih =>
    rcases mem_append.1 h with h | h
    · obtain ⟨inner, -, rfl⟩ := mem_map.1 h
      exact Nat.succ_pos _
    · exact ih h

end Stmt

/-! ### String literals -/

lemma quoted_string (body : String) :
    ∃ q ∈ ['"', '`'], (Literal.string ("\"" ++ body ++ "\"")).toList.head? = some q
      ∧ (Literal.string ("\"" ++ body ++ "\"")).toList.getLast? = some q := by
  unfold Literal.string
  split
  · refine ⟨'`', by decide, ?_⟩
    rw [Literal.raw, String.toList_append, String.toList_append]
    exact ⟨rfl, getLast?_concat⟩
  · refine ⟨'"', by decide, ?_⟩
    rw [String.toList_append, String.toList_append]
    exact ⟨rfl, getLast?_concat⟩

lemma firm_string (body : String) :
    Firm (Literal.string ("\"" ++ body ++ "\"")).toList
      ∧ ∀ c ∈ (Literal.string ("\"" ++ body ++ "\"")).toList.getLast?, isBlank c = false := by
  obtain ⟨q, hq, hfirst, hlast⟩ := quoted_string body
  have hplain : isLineBreak q = false ∧ isBlank q = false := by
    rcases mem_cons.1 hq with rfl | hq
    · decide
    · obtain rfl := mem_singleton.1 hq
      decide
  have hquote : ∀ c ∈ some q, isLineBreak c = false ∧ isBlank c = false := by
    intro c hc
    obtain rfl := Option.some.inj hc
    exact hplain
  rw [hlast]
  refine ⟨⟨?_, ?_⟩, fun c hc => (hquote c hc).2⟩
  · rw [hfirst]
    exact fun c hc => (hquote c hc).1
  · rw [hlast]
    exact fun c hc => (hquote c hc).1

/-- Every text that is taken as it is is found in the lines of the block. -/
def Verbatim (ss : List Stmt) : Prop :=
  ∀ spot ∈ Stmt.blockSpots ss, spot.source.toList <:+: (unlines (Stmt.blockLines ss)).toList

instance (ss : List Stmt) : Decidable (Verbatim ss) :=
  inferInstanceAs (Decidable (∀ spot ∈ Stmt.blockSpots ss,
    spot.source.toList <:+: (unlines (Stmt.blockLines ss)).toList))

/-- A literal is found in the lines of a block with the lines behind its first one as deep as the
literal stands, so it is found as it is exactly when it has no line break.  This holds for all that
is written and neither begins nor ends with a break, string literals and text blocks among it. -/
theorem literal_in_block {ss : List Stmt} {spot : Spot} (hspot : spot ∈ Stmt.blockSpots ss)
    (hstands : spot.Stands
      ∨ spot.omitted = false ∧ ∃ body, spot.source = Literal.string ("\"" ++ body ++ "\"")) :
    spot.written <:+: (unlines (Stmt.blockLines ss)).toList
      ∧ (spot.written = spot.source.toList
        ↔ ∀ c ∈ spot.source.toList, Text.isLineBreak c = false) := by
  have hall : spot.Stands := by
    rcases hstands with hstands | ⟨hkept, body, hsource⟩
    · exact hstands
    · obtain ⟨hfirm, hsolid⟩ := firm_string body
      rw [← hsource] at hfirm hsolid
      exact ⟨hkept, hfirm, fun _ => hsolid⟩
  exact ⟨Stmt.shown_blockLines ss spot hspot hall,
    hall.firm.moved_iterate_eq_iff (Stmt.depth_pos_of_mem_blockSpots hspot)⟩

def noteLoop : List Stmt :=
  [.loop none (some (.var "open")) none
    [.call (.callNamed "print" [.raw (Literal.string "\"\"\"\na\nb\"\"\"")] false)]]

theorem literal_in_noteLoop :
    (Literal.string "\"\"\"\na\nb\"\"\"" = "`a\nb`"
        ∧ { source := "`a\nb`", depth := 2 } ∈ Stmt.blockSpots noteLoop)
      ∧ "`a\n\t\tb`".toList <:+: (unlines (Stmt.blockLines noteLoop)).toList := by
  have hliteral : Literal.string ("\"" ++ "\"\"\na\nb\"\"" ++ "\"") = "`a\nb`" := by decide +kernel
  have hspot : { source := "`a\nb`", depth := 2 } ∈ Stmt.blockSpots noteLoop := by decide +kernel
  have hfound := (literal_in_block hspot (.inr ⟨rfl, _, hliteral.symm⟩)).1
  exact ⟨⟨hliteral, hspot⟩, hfound⟩

/-- A text block of two lines changes in any block; the values of a default clause, elements
without a key and blanks at the end of the header of a loop are not written. -/
theorem not_verbatim :
    ¬ Verbatim [.ret [.raw (Literal.string "\"\"\"\na\nb\"\"\"")]]
      ∧ ¬ Verbatim [.switch (some (.var "x")) [.mk [.raw "1"] [] false true]]
      ∧ ¬ Verbatim [.call (.composite "Pair" [.raw "1", .raw "2"] ["first"])]
      ∧ ¬ Verbatim [.loop none (some (.raw "x\t")) none []] := by
  decide +kernel

end JavaToGo.Code
