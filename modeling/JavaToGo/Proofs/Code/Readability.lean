import JavaToGo.Code.Expr
import Mathlib.Tactic.Lemma

/-!
# Reading expressions back

The text of an expression leaves parentheses out where it can, and a reader that
looks at the next character only finds the expression again.
-/

namespace JavaToGo.Code

open List

namespace Expr

def isUnary : Expr → Bool
  | .unary .. => true
  | _ => false

def unaryOperators : List String :=
  ["+", "-", "!", "^", "*", "&", "<-"]

def binaryOperators : List String :=
  ["||", "&&", "==", "!=", "<", "<=", ">", ">=", "+", "-", "|", "^", "*", "/", "%", "<<", ">>",
    "&", "&^"]

/-- Whether a character is a blank, a bracket, a point, a comma or part of an operator; no name of
Go holds one. -/
def isMark (c : Char) : Bool :=
  [' ', '.', ',', '(', ')', '[', ']', '+', '-', '*', '/', '%', '&', '|', '^', '<', '>', '=',
    '!'].contains c

/-- A text without the characters that end a name. -/
structure IsName (name : String) : Prop where
  nonempty : name.toList ≠ []
  unmarked : ∀ c ∈ name.toList, isMark c = false

/-- Names, fields, elements, calls and operators, where no unary expression is itself selected from,
indexed or called. -/
inductive Plain : Expr → Prop
  | var {name : String} (hname : IsName name) : Plain (.var name)
  | field {target : Expr} {name : String} (htarget : Plain target) (h : target.isUnary = false)
      (hname : IsName name) : Plain (.field target name)
  | index {target position : Expr} (htarget : Plain target) (h : target.isUnary = false)
      (hposition : Plain position) : Plain (.index target position)
  | call {function : Expr} {args : List Expr} (hfunction : Plain function)
      (h : function.isUnary = false) (hargs : ∀ arg ∈ args, Plain arg) :
      Plain (.call function args false)
  | binary {left right : Expr} {operator : String} (hleft : Plain left)
      (hoperator : operator ∈ binaryOperators) (hright : Plain right) :
      Plain (.binary left operator right)
  | unary {operator : String} {operand : Expr} (hoperator : operator ∈ unaryOperators)
      (hoperand : Plain operand) : Plain (.unary operator operand)

def nameIn (cs : List Char) : String :=
  String.ofList (cs.takeWhile fun c => !isMark c)

def behindName (cs : List Char) : List Char :=
  cs.dropWhile fun c => !isMark c

def operatorIn (cs : List Char) : String :=
  String.ofList (cs.takeWhile (· ≠ ' '))

def behindOperator (cs : List Char) : List Char :=
  (cs.dropWhile (· ≠ ' ')).tail

def unaryIn? (cs : List Char) : Option String :=
  unaryOperators.find? fun operator => operator.toList.isPrefixOf cs

mutual
/-- Reads an expression that has no parentheses of its own. -/
def readBare : Nat → List Char → Option (Expr × List Char)
  | 0, _ => none
  | fuel + 1, cs =>
    (readOperand fuel cs).bind fun left =>
      if left.2.head? = some ' ' then
        (readOperand fuel (behindOperator left.2.tail)).map fun right =>
          (.binary left.1 (operatorIn left.2.tail) right.1, right.2)
      else some left

/-- Reads an operand with the unary operators before it. -/
def readOperand : Nat → List Char → Option (Expr × List Char)
  | 0, _ => none
  | fuel + 1, cs =>
    (unaryIn? cs).elim (readChain fuel cs) fun operator =>
      (readChain fuel (cs.drop operator.length)).map fun whole =>
        (.unary operator whole.1, whole.2)

/-- Reads a primary expression with what is selected from it. -/
def readChain : Nat → List Char → Option (Expr × List Char)
  | 0, _ => none
  | fuel + 1, cs =>
    (readPrimary fuel cs).bind fun first =>
      if first.1.isUnary then some first else readSuffixes fuel first.1 first.2

def readPrimary : Nat → List Char → Option (Expr × List Char)
  | 0, _ => none
  | fuel + 1, cs =>
    if cs.head? = some '(' then
      (readBare fuel cs.tail).map fun inner => (inner.1, inner.2.tail)
    else some (.var (nameIn cs), behindName cs)

def readSuffixes : Nat → Expr → List Char → Option (Expr × List Char)
  | 0, _, _ => none
  | fuel + 1, e, cs =>
    if cs.head? = some '.' then readSuffixes fuel (.field e (nameIn cs.tail)) (behindName cs.tail)
    else if cs.head? = some '[' then
      (readBare fuel cs.tail).bind fun position =>
        readSuffixes fuel (.index e position.1) position.2.tail
    else if cs.head? = some '(' then
      (readArgs fuel cs.tail).bind fun args => readSuffixes fuel (.call e args.1 false) args.2
    else some (e, cs)

def readArgs : Nat → List Char → Option (List Expr × List Char)
  | 0, _ => none
  | fuel + 1, cs =>
    if cs.head? = some ')' then some ([], cs.tail)
    else (readBare fuel cs).bind fun first =>
      (readArgs fuel (if first.2.head? = some ',' then first.2.drop 2 else first.2)).map fun rest =>
        (first.1 :: rest.1, rest.2)
end

section

variable {α β : Type} {f : Nat → Option α} {a : α}

/-- The reader answers with `a` once it has enough fuel. -/
def Reads (f : Nat → Option α) (a : α) : Prop :=
  ∃ least, ∀ fuel, least ≤ fuel → f fuel = some a

lemma Reads.pure (a : α) : Reads (fun _ => some a) a :=
  ⟨0, fun _ _ => rfl⟩

lemma Reads.succ (h : Reads (fun fuel => f (fuel + 1)) a) : Reads f a := by
  obtain ⟨least, h⟩ := h
  refine ⟨least + 1, fun fuel hfuel => ?_⟩
  obtain ⟨fuel, rfl⟩ : ∃ k, fuel = k + 1 := ⟨fuel - 1, by omega⟩
  exact h fuel (by omega)

lemma Reads.bind {g : α → Nat → Option β} {b : β} (hf : Reads f a) (hg : Reads (g a) b) :
    Reads (fun fuel => (f fuel).bind fun x => g x fuel) b := by
  obtain ⟨least, hf⟩ := hf
  obtain ⟨least', hg⟩ := hg
  refine ⟨max least least', fun fuel hfuel => ?_⟩
  simp only [hf fuel (by omega)]
  exact hg fuel (by omega)

lemma Reads.map (hf : Reads f a) (g : α → β) : Reads (fun fuel => (f fuel).map g) (g a) := by
  obtain ⟨least, hf⟩ := hf
  exact ⟨least, fun fuel hfuel => by simp only [hf fuel hfuel, Option.map_some]⟩

lemma Reads.unique (ha : Reads f a) (hb : Reads f b) : a = b := by
  obtain ⟨least, ha⟩ := ha
  obtain ⟨least', hb⟩ := hb
  have hfirst := ha (max least least') (by omega)
  exact Option.some.inj (hfirst.symm.trans (hb _ (by omega)))

end

/-- What follows cannot belong to a name. -/
def Marked (s : List Char) : Prop :=
  ∀ c ∈ s.head?, isMark c = true

/-- What follows ends an operand. -/
def Stops (s : List Char) : Prop :=
  ∀ c ∈ s.head?, c ∈ [' ', ',', ')', ']']

/-- What follows ends an expression that stands alone. -/
def Closes (s : List Char) : Prop :=
  ∀ c ∈ s.head?, c ∈ [',', ')', ']']

variable {s : List Char}

lemma Stops.marked (h : Stops s) : Marked s := by
  intro c hc
  have hmem := h c hc
  revert hmem
  simp only [mem_cons, not_mem_nil, or_false]
  rintro (rfl | rfl | rfl | rfl) <;> decide

lemma Closes.stops (h : Closes s) : Stops s :=
  fun c hc => mem_cons_of_mem _ (h c hc)

/-- The text does not begin with a closing parenthesis. -/
def Opens (t : String) : Prop :=
  ∃ c cs, t.toList = c :: cs ∧ c ≠ ')'

lemma Opens.of_first {t : String} (h : ∃ c cs, t.toList = c :: cs ∧ (isMark c = true → c = '(')) :
    Opens t := by
  obtain ⟨c, cs, hcs, hc⟩ := h
  refine ⟨c, cs, hcs, ?_⟩
  rintro rfl
  exact absurd (hc rfl) (by decide)

lemma span_append (p : Char → Bool) (cs s : List Char) (hcs : ∀ c ∈ cs, p c = true)
    (hs : ∀ c ∈ s.head?, p c = false) :
    (cs ++ s).takeWhile p = cs ∧ (cs ++ s).dropWhile p = s := by
  have hrest : s.takeWhile p = [] ∧ s.dropWhile p = s := by
    cases s with
    | nil => exact ⟨rfl, rfl⟩
    | cons c s => simp [hs c rfl]
  rw [takeWhile_append_of_pos hcs, dropWhile_append_of_pos hcs, hrest.1, hrest.2]
  simp

lemma IsName.read (h : IsName name) (hs : Marked s) :
    nameIn (name.toList ++ s) = name ∧ behindName (name.toList ++ s) = s := by
  have hspan := span_append (fun c => !isMark c) name.toList s
    (fun c hc => by simp [h.unmarked c hc]) (fun c hc => by simp [hs c hc])
  exact ⟨by rw [nameIn, hspan.1, String.ofList_toList], hspan.2⟩

variable {e : Expr}

lemma read_operator (h : operator ∈ binaryOperators) (s : List Char) :
    operatorIn (operator.toList ++ ' ' :: s) = operator
      ∧ behindOperator (operator.toList ++ ' ' :: s) = s := by
  have hblank : binaryOperators.all (fun o => o.toList.all (· ≠ ' ')) = true := by decide
  have hspan := span_append (· ≠ ' ') operator.toList (' ' :: s)
    (all_eq_true.1 (all_eq_true.1 hblank operator h)) (by simp)
  exact ⟨by rw [operatorIn, hspan.1, String.ofList_toList], by rw [behindOperator, hspan.2]; rfl⟩

lemma unaryIn?_of_mem (h : operator ∈ unaryOperators) (s : List Char) :
    unaryIn? (operator.toList ++ s) = some operator := by
  simp only [unaryOperators, mem_cons, not_mem_nil, or_false] at h
  rcases h with rfl | rfl | rfl | rfl | rfl | rfl | rfl <;> simp [unaryIn?, unaryOperators]

lemma unaryIn?_eq_none (h : isMark c = true → c = '(') (s : List Char) :
    unaryIn? (c :: s) = none := by
  have hsign : ∀ sign ∈ ['+', '-', '!', '^', '*', '&', '<'], sign ≠ c := by
    rintro sign hsign rfl
    simp only [mem_cons, not_mem_nil, or_false] at hsign
    rcases hsign with rfl | rfl | rfl | rfl | rfl | rfl | rfl <;> simp [isMark] at h
  simp [unaryIn?, unaryOperators, hsign]

/-- The reader returns an expression from its text, whatever stops it. -/
structure ReadsBack (e : Expr) : Prop where
  bare : ∀ s, Closes s → Reads (readBare · (e.bare.toList ++ s)) (e, s)
  operand : ∀ s, Stops s → Reads (readOperand · (e.text.toList ++ s)) (e, s)
  first : e.isUnary = false → ∃ c cs, e.text.toList = c :: cs ∧ (isMark c = true → c = '(')
  opens : Opens e.text ∧ Opens e.bare
  chain : e.isUnary = false → ∀ s r, Marked s → Reads (readSuffixes · e s) r →
    Reads (readChain · (e.text.toList ++ s)) r

lemma reads_suffixes_of_stops (e : Expr) (hs : Stops s) : Reads (readSuffixes · e s) (e, s) := by
  refine .succ ?_
  have hhead : s.head? ≠ some '.' ∧ s.head? ≠ some '[' ∧ s.head? ≠ some '(' :=
    ⟨fun h => absurd (hs _ h) (by decide), fun h => absurd (hs _ h) (by decide),
      fun h => absurd (hs _ h) (by decide)⟩
  simp only [readSuffixes, hhead.1, hhead.2.1, hhead.2.2]
  exact .pure _

lemma reads_chain (hfirst : Reads (readPrimary · cs) (e, s)) (hunary : e.isUnary = false)
    (hr : Reads (readSuffixes · e s) r) : Reads (readChain · cs) r := by
  refine .succ (hfirst.bind ?_)
  simpa only [hunary, Bool.false_eq_true, if_false] using hr

lemma reads_parenthesized (h : ∀ s, Closes s → Reads (readBare · (e.bare.toList ++ s)) (e, s)) :
    Reads (readPrimary · ('(' :: (e.bare.toList ++ [')']) ++ s)) (e, s) := by
  refine .succ ?_
  simp only [cons_append, append_assoc]
  exact (h (')' :: s) (by simp [Closes])).map _

lemma reads_bare (hs : Closes s) (h : Reads (readOperand · cs) (e, s)) :
    Reads (readBare · cs) (e, s) := by
  have hhead : s.head? ≠ some ' ' := fun hblank => absurd (hs _ hblank) (by decide)
  refine .succ ?_
  refine h.bind ?_
  simp only [hhead]
  exact .pure _

lemma ReadsBack.of_chain {e : Expr}
    (hbare : ∀ s, Closes s → Reads (readOperand · (e.text.toList ++ s)) (e, s) →
      Reads (readBare · (e.bare.toList ++ s)) (e, s))
    (hfirst : ∃ c cs, e.text.toList = c :: cs ∧ (isMark c = true → c = '('))
    (hopens : Opens e.text → Opens e.bare)
    (hchain : ∀ s r, Marked s → Reads (readSuffixes · e s) r →
      Reads (readChain · (e.text.toList ++ s)) r) : ReadsBack e := by
  have hoperand : ∀ s, Stops s → Reads (readOperand · (e.text.toList ++ s)) (e, s) := by
    intro s hs
    obtain ⟨c, cs, hcs, hc⟩ := hfirst
    have hnone : unaryIn? (e.text.toList ++ s) = none := by
      rw [hcs]
      exact unaryIn?_eq_none hc _
    refine .succ ?_
    simp only [readOperand, hnone]
    exact hchain s (e, s) hs.marked (reads_suffixes_of_stops e hs)
  have htext : Opens e.text := .of_first hfirst
  exact ⟨fun s hs => hbare s hs (hoperand s hs.stops), hoperand, fun _ => hfirst,
    ⟨htext, hopens htext⟩, fun _ => hchain⟩

lemma readsBack_var (h : IsName name) : ReadsBack (.var name) := by
  obtain ⟨c, cs, hcs⟩ := exists_cons_of_ne_nil h.nonempty
  have hc : isMark c = false := h.unmarked c (by rw [hcs]; exact mem_cons_self)
  refine .of_chain (fun _ => reads_bare) ⟨c, cs, hcs, by simp [hc]⟩ id fun s r hs hr => ?_
  have hprimary : Reads (readPrimary · (name.toList ++ s)) (.var name, s) := by
    have hhead : (name.toList ++ s).head? ≠ some '(' := by
      rw [hcs]
      rintro heq
      cases Option.some.inj heq
      simp [isMark] at hc
    refine .succ ?_
    simp only [readPrimary, hhead, (h.read hs).1, (h.read hs).2]
    exact .pure _
  exact reads_chain hprimary rfl hr

lemma readsBack_field (htarget : ReadsBack target)
    (hunary : target.isUnary = false) (hname : IsName name) : ReadsBack (.field target name) := by
  have htext : (Expr.field target name).text.toList = target.text.toList ++ '.' :: name.toList := by
    simp [text, parenthesized, bare]
  obtain ⟨c, cs, hcs, hc⟩ := htarget.first hunary
  refine .of_chain (fun _ => reads_bare) ⟨c, _, by rw [htext, hcs, cons_append], hc⟩ id ?_
  intro s r hs hr
  rw [htext, append_assoc]
  refine htarget.chain hunary _ r (by simp [Marked, isMark]) (.succ ?_)
  simp only [readSuffixes, cons_append, tail_cons,
    (hname.read hs).1, (hname.read hs).2]
  exact hr

lemma readsBack_index (htarget : ReadsBack target)
    (hunary : target.isUnary = false) (hposition : ReadsBack position) :
    ReadsBack (.index target position) := by
  have htext : (Expr.index target position).text.toList
      = target.text.toList ++ '[' :: (position.bare.toList ++ [']']) := by
    simp [text, parenthesized, bare]
  obtain ⟨c, cs, hcs, hc⟩ := htarget.first hunary
  refine .of_chain (fun _ => reads_bare) ⟨c, _, by rw [htext, hcs, cons_append], hc⟩ id ?_
  intro s r hs hr
  rw [htext, append_assoc]
  refine htarget.chain hunary _ r (by simp [Marked, isMark]) (.succ ?_)
  have hclosed := hposition.bare (']' :: s) (by simp [Closes])
  simp only [cons_append, append_assoc]
  exact hclosed.bind hr

lemma reads_args {args : List Expr} (h : ∀ arg ∈ args, ReadsBack arg) (s : List Char) :
    Reads (readArgs · ((", ".intercalate (bareAll args)).toList ++ ')' :: s)) (args, s) := by
  induction args with
  | nil => exact .succ (.pure _)
  | cons arg args ih =>
    obtain ⟨harg, hargs⟩ := forall_mem_cons.1 h
    obtain ⟨c, cs, hcs, hc⟩ := harg.opens.2
    have hhead : ∀ s, (arg.bare.toList ++ s).head? ≠ some ')' := by
      intro s heq
      rw [hcs] at heq
      exact hc (Option.some.inj heq)
    refine .succ ?_
    cases args with
    | nil =>
      simp only [bareAll, String.intercalate_singleton, readArgs, hhead]
      exact (harg.bare _ (by simp [Closes])).bind ((ih hargs).map _)
    | cons next args =>
      simp only [bareAll, String.intercalate_cons_cons, String.toList_append, append_assoc,
        readArgs, hhead]
      exact (harg.bare _ (by simp [Closes])).bind ((ih hargs).map _)

lemma readsBack_call (hfunction : ReadsBack function)
    (hunary : function.isUnary = false) (hargs : ∀ arg ∈ args, ReadsBack arg) :
    ReadsBack (.call function args false) := by
  have htext : (Expr.call function args false).text.toList
      = function.text.toList ++ '(' :: ((", ".intercalate (bareAll args)).toList ++ [')']) := by
    simp [text, parenthesized, bare, callText]
  obtain ⟨c, cs, hcs, hc⟩ := hfunction.first hunary
  refine .of_chain (fun _ => reads_bare) ⟨c, _, by rw [htext, hcs, cons_append], hc⟩ id ?_
  intro s r hs hr
  rw [htext, append_assoc]
  refine hfunction.chain hunary _ r (by simp [Marked, isMark]) (.succ ?_)
  simp only [cons_append, append_assoc]
  exact (reads_args hargs s).bind hr

lemma readsBack_binary (hleft : ReadsBack left)
    (hoperator : operator ∈ binaryOperators) (hright : ReadsBack right) :
    ReadsBack (.binary left operator right) := by
  have hbare : (Expr.binary left operator right).bare.toList
      = left.text.toList ++ ' ' :: (operator.toList ++ ' ' :: right.text.toList) := by
    simp [text, bare]
  have htext : (Expr.binary left operator right).text.toList
      = '(' :: ((Expr.binary left operator right).bare.toList ++ [')']) := by
    simp [text, parenthesized]
  have hinner : ∀ s, Closes s →
      Reads (readBare · ((Expr.binary left operator right).bare.toList ++ s))
        (.binary left operator right, s) := by
    intro s hs
    rw [hbare]
    simp only [append_assoc, cons_append]
    refine .succ ?_
    refine (hleft.operand _ (by simp [Stops])).bind ?_
    simp only [tail_cons, (read_operator hoperator _).1,
      (read_operator hoperator _).2]
    exact (hright.operand s hs.stops).map _
  refine .of_chain (fun s hs _ => hinner s hs) ⟨'(', _, htext, fun _ => rfl⟩ (fun _ => ?_) ?_
  · obtain ⟨c, cs, hcs, hc⟩ := hleft.opens.1
    exact ⟨c, _, by rw [hbare, hcs, cons_append], hc⟩
  · intro s r hs hr
    rw [htext]
    exact reads_chain (reads_parenthesized hinner) rfl hr

lemma toList_text_unary (operator : String) (operand : Expr) :
    (Expr.unary operator operand).text.toList = operator.toList
      ++ if operand.isUnary then '(' :: (operand.bare.toList ++ [')'])
        else operand.text.toList := by
  have hoperand : unaryOperand operand operand.bare
      = if operand.isUnary then "(" ++ operand.bare ++ ")" else operand.text := by
    cases operand <;> rfl
  simp only [text, parenthesized, bare, hoperand]
  split <;> simp

lemma readsBack_unary (hoperator : operator ∈ unaryOperators)
    (hoperand : ReadsBack operand) : ReadsBack (.unary operator operand) := by
  have hread : ∀ s, Stops s →
      Reads (readOperand · ((Expr.unary operator operand).text.toList ++ s))
        (.unary operator operand, s) := by
    intro s hs
    have hchain : Reads (readChain · ((if operand.isUnary then '(' :: (operand.bare.toList ++ [')'])
        else operand.text.toList) ++ s)) (operand, s) := by
      cases hunary : operand.isUnary with
      | false => exact hoperand.chain hunary s _ hs.marked (reads_suffixes_of_stops operand hs)
      | true =>
        refine .succ ((reads_parenthesized hoperand.bare).bind ?_)
        simp only [hunary]
        exact .pure _
    refine .succ ?_
    simp only [readOperand, toList_text_unary, append_assoc, unaryIn?_of_mem hoperator,
      Option.elim, ← String.length_toList, drop_left]
    exact hchain.map _
  have hopens : Opens (Expr.unary operator operand).text := by
    have hsign : ∀ sign ∈ unaryOperators, ∃ c cs, sign.toList = c :: cs ∧ c ≠ ')' := by
      simp [unaryOperators]
    obtain ⟨c, cs, hcs, hc⟩ := hsign operator hoperator
    exact ⟨c, _, by rw [toList_text_unary, hcs, cons_append], hc⟩
  exact ⟨fun s hs => reads_bare hs (hread s hs.stops), hread, nofun, ⟨hopens, hopens⟩, nofun⟩

lemma readsBack_of_plain (h : e.Plain) : ReadsBack e := by
  induction h with
  | var hname => exact readsBack_var hname
  | field _ hunary hname ih => exact readsBack_field ih hunary hname
  | index _ hunary _ ihTarget ihPosition => exact readsBack_index ihTarget hunary ihPosition
  | call _ hunary _ ihFunction ihArgs => exact readsBack_call ihFunction hunary ihArgs
  | binary _ hoperator _ ihLeft ihRight => exact readsBack_binary ihLeft hoperator ihRight
  | unary hoperator _ ih => exact readsBack_unary hoperator ih

/-- Two plain expressions have the same text, with or without parentheses around them, only when
they are the same. -/
theorem rendering_injective {e e' : Expr} (h : e.Plain) (h' : e'.Plain) :
    (e.text = e'.text ↔ e = e') ∧ (e.bare = e'.bare ↔ e = e') := by
  refine ⟨⟨fun heq => ?_, congrArg text⟩, fun heq => ?_, congrArg bare⟩
  · have hread := (readsBack_of_plain h').operand [] nofun
    rw [← heq] at hread
    exact (Prod.mk.inj (((readsBack_of_plain h).operand [] nofun).unique hread)).1
  · have hread := (readsBack_of_plain h').bare [] nofun
    rw [← heq] at hread
    exact (Prod.mk.inj (((readsBack_of_plain h).bare [] nofun).unique hread)).1

/-- `-(a + b)` -/
def negatedSum : Expr :=
  .unary "-" (.binary (.var "a") "+" (.var "b"))

/-- `-a + b` -/
def sumOfNegated : Expr :=
  .binary (.unary "-" (.var "a")) "+" (.var "b")

theorem rendering_injective_negatedSum :
    negatedSum.Plain ∧ sumOfNegated.Plain ∧ negatedSum.text ≠ sumOfNegated.text
      ∧ negatedSum.bare ≠ sumOfNegated.bare := by
  have ha : Plain (.var "a") := .var ⟨by decide, by simp [isMark]⟩
  have hb : Plain (.var "b") := .var ⟨by decide, by simp [isMark]⟩
  have hsum : negatedSum.Plain := .unary (by decide) (.binary ha (by decide) hb)
  have hnegated : sumOfNegated.Plain := .binary (.unary (by decide) ha) (by decide) hb
  have hne : negatedSum ≠ sumOfNegated := nofun
  obtain ⟨htext, hbare⟩ := rendering_injective hsum hnegated
  exact ⟨hsum, hnegated, fun h => hne (htext.1 h), fun h => hne (hbare.1 h)⟩

end Expr

end JavaToGo.Code
