import Mathlib.Data.List.Forall2
import JavaToGo.Proofs.Exceptions.Recovery
import JavaToGo.Proofs.Lowering.Creation

/-!
# Throws and their handlers

A throw panics with the value of its only argument, or with a text.  A clause
asks for the Go type that the name of the exception is mapped to.  Neither looks
at the other.
-/

namespace JavaToGo

open Code (Stmt CatchClause)
open JavaToGo.Tree (Node)
open List

namespace Tree.Node

/-- The exceptions that a catch clause is for. -/
def clauseTypes (clause : Node) : List Node :=
  match (clause.childOfKind? .catchFormalParameter).bind (·.childOfKind? .catchType) with
  | none => []
  | some type => type.operands

/-- The exceptions that a try statement has clauses for. -/
def caughtTypes (node : Node) : List Node :=
  node.children.flatMap fun n => if n.kind = .catchClause then n.clauseTypes else []

/-- `throw new E(args)`. -/
structure ThrowsNew (node : Node) (exception : String) (args : List Node) : Prop where
  kind : node.kind = .throwStatement
  creation : ∃ creation, node.operands = [creation] ∧ creation.kind = .objectCreation
    ∧ creation.requireText "type" = .ok exception
    ∧ ∃ list, creation.require "arguments" = .ok list ∧ list.operands = args

end Tree.Node

variable {exception : String}

namespace Lower

variable {go : Node → Lower (List Stmt)} {c : Context} {node : Node}

/-- The handler asks for the Go type of the exception. -/
def Handles (c : Context) (type : Node) (clause : CatchClause) : Prop :=
  typeOf c.toTypeContext type = .ok clause.exceptionType

lemma handles_catchFor (h : (catchFor go name binding body type).runAt c t = (.ok clause, t')) :
    Handles c type clause := by
  simp only [catchFor, runAt_bind_eq_ok, runAt_lift_eq_ok] at h
  obtain ⟨statements, t₁, -, types, t₂, ⟨⟩, asked, t₃, ⟨hasked, -⟩, ⟨⟩⟩ := h
  exact hasked

lemma handles_mapM {types : List Node}
    (h : (types.mapM (catchFor go name binding body)).runAt c t = (.ok clauses, t')) :
    List.Forall₂ (Handles c) types clauses := by
  induction types generalizing clauses t with
  | nil =>
    cases h
    exact .nil
  | cons type types ih =>
    simp only [mapM_cons, runAt_bind_eq_ok] at h
    obtain ⟨clause, t₁, hclause, more, t₂, hmore, ⟨⟩⟩ := h
    exact .cons (handles_catchFor hclause) (ih hmore)

lemma handles_catchClauses (h : (catchClauses go node).runAt c t = (.ok clauses, t')) :
    List.Forall₂ (Handles c) node.clauseTypes clauses := by
  obtain ⟨body, t₁, -, h⟩ := exists_of_bind h
  unfold Node.clauseTypes
  cases hparameter : node.childOfKind? .catchFormalParameter with
  | none =>
    rw [hparameter] at h
    cases h
  | some parameter =>
    rw [hparameter] at h
    obtain ⟨name, t₂, -, h⟩ := exists_of_bind h
    cases htype : parameter.childOfKind? .catchType with
    | none =>
      rw [htype] at h
      cases h
    | some type =>
      rw [htype] at h
      simpa [htype] using handles_mapM h

lemma exists_of_addHandler {next : Handlers}
    (h : (addHandler go found node).runAt c t = (.ok next, t')) :
    ∃ more, next.catches = found.catches ++ more
      ∧ List.Forall₂ (Handles c) (if node.kind = .catchClause then node.clauseTypes else [])
        more := by
  unfold addHandler at h
  split at h
  next hkind =>
    obtain ⟨more, t₁, hmore, ⟨⟩⟩ := exists_of_bind h
    exact ⟨more, rfl, by simpa [hkind] using handles_catchClauses hmore⟩
  next hkind =>
    refine ⟨[], ?_, by simp [hkind]⟩
    split at h
    · cases h
    · obtain ⟨body, t₁, -, ⟨⟩⟩ := exists_of_bind h
      simp
  next hother _ =>
    cases h
    refine ⟨[], by simp, ?_⟩
    rw [if_neg hother]
    exact .nil

lemma exists_of_handlers {children : List Node}
    (h : (children.foldlM (addHandler go) found).runAt c t = (.ok handlers, t')) :
    ∃ more, handlers.catches = found.catches ++ more
      ∧ List.Forall₂ (Handles c)
        (children.flatMap fun n => if n.kind = .catchClause then n.clauseTypes else []) more := by
  induction children generalizing found t with
  | nil =>
    cases h
    exact ⟨[], by simp, .nil⟩
  | cons child children ih =>
    obtain ⟨next, t₁, hnext, h⟩ := exists_of_bind h
    obtain ⟨first, hfirst, htypes⟩ := exists_of_addHandler hnext
    obtain ⟨rest, hrest, hmore⟩ := ih h
    refine ⟨first ++ rest, by rw [hrest, hfirst, append_assoc], ?_⟩
    exact rel_append htypes hmore

lemma exists_of_tryWith (h : (tryWith go node).runAt c t = (.ok statements, t')) :
    ∃ body catches finallyBody resources closers,
      statements.getLast? = some (.tryCatch body catches finallyBody resources closers)
        ∧ List.Forall₂ (Handles c) node.caughtTypes catches := by
  simp only [tryWith, runAt_bind_eq_ok] at h
  obtain ⟨bodyNode, t₁, -, ⟨opened, body⟩, t₂, -, handlers, t₃, hhandlers, ⟨⟩⟩ := h
  obtain ⟨catches, hcatches, htypes⟩ := exists_of_handlers hhandlers
  refine ⟨body, catches, handlers.finallyBody, opened.declarations, opened.closers, ?_, htypes⟩
  simp [hcatches]

/-- What a panic carries for an exception: the value of the only argument, and otherwise text. -/
inductive Carries (exception : String) : List Expr → Expr → Prop
  | name : Carries exception [] (.raw ("\"" ++ exception ++ "\""))
  | value (argument : Expr) : Carries exception [argument] argument
  | text (args : List Expr) (h : 1 < args.length) :
      Carries exception args (.callNamed "fmt.Sprint" args false)

lemma carries_panicMessage (h : (panicMessage exception args).runAt c t = (.ok message, t')) :
    Carries exception args message := by
  rcases args with _ | ⟨first, _ | ⟨second, more⟩⟩
  · cases h
    exact .name
  · cases h
    exact .value message
  · obtain ⟨-, t₁, -, ⟨⟩⟩ := exists_of_bind h
    exact .text _ (by simp)

lemma exists_of_throwsNew (hthrows : node.ThrowsNew exception args)
    (hlibrary : exception ∈ libraryExceptions)
    (h : (statement node).runAt c t = (.ok statements, t')) :
    ∃ lowered message t₁,
      (lowerAll expression args).runAt c t = (.ok lowered, t₁)
        ∧ statements = lowered.before ++ [panicWith message]
        ∧ Carries exception lowered.values message := by
  obtain ⟨creation, hoperands, hkind, htype, list, hlist, rfl⟩ := hthrows.creation
  rw [statement_eq_step, statementStep, hthrows.kind] at h
  simp only [throwStatement, hoperands, hkind, if_true, throwNew] at h
  rw [(Returns.lift htype).runAt_bind, if_pos hlibrary, (Returns.lift hlist).runAt_bind] at h
  simp only [runAt_bind_eq_ok] at h
  obtain ⟨lowered, t₁, hlowered, message, t₂, hmessage, ⟨⟩⟩ := h
  exact ⟨lowered, message, t₁, hlowered, rfl, carries_panicMessage hmessage⟩

end Lower

open Recovery (Meaning guarded runAll runTry takes)

lemma typeOf_of_carries {S V : Type} (m : Meaning S V) {args : List Expr} {message : Expr} {s : S}
    {v : V} (hlibrary : exception ∈ Lower.libraryExceptions)
    (h : Lower.Carries exception args message) (hcount : args.length ≠ 1)
    (heval : m.eval message s = some v) : m.typeOf v = "string" := by
  cases h with
  | name =>
    have hletters : ∀ e ∈ Lower.libraryExceptions, e.toList.all Char.isAlpha = true := by
      decide +kernel
    exact m.typeOf_quoted (hletters exception hlibrary) heval
  | value => exact absurd rfl hcount
  | text => exact m.typeOf_sprint heval

lemma catchHeader_mem_catchLines (h : catches[i]? = some clause) (isFirst : Bool) :
    Stmt.catchHeader (isFirst && i == 0) clause.exceptionType clause.binding
      ∈ Stmt.catchLines isFirst catches := by
  induction catches generalizing i isFirst with
  | nil => simp at h
  | cons first catches ih =>
    obtain ⟨exceptionType, body, binding⟩ := first
    rw [Stmt.catchLines]
    cases i with
    | zero =>
      obtain rfl : CatchClause.mk exceptionType body binding = clause := by simpa using h
      simp [CatchClause.exceptionType, CatchClause.binding]
    | succ i =>
      have hlater := ih (i := i) (by simpa using h) false
      simp only [Bool.false_and] at hlater
      simp [hlater]

lemma exists_getElem?_of_forall₂ {α β : Type} {R : α → β → Prop} {as : List α} {bs : List β}
    (h : List.Forall₂ R as bs) {i : Nat} {a : α} (ha : as[i]? = some a) :
    ∃ b, bs[i]? = some b ∧ R a b := by
  obtain ⟨hi, rfl⟩ := List.getElem?_eq_some_iff.1 ha
  have hj : i < bs.length := h.length_eq ▸ hi
  exact ⟨bs[i], getElem?_eq_getElem hj, h.get hi hj⟩

lemma typeOf_of_typeIdentifier {c : TypeContext} {type : Node} (h : type.kind = .typeIdentifier) :
    typeOf c type = .ok (c.mapName type.text) := by
  obtain ⟨head, children⟩ := type
  have hkind : head.kind = .typeIdentifier := h
  rw [typeOf, tryType, hkind]
  rfl

/-- A clause for an exception handles a throw of that exception exactly when what the panic carries
passes the Go type of the exception and no type of an earlier handler; without arguments or with
several ones, exactly when that type, and no earlier one, takes strings. -/
theorem caught_by_own_clause_iff {S V : Type} (m : Meaning S V) {exception : String}
    (hlibrary : exception ∈ Lower.libraryExceptions) {tryNode throwNode type : Node}
    {args : List Node} {i : Nat}
    (htry : tryNode.kind = .tryStatement ∨ tryNode.kind = .tryWithResourcesStatement)
    (htype : tryNode.caughtTypes[i]? = some type) (hkind : type.kind = .typeIdentifier)
    (hname : type.text = exception) (hthrows : throwNode.ThrowsNew exception args)
    {c k : Context} {t t' u u' : Trail} {statements thrown : List Stmt}
    (hstatements : (Lower.statement tryNode).runAt c t = (.ok statements, t'))
    (hthrown : (Lower.statement throwNode).runAt k u = (.ok thrown, u')) :
    ∃ body catches finallyBody resources closers clause before message,
      statements.getLast? = some (.tryCatch body catches finallyBody resources closers)
        ∧ catches[i]? = some clause
        ∧ clause.exceptionType = c.mapName exception
        ∧ Stmt.catchHeader (i == 0) clause.exceptionType clause.binding
          ∈ Stmt.catchLines true catches
        ∧ thrown = before ++ [Lower.panicWith message]
        ∧ (∀ s s' v, runAll m before s = (s', .normal) → m.eval message s' = some v →
          (runAll m thrown s).2 = .panics v)
        ∧ ∀ s s' v, m.eval message s' = some v →
          (guarded m resources closers body s).2 = .panics v →
            ((runTry m body catches finallyBody resources closers s).handler = some i
              ↔ m.types.passes (m.typeOf v) (c.mapName exception) = true
                ∧ ∀ j < i, ∀ earlier, catches[j]? = some earlier → takes m v earlier = false)
            ∧ (args.length ≠ 1 →
              ((runTry m body catches finallyBody resources closers s).handler = some i
                ↔ m.types.TakesStrings (c.mapName exception)
                  ∧ ∀ j < i, ∀ earlier, catches[j]? = some earlier →
                    ¬ m.types.TakesStrings earlier.exceptionType)) := by
  have htries : ∃ go, (Lower.tryWith go tryNode).runAt c t = (.ok statements, t') := by
    rw [Lower.statement_eq_step, Lower.statementStep] at hstatements
    rcases htry with htry | htry <;> rw [htry] at hstatements <;> exact ⟨_, hstatements⟩
  obtain ⟨go, htries⟩ := htries
  obtain ⟨body, catches, finallyBody, resources, closers, hlast, hhandles⟩ :=
    Lower.exists_of_tryWith htries
  obtain ⟨lowered, message, t₁, hlowered, hbefore, hcarries⟩ :=
    Lower.exists_of_throwsNew hthrows hlibrary hthrown
  obtain ⟨clause, hclause, hasked⟩ : ∃ clause, catches[i]? = some clause
      ∧ clause.exceptionType = c.mapName exception := by
    obtain ⟨clause, hclause, hhandle⟩ := exists_getElem?_of_forall₂ hhandles htype
    refine ⟨clause, hclause, ?_⟩
    rw [Lower.Handles, typeOf_of_typeIdentifier hkind, hname] at hhandle
    exact (Except.ok.inj hhandle).symm
  refine ⟨body, catches, finallyBody, resources, closers, clause, lowered.before, message, hlast,
    hclause, hasked, catchHeader_mem_catchLines hclause true, hbefore, ?_, ?_⟩
  · intro s s' v hnormal heval
    rw [hbefore]
    exact Recovery.panics_of_panicWith m hnormal heval
  intro s s' v heval hpanics
  have hfirst : (runTry m body catches finallyBody resources closers s).handler = some i
      ↔ m.types.passes (m.typeOf v) (c.mapName exception) = true
        ∧ ∀ j < i, ∀ earlier, catches[j]? = some earlier → takes m v earlier = false := by
    have hrecover := Recovery.handler_recover_iff (m := m) (v := v)
      (s := (guarded m resources closers body s).1) hclause 0
    rwa [Nat.zero_add, ← Recovery.handler_runTry hpanics, takes, hasked] at hrecover
  refine ⟨hfirst, fun hcount => hfirst.trans ?_⟩
  have hstring : m.typeOf v = "string" :=
    typeOf_of_carries m hlibrary hcarries (by rwa [Lower.length_lowerAll hlowered]) heval
  simp only [takes, hstring, m.types.passes_string_iff, ← Bool.not_eq_true]

/-- `throw new IllegalStateException()`. -/
def stateThrow : Node :=
  .tree 10 .throwStatement
    [.tree 11 .objectCreation
      [.plain 12 .typeIdentifier (some "type") "IllegalStateException" [],
       .plain 13 (.other "argument_list") (some "arguments") "" []]]

/-- A try statement around the throw, with a clause for its exception. -/
def guardedThrow : Node :=
  .tree 1 .tryStatement
    [.body 2 [stateThrow],
     .tree 3 .catchClause
      [.tree 4 .catchFormalParameter
        [.tree 5 .catchType
          [.leaf 6 .typeIdentifier "IllegalStateException"],
         .called 7 "e"],
       .body 8 []]]

def stringContext : Context where
  settings := { typeMappings := Table.ofList [("IllegalStateException", "string")] }

def literalTypes : Recovery.Types where
  denoted := id
  interface? name := if name = "any" then some [] else none
  methods _ := []
  denoted_string := rfl
  methods_string := rfl

def literalValue : Expr → Option String
  | .raw _ => some "string"
  | .callNamed .. => some "string"
  | _ => none

def literalRun : Stmt → Unit × Recovery.Completion String
  | .call (.callNamed "panic" [e] false) =>
    ((), match literalValue e with
      | some v => .panics v
      | none => .normal)
  | _ => ((), .normal)

/-- A program in which a value is its type. -/
def literalMeaning : Meaning Unit String where
  types := literalTypes
  run statement _ := literalRun statement
  eval e _ := literalValue e
  typeOf := id
  naming _ _ s := s
  panics_panicWith h := by simp [Lower.panicWith, literalRun, h]
  typeOf_quoted _ h := (Option.some.inj h).symm
  typeOf_sprint h := (Option.some.inj h).symm

lemma stateThrow_throwsNew : stateThrow.ThrowsNew "IllegalStateException" [] :=
  ⟨rfl, _, rfl, rfl, rfl, _, rfl, rfl⟩

/-- Where the exception is mapped to strings, its own clause handles the throw. -/
theorem caught_by_own_clause_mapped :
    ∃ statements t' body catches finallyBody resources closers,
      (Lower.statement guardedThrow).runAt stringContext {} = (.ok statements, t')
        ∧ statements.getLast? = some (.tryCatch body catches finallyBody resources closers)
        ∧ literalMeaning.types.TakesStrings (stringContext.mapName "IllegalStateException")
        ∧ (guarded literalMeaning resources closers body ()).2 = .panics "string"
        ∧ (runTry literalMeaning body catches finallyBody resources closers ()).handler
          = some 0 := by
  have hmapped : literalMeaning.types.TakesStrings
      (stringContext.mapName "IllegalStateException") := .inr ⟨rfl, rfl⟩
  have hlibrary : "IllegalStateException" ∈ Lower.libraryExceptions := by decide
  have htype : guardedThrow.caughtTypes[0]?
      = some (.leaf 6 .typeIdentifier "IllegalStateException") := rfl
  have htry : (Lower.statement guardedThrow).runAt stringContext {} = (.ok _, _) := rfl
  have hthrow : (Lower.statement stateThrow).runAt stringContext {} = (.ok _, _) := rfl
  obtain ⟨body, catches, finallyBody, resources, closers, clause, before, message, hlast, -, -, -,
    hbefore, -, hhandler⟩ :=
    caught_by_own_clause_iff literalMeaning hlibrary (.inl rfl) htype rfl rfl stateThrow_throwsNew
      htry hthrow
  have hmessage : Lower.panicWith message
      = Lower.panicWith (.raw "\"IllegalStateException\"") :=
    Option.some.inj (List.getLast?_concat.symm.trans (congrArg List.getLast? hbefore).symm)
  cases hmessage
  cases hlast
  refine ⟨_, _, _, _, _, _, _, htry, rfl, hmapped, rfl, ?_⟩
  exact ((hhandler () () "string" rfl rfl).2 (by decide)).2 ⟨hmapped, by simp⟩

/-- With the settings that nobody changed, its own clause does not handle the throw, and the panic
goes on. -/
theorem not_caught_by_own_clause :
    ∃ statements t' body catches finallyBody resources closers,
      (Lower.statement guardedThrow).runAt {} {} = (.ok statements, t')
        ∧ statements.getLast? = some (.tryCatch body catches finallyBody resources closers)
        ∧ catches.map CatchClause.exceptionType = ["IllegalStateException"]
        ∧ (guarded literalMeaning resources closers body ()).2 = .panics "string"
        ∧ (runTry literalMeaning body catches finallyBody resources closers ()).handler = none
        ∧ (runTry literalMeaning body catches finallyBody resources closers ()).completion
          = .panics "string" :=
  ⟨_, _, _, _, _, _, _, rfl, rfl, rfl, rfl, rfl, rfl⟩

end JavaToGo
