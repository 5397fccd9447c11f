import JavaToGo.Proofs.Exceptions.Throwing

/-!
# Resources

The function that a try statement is written as opens all of its resources before
it defers their closers: when one cannot be opened, nothing closes those before.
-/

namespace JavaToGo.Closing

open Code (Stmt indented indentLine)
open Recovery (Completion)
open List Lower

/-- An item of the function that a try statement is written as. -/
inductive Item where
  | statement (s : Stmt)
  | close (resource : Expr)
  /-- Defers handing a panic to the handlers. -/
  | recover (catches : List CatchClause)
  | final (body : List Stmt)

def Item.lines : Item → List String
  | .statement s => indented s.text
  | .close resource => [indentLine ("defer " ++ resource.text ++ ".Close()")]
  | .recover catches => (Stmt.recoverLines (Stmt.catchLines true catches)).map indentLine
  | .final body => (Stmt.finallyLines (some (Stmt.blockLines body))).map indentLine

def handlers (catches : List CatchClause) (finallyBody : Option (List Stmt)) : List Item :=
  (finallyBody.map Item.final).toList ++ if catches.isEmpty then [] else [.recover catches]

/-- The items of a try statement, in the order in which they are written. -/
def items (body : List Stmt) (catches : List CatchClause) (finallyBody : Option (List Stmt))
    (resources : List Stmt) (closers : List Expr) : List Item :=
  handlers catches finallyBody
    ++ (resources.map .statement ++ (closers.map .close ++ body.map .statement))

lemma map_plainLines (ss : List Stmt) :
    (Stmt.plainLines ss).map indentLine = (ss.map Item.statement).flatMap Item.lines := by
  induction ss with
  | nil => rfl
  | cons s ss ih => simp [Stmt.plainLines, ih, Item.lines, indented]

lemma text_tryCatch (body : List Stmt) (catches : List CatchClause)
    (finallyBody : Option (List Stmt)) (resources : List Stmt) (closers : List Expr) :
    (Stmt.tryCatch body catches finallyBody resources closers).text
      = Text.unlines ("func() \x7b"
        :: (items body catches finallyBody resources closers).flatMap Item.lines
          ++ ["\x7d()"]) := by
  have hbody : Stmt.blockLines body = (body.map Item.statement).flatMap Item.lines := by
    rw [Stmt.blockLines_eq_flatMap, flatMap_map]
    rfl
  have hclosers : ((closers.map fun closer => "defer " ++ closer.text ++ ".Close()").map indentLine)
      = (closers.map Item.close).flatMap Item.lines := by
    induction closers with
    | nil => rfl
    | cons closer closers ih => simp_all [Item.lines]
  have hfinal : (Stmt.finallyLines (Stmt.optionLines finallyBody)).map indentLine
      = ((finallyBody.map Item.final).toList).flatMap Item.lines := by
    cases finallyBody <;> simp [Stmt.optionLines, Stmt.finallyLines, Item.lines]
  have hrecover : (if catches.isEmpty then []
        else Stmt.recoverLines (Stmt.catchLines true catches)).map indentLine
      = (if catches.isEmpty then [] else [Item.recover catches]).flatMap Item.lines := by
    split <;> simp [Item.lines]
  rw [Stmt.text, Stmt.tryText]
  simp only [items, handlers, map_append, flatMap_append, map_plainLines, hbody, hclosers,
    hfinal, hrecover, cons_append, append_assoc]

/-- What is seen of a try statement. -/
inductive Event where
  | ran (s : Stmt)
  | closed (resource : Expr)
  | caught
  | final

def Event.closed? : Event → Option Expr
  | .closed resource => some resource
  | _ => none

/-- The statements that open a resource, and what is closed. -/
structure Resource where
  opening : List Stmt
  closer : Expr

section

variable {S V : Type} (run : Stmt → S → S × Completion V)
  (leave : Item → S × Completion V → S × Completion V)

def shown : Item → Completion V → List Event
  | .close resource, _ => [.closed resource]
  | .recover _, .panics _ => [.caught]
  | .final _, _ => [.final]
  | _, _ => []

/-- Leaves the function: what was deferred last runs first. -/
def unwind : List Item → S × Completion V → List Event
  | [], _ => []
  | call :: stack, left => shown call left.2 ++ unwind stack (leave call left)

/-- Runs the items; deferred ones run when the function is left, the last one first. -/
def execute : List Item → List Item → S → List Event
  | [], stack, s => unwind leave stack (s, .normal)
  | .statement statement :: rest, stack, s =>
    .ran statement :: match run statement s with
      | (s', .normal) => execute rest stack s'
      | left => unwind leave stack left
  | call :: rest, stack, s => execute rest (call :: stack) s

/-- What is seen of statements, and how they end. -/
structure Trace (S V : Type) where
  events : List Event
  left : S × Completion V

def trace : List Stmt → S → Trace S V
  | [], s => ⟨[], s, .normal⟩
  | statement :: rest, s =>
    match run statement s with
    | (s', .normal) => ⟨.ran statement :: (trace rest s').events, (trace rest s').left⟩
    | left => ⟨[.ran statement], left⟩

/-- Java closes an opened resource as soon as what follows it has ended. -/
def javaBody (body : List Stmt) : List Resource → S → Trace S V
  | [], s => trace run body s
  | r :: rs, s =>
    match (trace run r.opening s).left with
    | (s', .normal) =>
      let inner := javaBody body rs s'
      ⟨(trace run r.opening s).events ++ inner.events ++ [.closed r.closer],
        leave (.close r.closer) inner.left⟩
    | left => ⟨(trace run r.opening s).events, left⟩

/-- A Java try, whose handlers and final block come last. -/
def javaTrace (body : List Stmt) (rs : List Resource) (stack : List Item) (s : S) : List Event :=
  (javaBody run leave body rs s).events ++ unwind leave stack (javaBody run leave body rs s).left

/-- How many resources are opened. -/
def opened : List Resource → S → Nat
  | [], _ => 0
  | r :: rs, s =>
    match (trace run r.opening s).left with
    | (s', .normal) => opened rs s' + 1
    | _ => 0

variable {run leave} (stack : List Item) (s : S) (rs : List Resource)

lemma execute_statements (ss : List Stmt) (rest : List Item) :
    execute run leave (ss.map .statement ++ rest) stack s
      = (trace run ss s).events ++ match (trace run ss s).left with
        | (s', .normal) => execute run leave rest stack s'
        | left => unwind leave stack left := by
  induction ss generalizing s with
  | nil => rfl
  | cons statement ss ih =>
    rw [map_cons, cons_append, execute, trace]
    rcases run statement s with ⟨s', completion⟩
    cases completion with
    | normal => simp [ih]
    | returns => rfl
    | panics v => rfl

lemma execute_body (body : List Stmt) :
    execute run leave (body.map .statement) stack s
      = (trace run body s).events ++ unwind leave stack (trace run body s).left := by
  rw [← append_nil (body.map _), execute_statements]
  rcases (trace run body s).left with ⟨s', completion⟩
  cases completion <;> rfl

lemma execute_calls (h : ∀ call ∈ calls, ∀ statement, call ≠ .statement statement)
    (rest stack : List Item) (s : S) :
    execute run leave (calls ++ rest) stack s
      = execute run leave rest (calls.reverse ++ stack) s := by
  induction calls generalizing stack with
  | nil => rfl
  | cons call calls ih =>
    obtain ⟨hcall, hcalls⟩ := forall_mem_cons.1 h
    have hpush : execute run leave (call :: (calls ++ rest)) stack s
        = execute run leave (calls ++ rest) (call :: stack) s := by
      cases call with
      | statement statement => exact absurd rfl (hcall statement)
      | _ => rfl
    rw [cons_append, hpush, ih hcalls, reverse_cons, append_assoc]
    rfl

section

variable {body : List Stmt}

lemma javaTrace_cons (r : Resource) :
    javaTrace run leave body (r :: rs) stack s
      = (trace run r.opening s).events ++ match (trace run r.opening s).left with
        | (s', .normal) => javaTrace run leave body rs (.close r.closer :: stack) s'
        | left => unwind leave stack left := by
  rw [javaTrace, javaBody]
  rcases (trace run r.opening s).left with ⟨s', completion⟩
  cases completion with
  | normal => simp [javaTrace, unwind, shown]
  | returns | panics => rfl

variable (run leave body) in
def goRest (rs : List Resource) (waiting : List Item) : List Item → S → List Event :=
  execute run leave ((rs.flatMap Resource.opening).map .statement
    ++ (waiting ++ (rs.map fun r => .close r.closer) ++ body.map .statement))

lemma goRest_cons (r : Resource) (waiting : List Item) :
    goRest run leave body (r :: rs) waiting stack s
      = (trace run r.opening s).events ++ match (trace run r.opening s).left with
        | (s', .normal) => goRest run leave body rs (waiting ++ [.close r.closer]) stack s'
        | left => unwind leave stack left := by
  simp [goRest, ← execute_statements]

lemma goRest_of_opened {rs : List Resource} {s : S} (h : opened run rs s = rs.length)
    {waiting : List Item} (hwaiting : ∀ call ∈ waiting, ∀ statement, call ≠ .statement statement)
    (stack : List Item) :
    goRest run leave body rs waiting stack s
      = javaTrace run leave body rs (waiting.reverse ++ stack) s := by
  induction rs generalizing s waiting with
  | nil =>
    change execute run leave (waiting ++ [] ++ body.map .statement) stack s = _
    rw [append_nil, execute_calls hwaiting, execute_body]
    rfl
  | cons r rs ih =>
    rw [goRest_cons, javaTrace_cons]
    rw [opened] at h
    revert h
    rcases (trace run r.opening s).left with ⟨s', completion⟩
    intro h
    cases completion with
    | normal =>
      have hmore : ∀ call ∈ waiting ++ [.close r.closer], ∀ statement,
          call ≠ .statement statement :=
        forall_mem_append.2 ⟨hwaiting, forall_mem_singleton.2 nofun⟩
      simp [ih (Nat.succ.inj h) hmore]
    | returns => cases h
    | panics v => cases h

end

def closedIn (events : List Event) : List Expr :=
  events.filterMap Event.closed?

lemma closedIn_append (events more : List Event) :
    closedIn (events ++ more) = closedIn events ++ closedIn more :=
  filterMap_append

lemma closedIn_trace (ss : List Stmt) : closedIn (trace run ss s).events = [] := by
  induction ss generalizing s with
  | nil => rfl
  | cons statement ss ih =>
    rw [trace]
    split
    · exact ih _
    · rfl

def Item.closes? : Item → Option Expr
  | .close resource => some resource
  | _ => none

lemma closedIn_unwind (left : S × Completion V) :
    closedIn (unwind leave stack left) = stack.filterMap Item.closes? := by
  induction stack generalizing left with
  | nil => rfl
  | cons call stack ih =>
    rw [unwind, closedIn_append, ih]
    obtain ⟨s, completion⟩ := left
    cases call <;> cases completion <;> rfl

lemma closedIn_javaTrace :
    closedIn (javaTrace run leave body rs stack s)
      = ((rs.take (opened run rs s)).map Resource.closer).reverse
        ++ stack.filterMap Item.closes? := by
  induction rs generalizing stack s with
  | nil =>
    rw [javaTrace, closedIn_append, closedIn_unwind, javaBody, closedIn_trace]
    rfl
  | cons r rs ih =>
    rw [javaTrace_cons, closedIn_append, closedIn_trace, opened]
    rcases (trace run r.opening s).left with ⟨s', completion⟩
    cases completion with
    | normal => simp [ih, Item.closes?]
    | returns => exact closedIn_unwind stack _
    | panics v => exact closedIn_unwind stack _

lemma closedIn_goRest {rs : List Resource} {s : S} (h : opened run rs s ≠ rs.length)
    (waiting stack : List Item) :
    closedIn (goRest run leave body rs waiting stack s) = stack.filterMap Item.closes? := by
  induction rs generalizing s waiting with
  | nil => exact absurd rfl h
  | cons r rs ih =>
    rw [goRest_cons, closedIn_append, closedIn_trace]
    rw [opened] at h
    revert h
    rcases (trace run r.opening s).left with ⟨s', completion⟩
    intro h
    cases completion with
    | normal => exact ih (fun heq => h (congrArg Nat.succ heq)) _
    | returns => exact closedIn_unwind stack _
    | panics v => exact closedIn_unwind stack _

variable (body : List Stmt) (catches : List CatchClause) (finallyBody : Option (List Stmt))
  (rs : List Resource)

variable (run leave) in
/-- What is seen of the function that a try statement is written as. -/
def goTrace (s : S) : List Event :=
  execute run leave
    (items body catches finallyBody (rs.flatMap Resource.opening) (rs.map Resource.closer)) [] s

lemma goTrace_eq_goRest :
    goTrace run leave body catches finallyBody rs s
      = goRest run leave body rs [] (handlers catches finallyBody).reverse s := by
  have hcalls : ∀ call ∈ handlers catches finallyBody, ∀ statement,
      call ≠ .statement statement := by
    intro call hcall statement
    rcases mem_append.1 hcall with hfinal | hrecover
    · obtain ⟨block, -, rfl⟩ := Option.map_eq_some_iff.1 (Option.mem_toList.1 hfinal)
      exact nofun
    · split at hrecover
      · cases hrecover
      · obtain rfl := mem_singleton.1 hrecover
        exact nofun
  rw [goTrace, items, execute_calls hcalls, append_nil, map_map]
  rfl

lemma closes?_handlers : (handlers catches finallyBody).reverse.filterMap Item.closes? = [] := by
  unfold handlers
  cases finallyBody <;> split <;> rfl

variable {body catches finallyBody rs}

lemma goTrace_eq_javaTrace_iff :
    goTrace run leave body catches finallyBody rs s
        = javaTrace run leave body rs (handlers catches finallyBody).reverse s
      ↔ opened run rs s = rs.length ∨ opened run rs s = 0 := by
  rw [goTrace_eq_goRest]
  constructor
  · intro heq
    by_cases hall : opened run rs s = rs.length
    · exact .inl hall
    have hclosed := congrArg closedIn heq
    rw [closedIn_goRest hall, closedIn_javaTrace] at hclosed
    have hnone : rs.take (opened run rs s) = [] := by simpa using hclosed.symm
    rcases take_eq_nil_iff.1 hnone with hzero | hempty
    · exact .inr hzero
    · exact absurd (by rw [hempty]; rfl) hall
  · rintro (hall | hnone)
    · exact goRest_of_opened hall (forall_mem_nil _) _
    · cases rs with
      | nil => exact goRest_of_opened rfl (forall_mem_nil _) _
      | cons r rs =>
        rw [goRest_cons, javaTrace_cons]
        rw [opened] at hnone
        revert hnone
        rcases (trace run r.opening s).left with ⟨s', completion⟩
        intro hnone
        cases completion with
        | normal => cases hnone
        | returns => rfl
        | panics v => rfl

end

section

variable {c : Context} {t t' : Trail} {node : Node} {ss : List Stmt}

/-- The resources of a try statement. -/
def resourceNodes (node : Node) : List Node :=
  (node.fieldChild? "resources").elim [] fun list => list.childrenOfKind .resource

lemma exists_of_addResource (h : (addResource found node).runAt c t = (.ok found', t')) :
    ∃ r : Resource, found' = ⟨found.declarations ++ r.opening, found.closers ++ [r.closer]⟩ := by
  unfold addResource at h
  split at h
  · simp only [runAt_bind_eq_ok] at h
    obtain ⟨first, t₁, -, value, t₂, -, ⟨⟩⟩ := h
    exact ⟨⟨_, _⟩, rfl⟩
  · simp only [runAt_bind_eq_ok] at h
    obtain ⟨inner, t₁, -, value, t₂, -, u, t₃, -, ⟨⟩⟩ := h
    exact ⟨⟨_, _⟩, by rw [append_assoc]⟩

lemma exists_of_resources {nodes : List Node}
    (h : (nodes.foldlM addResource found).runAt c t = (.ok found', t')) :
    ∃ rs : List Resource, rs.length = nodes.length
      ∧ found'.declarations = found.declarations ++ rs.flatMap Resource.opening
      ∧ found'.closers = found.closers ++ rs.map Resource.closer := by
  induction nodes generalizing found t with
  | nil =>
    cases h
    exact ⟨[], by simp⟩
  | cons node nodes ih =>
    obtain ⟨next, t₁, hnext, hrest⟩ := exists_of_bind h
    obtain ⟨r, rfl⟩ := exists_of_addResource hnext
    obtain ⟨rs, hlength, hdeclarations, hclosers⟩ := ih hrest
    exact ⟨r :: rs, by simp [hlength], by simp [hdeclarations], by simp [hclosers]⟩

/-- For every try statement that is lowered, with whatever its statements and closers do: its text
is that of a function that opens its resources, defers their closers and runs its body; Java closes
the resources that have been opened, each once and the last one first; and the function does what
Java does, with everything closed before a panic is caught and before the final block, exactly when
all resources are opened or none is. -/
theorem resources_closed_iff
    (htry : node.kind = .tryStatement ∨ node.kind = .tryWithResourcesStatement)
    (hrun : (Lower.statement node).runAt c t = (.ok ss, t')) :
    ∃ body catches finallyBody, ∃ rs : List Resource,
      rs.length = (resourceNodes node).length
      ∧ ss.getLast? = some (.tryCatch body catches finallyBody (rs.flatMap Resource.opening)
          (rs.map Resource.closer))
      ∧ (Stmt.tryCatch body catches finallyBody (rs.flatMap Resource.opening)
            (rs.map Resource.closer)).text
          = Text.unlines ("func() \x7b" :: (items body catches finallyBody
            (rs.flatMap Resource.opening) (rs.map Resource.closer)).flatMap Item.lines
              ++ ["\x7d()"])
      ∧ ∀ {S V : Type} (run : Stmt → S → S × Completion V)
          (leave : Item → S × Completion V → S × Completion V) (s : S),
        closedIn (javaTrace run leave body rs (handlers catches finallyBody).reverse s)
            = ((rs.take (opened run rs s)).map Resource.closer).reverse
          ∧ (goTrace run leave body catches finallyBody rs s
                = javaTrace run leave body rs (handlers catches finallyBody).reverse s
              ↔ opened run rs s = rs.length ∨ opened run rs s = 0) := by
  have htries : ∃ go, (Lower.tryWith go node).runAt c t = (.ok ss, t') := by
    rw [Lower.statement_eq_step, Lower.statementStep] at hrun
    rcases htry with htry | htry <;> rw [htry] at hrun <;> exact ⟨_, hrun⟩
  obtain ⟨go, htries⟩ := htries
  obtain ⟨bodyNode, t₁, -, hfrom₁⟩ := Lower.exists_of_bind htries
  obtain ⟨⟨found, body⟩, t₂, hopened, hfrom₂⟩ := Lower.exists_of_bind hfrom₁
  obtain ⟨ended, t₃, -, hlast⟩ := Lower.exists_of_bind hfrom₂
  cases hlast
  have hresources : ∃ rs : List Resource, rs.length = (resourceNodes node).length
      ∧ found.declarations = rs.flatMap Resource.opening
      ∧ found.closers = rs.map Resource.closer := by
    obtain ⟨t₄, hinner, -⟩ := Lower.exists_of_runAt_withScopes hopened
    obtain ⟨first, t₅, hfirst, hrest⟩ := Lower.exists_of_bind hinner
    obtain ⟨block, t₆, -, hboth⟩ := Lower.exists_of_bind hrest
    cases hboth
    unfold Lower.resources at hfirst
    unfold resourceNodes
    split at hfirst
    · rename_i hnone
      cases hfirst
      exact ⟨[], by simp [hnone]⟩
    · rename_i list hlist
      obtain ⟨rs, hlength, hdeclarations, hclosers⟩ := exists_of_resources hfirst
      exact ⟨rs, by simpa [hlist] using hlength, by simpa using hdeclarations,
        by simpa using hclosers⟩
  obtain ⟨rs, hlength, hdeclarations, hclosers⟩ := hresources
  refine ⟨body, ended.catches, ended.finallyBody, rs, hlength, ?_, text_tryCatch ..,
    fun run leave s =>
    ⟨?_, goTrace_eq_javaTrace_iff s⟩⟩
  · simp [hdeclarations, hclosers]
  · rw [closedIn_javaTrace, closes?_handlers, List.append_nil]

end

def doorResource (number : Nat) (name value : String) : Node :=
  .tree number .resource
    [.plain (number + 1) .typeIdentifier (some "type") "Door" [],
     .called (number + 2) name,
     .plain (number + 3) .identifier (some "value") value []]

/-- A try statement with the resources `Door a = x` and `Door b = y`. -/
def doorTry (statements handlers : List Node) : Node :=
  .tree 0 .tryWithResourcesStatement
    (.plain 1 (.other "resource_specification") (some "resources") ""
        [doorResource 3 "a" "x", doorResource 7 "b" "y"]
      :: .body 2 statements :: handlers)

def stepping (number : Nat) (name : String) : Node :=
  .tree number .expressionStatement [.tree (number + 1) .update
    [.leaf (number + 2) .identifier name, .leaf (number + 3) .increment "++"]]

/-- `try (Door a = x; Door b = y) { i++; } catch (Jam e) { j++; } finally { k++; }` -/
def handledTry : Node :=
  doorTry [stepping 11 "i"]
    [.tree 15 .catchClause
      [.tree 16 .catchFormalParameter
        [.tree 17 .catchType [.leaf 18 .typeIdentifier "Jam"], .called 19 "e"],
       .body 20 [stepping 21 "j"]],
     .tree 25 .finallyClause [.tree 26 .block [stepping 27 "k"]]]

/-- The handler of `handledTry`. -/
def jamClause : CatchClause :=
  .mk "Jam" [.step (.var "j") "++"] none

def handledCode : List Stmt :=
  [.tryCatch [.step (.var "i") "++"] [jamClause] (some [.step (.var "k") "++"])
    [.var "a" none (some (.var "x")) true, .var "b" none (some (.var "y")) true]
    [.var "a", .var "b"]]

/-- When both doors have been opened, the code closes `b` and then `a`, and does what Java does. -/
theorem resources_closed_handledTry :
    (Lower.statement handledTry).runAt default {} = (.ok handledCode, {})
      ∧ ∃ rs : List Resource, rs.map Resource.closer = [.var "a", .var "b"]
        ∧ ∀ {S V : Type} (run : Stmt → S → S × Completion V)
            (leave : Item → S × Completion V → S × Completion V) (s : S), opened run rs s = 2 →
          goTrace run leave [.step (.var "i") "++"] [jamClause] (some [.step (.var "k") "++"]) rs s
              = javaTrace run leave [.step (.var "i") "++"] rs
                (handlers [jamClause] (some [.step (.var "k") "++"])).reverse s
            ∧ closedIn (goTrace run leave [.step (.var "i") "++"] [jamClause]
                (some [.step (.var "k") "++"]) rs s) = [.var "b", .var "a"] := by
  have hrun : (Lower.statement handledTry).runAt default {} = (.ok handledCode, {}) := rfl
  obtain ⟨body, catches, finallyBody, rs, hlength, hlast, -, hruns⟩ :=
    resources_closed_iff (.inr rfl) hrun
  obtain ⟨rfl, rfl, rfl, -, hclosers⟩ := Stmt.tryCatch.inj (Option.some.inj hlast)
  refine ⟨hrun, rs, hclosers.symm, fun run leave s hopened => ?_⟩
  have hall : opened run rs s = rs.length := hopened.trans hlength.symm
  obtain ⟨hclosed, hiff⟩ := hruns run leave s
  rw [hall, take_length, ← hclosers] at hclosed
  have hsame := hiff.2 (.inl hall)
  exact ⟨hsame, (congrArg closedIn hsame).trans hclosed⟩

/-- Every statement completes but the one that opens `b`. -/
def stuck : Stmt → Unit → Unit × Completion Unit
  | .var "b" .., _ => ((), .panics ())
  | _, _ => ((), .normal)

/-- The code of `try (Door a = x; Door b = y) { }` does not close `a` when `b` cannot be
opened. -/
theorem opened_resource_not_closed :
    ∃ rs : List Resource,
      ((Lower.statement (doorTry [] [])).runAt default {}).1
        = .ok [.tryCatch [] [] none (rs.flatMap Resource.opening) (rs.map Resource.closer)]
      ∧ opened stuck rs () = 1
      ∧ closedIn (javaTrace stuck (fun _ left => left) [] rs [] ()) = [.var "a"]
      ∧ closedIn (goTrace stuck (fun _ left => left) [] [] none rs ()) = [] :=
  ⟨[⟨[.var "a" none (some (.var "x")) true], .var "a"⟩,
    ⟨[.var "b" none (some (.var "y")) true], .var "b"⟩], rfl, rfl, rfl, rfl⟩

end JavaToGo.Closing
