import JavaToGo.Proofs.Draft.Run
import JavaToGo.Proofs.Lowering.Members

/-!
# Lowering with one state

Lowering hands a changed context down and forgets it.  Here it is carried out
with one state instead, of which every field can be assigned: what was assigned
for a part is put back when the part ends, with a result or with a failure.
-/

namespace JavaToGo

open Lower

/-- The state of a conversion: where it stands, and what it has written. -/
structure Machine where
  context : Context
  draft : Draft

/-- Assigns fields of the context. -/
def Machine.within (m : Machine) (c : Context) : Machine :=
  { m with context := c }

/-- Assigns the stack of scopes. -/
def Machine.scoped (m : Machine) (scopes : List Scope) : Machine :=
  { m with draft := { m.draft with scopes := scopes } }

/-- Carrying out the computation in the first state ends with the outcome in the second one. -/
inductive Executes : {α : Type} → Lower α → Machine → Except Failure α → Machine → Prop
  | lift (x : Outcome γ) (m : Machine) : Executes (liftM x) m x m
  | read (m : Machine) : Executes MonadReader.read m (.ok m.context) m
  | isLocal (name : String) (m : Machine) :
      Executes (Lower.isLocal name) m (.ok (inScopes m.draft.scopes name)) m
  | declareLocal (name : String) (m : Machine) :
      Executes (Lower.declareLocal name) m (.ok ()) (m.scoped (declareIn name m.draft.scopes))
  | requireImport (path : String) (m : Machine) :
      Executes (Lower.requireImport path) m (.ok ())
        ⟨m.context, { m.draft with
          file := { m.draft.file with
            imports := Code.addImport m.draft.file.imports { path := path } } }⟩
  | noteAll (events : List Event) (m : Machine) :
      Executes (Lower.noteAll events) m (.ok ())
        ⟨m.context, { m.draft with log := m.draft.log ++ events }⟩
  | expecting {x : Lower γ} (h : Executes x (m.within { m.context with expected := type }) r m') :
      Executes (Lower.expecting type x) m r
        (m'.within { m'.context with expected := m.context.expected })
  | returning {x : Lower γ} (h : Executes x (m.within { m.context with inReturn := true }) r m') :
      Executes (Lower.returning x) m r
        (m'.within { m'.context with inReturn := m.context.inReturn })
  | withReceiver {x : Lower γ}
    (h : Executes x (m.within { m.context with receiver := self }) r m') :
      Executes (Lower.withReceiver self x) m r
        (m'.within { m'.context with receiver := m.context.receiver })
  | withTypeParams {x : Lower γ}
      (h : Executes x
        (m.within { m.context with typeParams := names :: m.context.typeParams }) r m') :
      Executes (Lower.withTypeParams names x) m r
        (m'.within { m'.context with typeParams := m'.context.typeParams.tail })
  | withScope {x : Lower γ}
      (h : Executes x (m.scoped (Scope.ofNames names :: m.draft.scopes)) r m') :
      Executes (Lower.withScope names x) m r (m'.scoped m'.draft.scopes.tail)
  | withFunctionScope {x : Lower γ}
      (h : Executes x ((m.within { m.context with returnShape := shape, inReturn := false }).scoped
        [Scope.ofNames params]) r m') :
      Executes (Lower.withFunctionScope params shape x) m r
        ((m'.within { m'.context with returnShape := m.context.returnShape,
                                      inReturn := m.context.inReturn }).scoped m.draft.scopes)
  | bind {x : Lower γ} {f : γ → Lower δ} (hx : Executes x m (.ok a) m₁)
      (hf : Executes (f a) m₁ r m₂) : Executes (x >>= f) m r m₂
  | stop {failure : Failure} {x : Lower γ} {f : γ → Lower δ}
      (hx : Executes x m (.error failure) m₁) : Executes (x >>= f) m (.error failure) m₁

/-- The computation and its execution have ended alike, and the state differs by what was written,
with names added to the innermost scope only. -/
structure Agrees (x : Lower α) (m : Machine) (r : Except Failure α) (m' : Machine) : Prop where
  run : x.runAt m.context m.draft.trail = (r, m'.draft.trail)
  context : m'.context = m.context
  draft : m'.draft = m.draft.withTrail m'.draft.trail
  scopes : Grows (fun _ => True) m.draft.scopes m'.draft.scopes

namespace Agrees

variable {α β : Type} {x : Lower α} {m m' : Machine} {r : Except Failure α}

lemma bind {f : α → Lower β} {r : Except Failure β} (hx : Agrees x m (.ok a) m₁)
    (hf : Agrees (f a) m₁ r m₂) : Agrees (x >>= f) m r m₂ where
  run := by rw [runAt_bind, hx.run, ← hf.run, hx.context]
  context := hf.context.trans hx.context
  draft := by
    rw [hf.draft, hx.draft]
    rfl
  scopes := hx.scopes.trans hf.scopes

lemma withScopes (enter : List Scope → List Scope) (leave : List Scope → List Scope → List Scope)
    (c : Context) (h : Agrees x ((m.within c).scoped (enter m.draft.scopes)) r m') :
    let after := (m'.scoped (leave m.draft.scopes m'.draft.scopes)).draft
    (Lower.withScopes enter leave x).runAt c m.draft.trail = (r, after.trail)
      ∧ after = m.draft.withTrail after.trail := by
  constructor
  · have hrun : x.runAt c { m.draft.trail with scopes := enter m.draft.trail.scopes }
        = (r, m'.draft.trail) := h.run
    rw [runAt_withScopes, hrun]
    rfl
  · rw [Machine.scoped, h.draft]
    rfl

lemma withScope {names : List String}
    (h : Agrees x (m.scoped (Scope.ofNames names :: m.draft.scopes)) r m') :
    Agrees (Lower.withScope names x) m r (m'.scoped m'.draft.scopes.tail) := by
  obtain ⟨hrun, hdraft⟩ :=
    h.withScopes (Scope.ofNames names :: ·) (fun _ after => after.tail) m.context
  -- What is popped is the scope that was pushed, with the names that came to it.
  have hpopped : m'.draft.scopes.tail = m.draft.scopes := h.scopes.tail_eq
  exact ⟨hrun, h.context, hdraft, hpopped.symm ▸ .refl _⟩

lemma withFunctionScope {params : List String} {shape : Option ReturnShape}
    (h : Agrees x ((m.within { m.context with returnShape := shape, inReturn := false }).scoped
      [Scope.ofNames params]) r m') :
    Agrees (Lower.withFunctionScope params shape x) m r
      ((m'.within { m'.context with returnShape := m.context.returnShape,
                                    inReturn := m.context.inReturn }).scoped m.draft.scopes) := by
  obtain ⟨hrun, hdraft⟩ :=
    h.withScopes (fun _ => [Scope.ofNames params]) (fun before _ => before) _
  refine ⟨hrun, ?_, hdraft, .refl _⟩
  rw [Machine.scoped, Machine.within, h.context]
  rfl

/-- A computation determines how its executions end. -/
lemma unique (h : Agrees x m r m₁) (h' : Agrees x m r' m₂) : r = r' ∧ m₁ = m₂ := by
  obtain ⟨hr, htrail⟩ := Prod.mk.inj (h.run.symm.trans h'.run)
  have hdraft : m₁.draft = m₂.draft := by rw [h.draft, h'.draft, htrail]
  have hcontext : m₁.context = m₂.context := h.context.trans h'.context.symm
  cases m₁
  cases m₂
  cases hdraft
  cases hcontext
  exact ⟨hr, rfl⟩

end Agrees

/-- However a computation is executed, it ends as it does when it runs, and each field is as it was
but for what is written. -/
lemma Executes.agrees {x : Lower α} (h : Executes x m r m') : Agrees x m r m' := by
  induction h with
  | lift x m => exact ⟨by rw [runAt_lift], rfl, rfl, .refl _⟩
  | read | isLocal | requireImport | noteAll => exact ⟨rfl, rfl, rfl, .refl _⟩
  | declareLocal name m => exact ⟨rfl, rfl, rfl, .declare trivial _⟩
  | expecting _ ih | returning _ ih | withReceiver _ ih | withTypeParams _ ih =>
    exact ⟨ih.run, by rw [Machine.within, ih.context]; rfl, ih.draft, ih.scopes⟩
  | withScope _ ih => exact ih.withScope
  | withFunctionScope _ ih => exact ih.withFunctionScope
  | bind _ _ ihx ihf => exact ihx.bind ihf
  | stop _ ih => exact ⟨by rw [runAt_bind, ih.run], ih.context, ih.draft, ih.scopes⟩

namespace Lower

variable {α β : Type} {x : Lower α} {f : α → Lower β}

/-- In every state the computation has an execution. -/
def Executable (x : Lower α) : Prop :=
  ∀ m, ∃ r m', Executes x m r m'

lemma Executable.lift (x : Outcome α) : (liftM x : Lower α).Executable :=
  fun m => ⟨x, m, .lift x m⟩

/-- The second part is executed in the state that the first has left. -/
lemma exists_executes_bind {m : Machine} (hx : ∃ r m', Executes x m r m')
    (hf : ∀ a m₁, Executes x m (.ok a) m₁ → ∃ r m', Executes (f a) m₁ r m') :
    ∃ r m', Executes (x >>= f) m r m' := by
  obtain ⟨outcome, m₁, hfirst⟩ := hx
  cases outcome with
  | error failure => exact ⟨_, _, .stop hfirst⟩
  | ok a =>
    obtain ⟨r, m₂, hsecond⟩ := hf a m₁ hfirst
    exact ⟨r, m₂, .bind hfirst hsecond⟩

lemma Executable.bind (hx : x.Executable) (hf : ∀ a, (f a).Executable) : (x >>= f).Executable :=
  fun m => exists_executes_bind (hx m) fun a m₁ _ => hf a m₁

lemma Asks.executable {asked : String → Prop} (h : x.Asks asked) : x.Executable := by
  induction h with
  | @lift _ x => exact .lift x
  | read _ _ ih => exact .bind (fun m => ⟨_, m, .read m⟩) ih
  | isLocal => exact fun m => ⟨_, m, .isLocal _ m⟩
  | bind _ _ ihx ihf => exact ihx.bind ihf

lemma Emits.executable {S : Scale} {value : Node → Lower Lowered} {code : Node → Lower (List Stmt)}
    (hvalue : ∀ node, (value node).Executable) (hcode : ∀ node, (code node).Executable)
    (h : Emits S value code p parts held x total) :
    ∀ m : Machine, m.context.setting = p → ∃ r m', Executes x m r m' := by
  induction h with
  | @pure _ _ _ a => exact fun m _ => Executable.lift (.ok a) m
  | @fail _ _ _ _ failure => exact fun m _ => Executable.lift (.error failure) m
  | asks hx => exact fun m _ => hx.executable m
  | read _ ih =>
    intro m hm
    obtain ⟨r, m', h⟩ := ih m.context hm m hm
    exact ⟨r, m', .bind (.read m) h⟩
  | value node | maybe node => exact fun m _ => hvalue node m
  | unused _ _ ih | behind _ _ _ ih | drop _ _ ih => exact ih
  | code node => exact fun m _ => hcode node m
  | declareLocal => exact fun m _ => ⟨_, _, .declareLocal _ m⟩
  | requireImport => exact fun m _ => ⟨_, _, .requireImport _ m⟩
  | noteAll events => exact fun m _ => ⟨_, _, .noteAll events m⟩
  | expecting _ type ih =>
    intro m hm
    obtain ⟨r, m', h⟩ := ih (m.within { m.context with expected := type }) hm
    exact ⟨r, _, .expecting h⟩
  | returning _ ih =>
    intro m hm
    obtain ⟨r, m', h⟩ := ih (m.within { m.context with inReturn := true }) (by cases hm; rfl)
    exact ⟨r, _, .returning h⟩
  | withScope _ names ih =>
    intro m hm
    obtain ⟨r, m', h⟩ := ih (m.scoped (Scope.ofNames names :: m.draft.scopes)) hm
    exact ⟨r, _, .withScope h⟩
  | bind _ hpost _ ihx ihf =>
    intro m hm
    refine exists_executes_bind (ihx m hm) fun a m₁ hfirst => ?_
    have hagrees := hfirst.agrees
    exact ihf a (hpost _ _ _ _ hm hagrees.run) m₁ (by rw [hagrees.context, hm])

lemma executable_expressionWithin (height : Nat) :
    ∀ node, (expressionWithin height node).Executable := by
  induction height with
  | zero => exact fun node => .lift (.error (.fault .tooDeep))
  | succ height ih =>
    exact fun node m => (emits_nothing_expression height node _).executable ih
      (fun _ => .lift (.ok [])) m rfl

lemma executable_expression (node : Node) : (expression node).Executable :=
  executable_expressionWithin node.height node

lemma executable_statementWithin (height : Nat) :
    ∀ node, (statementWithin height node).Executable := by
  induction height with
  | zero => exact fun node => .lift (.error (.fault .tooDeep))
  | succ height ih =>
    exact fun node m => (emits_nothing_statement height node _).executable executable_expression
      ih m rfl

lemma executable_statement (node : Node) : (statement node).Executable :=
  executable_statementWithin node.height node

lemma executable_block (node : Node) : (block node).Executable := by
  intro m
  have hrule : EmitsCode .nothing expression statement m.context.setting _ 0 (block node) :=
    emits_blockWith node
  exact hrule.executable executable_expression executable_statement m rfl

end Lower

/-- The draft with names added to the innermost scope, imports to the file, and events. -/
def Draft.withTraces (d : Draft) (innermost : Scope) (outer : List Scope) (names : List String)
    (imports : List Code.Import) (events : List Event) : Draft :=
  { d with
    scopes := (innermost ++ names) :: outer
    log := d.log ++ events
    file := { d.file with imports := d.file.imports ++ imports } }

/-- The computation has an execution and every execution of it ends alike, with a result or with a
failure.  The state is then as it was in all its fields, but for names in the innermost scope,
imports of `fmt` and `os`, and events; a script that lowers the computation goes on with that. -/
def Machine.LeavesTraces (m : Machine) (x : Lower α) (innermost : Scope) (outer : List Scope) :
    Prop :=
  ∃ (outcome : Except Failure α) (names : List String) (imports : List Code.Import)
      (events : List Event),
    let m' : Machine := ⟨m.context, m.draft.withTraces innermost outer names imports events⟩
    (∀ i ∈ imports, i.IsSupport) ∧ Executes x m outcome m'
      ∧ (∀ r m₁, Executes x m r m₁ → r = outcome ∧ m₁ = m')
      ∧ ∀ mode, (Build.lower x).runAt mode m.context m.draft = (outcome, m'.draft)

lemma Lower.Executable.leavesTraces {m : Machine} {x : Lower α} (hx : x.Executable)
    (hframed : x.Framed) (hscopes : m.draft.scopes = innermost :: outer) :
    m.LeavesTraces x innermost outer := by
  obtain ⟨outcome, m', hexecutes⟩ := hx m
  have hagrees := hexecutes.agrees
  obtain ⟨-, ⟨imports, hsupport, himports⟩, events, hevents⟩ := hframed m.context m.draft.trail
  rw [hagrees.run] at himports hevents
  have hinner := hagrees.scopes
  rw [hscopes] at hinner
  obtain ⟨names, hnames⟩ := hinner.exists_append
  have hdraft : m'.draft = m.draft.withTraces innermost outer names imports events := by
    have htrail : m'.draft.trail = ⟨(innermost ++ names) :: outer, m.draft.file.imports ++ imports,
        m.draft.log ++ events⟩ := by
      rw [← hnames]
      exact congrArg₂ (Trail.mk _) himports hevents.symm
    rw [hagrees.draft, htrail]
    rfl
  obtain ⟨context, draft⟩ := m'
  obtain rfl : context = m.context := hagrees.context
  subst hdraft
  refine ⟨outcome, names, imports, events, hsupport, hexecutes, ?_, fun mode => ?_⟩
  · exact fun r m₁ h => h.agrees.unique hagrees
  · rw [Build.runAt_lower, hagrees.run]
    exact congrArg (Prod.mk _) hagrees.draft.symm

/-- Lowering an expression, a statement or a block leaves alone all that it does not add to,
whether it returns or fails. -/
theorem lowering_framed (node : Node) {m : Machine}
    (hscopes : m.draft.scopes = innermost :: outer) :
    m.LeavesTraces (Lower.expression node) innermost outer
      ∧ m.LeavesTraces (Lower.statement node) innermost outer
      ∧ m.LeavesTraces (Lower.block node) innermost outer :=
  ⟨(Lower.executable_expression node).leavesTraces (Lower.composed_expression node).framed hscopes,
    (Lower.executable_statement node).leavesTraces (Lower.composed_statement node).framed hscopes,
    (Lower.executable_block node).leavesTraces (Lower.composed_block node).framed hscopes⟩

/-- `var n = 1, m;`, of which the second has no type. -/
def untypedPair : Node :=
  .tree 0 .localVariableDeclaration
    [.plain 1 .typeIdentifier (some "type") "var" [],
     .plain 2 .variableDeclarator (some "declarator") ""
      [.called 3 "n",
       .plain 4 .decimalInteger (some "value") "1" []],
     .plain 5 .variableDeclarator (some "declarator") ""
      [.called 6 "m"]]

/-- `{ var n = 1, m; }` -/
def untypedBlock : Node :=
  .tree 7 .block [untypedPair]

def twoScopes : Machine :=
  ⟨default, { scopes := [["i"], ["args"]] }⟩

/-- A declaration that fails half-way leaves the name that it has declared in the innermost scope,
and nothing in the others.  Around it a block pops the scope that has the name. -/
theorem lowering_framed_untypedPair :
    (∃ failure m', Executes (Lower.statement untypedPair) twoScopes (.error failure) m'
        ∧ m'.draft.scopes = [["i", "n"], ["args"]])
      ∧ (∃ failure m', Executes (Lower.statement untypedBlock) twoScopes (.error failure) m'
        ∧ m'.draft.scopes = [["i"], ["args"]])
      ∧ twoScopes.LeavesTraces (Lower.expression untypedPair) ["i"] [["args"]]
      ∧ twoScopes.LeavesTraces (Lower.block untypedBlock) ["i"] [["args"]] := by
  have hfails : ∀ node, ((Build.lower (Lower.statement node)).runAt .tolerant twoScopes.context
      twoScopes.draft).1.isOk = false → ∃ failure m',
        Executes (Lower.statement node) twoScopes (.error failure) m'
          ∧ m'.draft.scopes = ((Build.lower (Lower.statement node)).runAt .tolerant
              twoScopes.context twoScopes.draft).2.scopes := by
    intro node hnot
    obtain ⟨-, ⟨outcome, names, imports, events, -, hexecutes, -, hrun⟩, -⟩ :=
      lowering_framed (m := twoScopes) node rfl
    rw [hrun] at hnot ⊢
    cases outcome with
    | ok => cases hnot
    | error failure => exact ⟨failure, _, hexecutes, rfl⟩
  refine ⟨?_, ?_, (lowering_framed untypedPair rfl).1, (lowering_framed untypedBlock rfl).2.2⟩
  · exact hfails untypedPair (by decide +kernel)
  · exact hfails untypedBlock (by decide +kernel)

end JavaToGo
