import JavaToGo.Proofs.Ambiguity.Refusals
import JavaToGo.Proofs.Conversion.Modes
import JavaToGo.Proofs.Declaration.OrderlyTypes

/-!
# Ambiguity and failure

A clean conversion leaves a mark for every ambiguity that it has logged, and no
other.  Ambiguous calls decide over failure at four places only: condition and
updates of a `for`, labels of a switch, arguments of an enum constant.
-/

namespace JavaToGo

lemma ambiguities_analyze (mode : Mode) (unit : CompilationUnit) :
    ambiguities (analyze mode unit [] {}).2.log = 0 := by
  refine (reaches_analyze mode unit [] {}).induct (I := fun s => ambiguities s.log = 0) ?_ rfl
  intro s s' hupdate hs
  cases hupdate with
  | other _ _ hlog => rwa [hlog]
  | filed | recorded => exact hs
  | refused | counted => rwa [ambiguities_concat rfl]

lemma ambiguities_convert_tolerant (hok : (convert .tolerant unit).outcome = .ok ())
    (hclean : (convert .tolerant unit).draft.diagnostics = []) (hroot : unit.root.SingleFinally) :
    ambiguities (convert .tolerant unit).draft.log = (convert .tolerant unit).draft.file.marks := by
  rcases hanalyze : analyze .tolerant unit [] {} with ⟨_ | u, findings⟩
  · rw [convert_of_analyze_error hanalyze] at hok
    cases hok
  · obtain ⟨draft, hrun, hstaged, hconvert⟩ := exists_runAt_tolerant hanalyze
    rw [hconvert] at hclean ⊢
    have hconforms : Build.wholeUnit.Conforms
        ⟨True, True, False, Context.ofUnit unit findings.symbols⟩ .none :=
      Build.conforms_wholeUnit (Build.numbersRecorded_free _)
        ⟨(Build.Proper.free _ _).recorded, fun _ => hroot, False.elim⟩
    have hbalance := hconforms.balance trivial ⟨hrun, hclean⟩
    have hlog : ambiguities findings.log = 0 := by
      have h := ambiguities_analyze .tolerant unit
      rwa [hanalyze] at h
    have hstart : (Draft.ofUnit unit findings.log).marks = 0 := rfl
    have hnoted : ambiguities (draft.noteOutcome unit.path).log = ambiguities draft.log := by
      refine ambiguities_concat ?_ draft.log
      split
      · rfl
      · rfl
    have hfile : (draft.noteOutcome unit.path).file.marks = draft.marks :=
      (Draft.marks_of_staged draft hstaged).symm
    rw [hnoted, hfile]
    have hbefore : ambiguities (Draft.ofUnit unit findings.log).log = 0 := hlog
    omega

/-- A conversion that returns and reports nothing leaves one mark in its file for each ambiguity
that it has logged, unless a try has several final blocks. -/
theorem every_ambiguity_marked {mode : Mode} {unit : CompilationUnit}
    (hok : (convert mode unit).outcome = .ok ())
    (hclean : (convert mode unit).draft.diagnostics = [])
    (hroot : unit.root.SingleFinally) :
    ambiguities (convert mode unit).draft.log = (convert mode unit).draft.file.marks := by
  cases mode with
  | tolerant => exact ambiguities_convert_tolerant hok hclean hroot
  | strict =>
    cases comparison unit with
    | clean hsame _ =>
      rw [hsame] at hok hclean ⊢
      exact ambiguities_convert_tolerant hok hclean hroot
    | failed failure hstrict _ _ =>
      rw [hstrict] at hok
      cases hok

def greetCall (field : Option String) : Node :=
  .plain 20 .methodInvocation field ""
    [.called 21 "greet",
     .plain 22 (.other "argument_list") (some "arguments") ""
       [.leaf 23 .decimalInteger "1"]]

def plainParameter (kind : Kind) (type name : String) : Node :=
  .tree 24 .formalParameter
    [.plain 25 kind (some "type") type [], .called 26 name]

/-- A class with `greet(int n)`, `greet(String s)` and a method `run` with the given statements. -/
def greeterUnit (statements : List Node) : CompilationUnit :=
  .ofTypes
    [.plainClass 1 [] "Greeter" []
      [.plainMethod 4 "greet" [plainParameter .integralType "int" "n"] [],
       .plainMethod 8 "greet" [plainParameter .typeIdentifier "String" "s"] [],
       .plainMethod 12 "run" [] statements]]

/-- A try with an empty body and the given final blocks. -/
def finalTry (finals : List (List Node)) : Node :=
  .tree 27 .tryStatement
    (.body 28 []
      :: finals.map fun statements =>
          .tree 29 .finallyClause [.tree 30 .block statements])

def greetStatement : Node :=
  .tree 31 .expressionStatement [greetCall none]

def greetingFinally : CompilationUnit :=
  greeterUnit [finalTry [[greetStatement]]]

/-- Two final blocks, the first with an ambiguous call. -/
def greetingOverwritten : CompilationUnit :=
  greeterUnit [finalTry [[greetStatement], []]]

theorem greetingFinally_marked :
    greetingFinally.root.SingleFinally
      ∧ ambiguities (convert .strict greetingFinally).draft.log = 1
      ∧ ambiguities (convert .strict greetingFinally).draft.log
          = (convert .strict greetingFinally).draft.file.marks := by
  have hok : (convert .strict greetingFinally).outcome = .ok () :=
    ok_of_isOk (by decide +kernel)
  have hclean : (convert .strict greetingFinally).draft.diagnostics = [] := by decide +kernel
  have hroot : greetingFinally.root.SingleFinally := by decide +kernel
  exact ⟨hroot, by decide +kernel, every_ambiguity_marked hok hclean hroot⟩

/-- The last of several final blocks is kept, and the marks of the others go with them. -/
theorem overwritten_final_block_loses_mark :
    (convert .strict greetingOverwritten).outcome = .ok ()
      ∧ (convert .strict greetingOverwritten).draft.diagnostics = []
      ∧ ambiguities (convert .strict greetingOverwritten).draft.log = 1
      ∧ (convert .strict greetingOverwritten).draft.file.marks = 0 :=
  ⟨ok_of_isOk (by decide +kernel), by decide +kernel, by decide +kernel, by decide +kernel⟩

namespace Lower

variable {α : Type} {refused : Failure → Prop} {c : Context} {b : Buckets}

section

/-- The computation returns at this place. -/
def Converts (x : Lower α) (c : Context) (t : Trail) : Prop :=
  ∃ a t', x.runAt c t = (.ok a, t')

/-- The computation fails on account of ambiguity. -/
def Refused (x : Lower α) (c : Context) (t : Trail) : Prop :=
  ∃ failure t', x.runAt c t = (.error failure, t') ∧ Refuses c failure

variable {x : Lower α} {R : α → α → Prop}

instance (x : Lower α) (c : Context) (t : Trail) : Decidable (x.Converts c t) :=
  match hrun : x.runAt c t with
  | (.ok a, t') => .isTrue ⟨a, t', hrun⟩
  | (.error failure, t') => .isFalse fun ⟨a, t₁, hok⟩ => by
    rw [hrun] at hok
    cases hok

lemma Parallel.converts_iff (h : Parallel refused c b x x R) (t : Trail) :
    x.Converts c t ↔ x.Converts (c.withBuckets b) t
      ∧ ¬ ∃ failure t', x.runAt c t = (.error failure, t') ∧ refused failure := by
  have hagree : Agree refused R (x.runAt c t) (x.runAt (c.withBuckets b) t) :=
    h c.expected c.inReturn t t rfl
  rcases hrun : x.runAt c t with ⟨outcome, t₁⟩
  rcases hrun' : x.runAt (c.withBuckets b) t with ⟨outcome', t₁'⟩
  rw [hrun, hrun'] at hagree
  constructor
  · rintro ⟨a, t₂, hok⟩
    rw [hrun] at hok
    cases hok
    cases hagree with
    | returned =>
      refine ⟨⟨_, _, hrun'⟩, ?_⟩
      rintro ⟨failure, t₃, hfailed, -⟩
      cases hfailed
  · rintro ⟨⟨a, t₂, hok⟩, hnot⟩
    rw [hrun'] at hok
    cases hok
    cases hagree with
    | returned => exact ⟨_, _, hrun⟩
    | refused hrefused => exact absurd ⟨_, _, rfl, hrefused⟩ hnot

lemma Parallel.converts_iff_of_never (h : Parallel (fun _ => False) c b x x R) (t : Trail) :
    x.Converts c t ↔ x.Converts (c.withBuckets b) t := by
  rw [h.converts_iff t]
  constructor
  · exact fun hboth => hboth.1
  · intro hsettled
    refine ⟨hsettled, ?_⟩
    rintro ⟨failure, t', -, hnever⟩
    exact hnever

end

lemma together_fieldVariable {f : DeclaredField} (hvalue : ∀ node ∈ f.value, c.Settles b node) :
    Together refused c b (fieldVariable f) := by
  unfold fieldVariable
  split
  · exact .pure trivial
  · rename_i node hnode
    have hinner : Settling refused { c with receiver := {} } b
        (expecting (some f.goType) (expression node)) :=
      (settling_expression (c := { c with receiver := {} }) _ (hvalue node hnode)).expecting _
    refine hinner.withReceiver.step fun value => ?_
    have hcomments : value.settled.before.all Code.Stmt.isComment
        = value.before.all Code.Stmt.isComment :=
      all_isComment_settle value.before
    rw [hcomments]
    split
    · exact .pure trivial
    · exact .throw _

lemma together_fieldInitializer {f : DeclaredField} (hvalue : ∀ node ∈ f.value, c.Settles b node) :
    Together refused c b (fieldInitializer f) := by
  unfold fieldInitializer
  split
  · exact .pure trivial
  · rename_i node hnode
    refine ((settling_expression _ (hvalue node hnode)).expecting _).step fun value => ?_
    exact .receiver (.pure trivial)

lemma same_constantValue (f : DeclaredField) (h : c.Settles b argument) :
    Same (Refuses c) { c with receiver := {} } b (Build.constantValue f argument) := by
  have hinner : Settling (Refuses c) { c with receiver := {} } b
      (expecting (some f.goType) (expression argument)) :=
    (settling_expression (c := { c with receiver := {} }) _ h).expecting _
  refine same_pureValue (fun value => value) hinner ?_
  intro expected inReturn value hmade hbefore hnotes
  exact .constant ⟨some f.goType, inReturn, value, hmade, hbefore, hnotes⟩

lemma together_constantValues (h : ∀ a ∈ arguments, c.Settles b a.2) :
    Together (Refuses c) c b (Build.constantValues arguments) := by
  refine Parallel.withReceiver ?_
  exact .mapM trivial (fun _ _ => trivial) fun a ha => same_constantValue a.1 (h a ha)

/-- Ambiguity alone makes a construct fail in the header of a `for`, in a label and in a constant,
and nowhere else. -/
theorem converts_iff_settled (c : Context) (b : Buckets) (t : Trail) :
    (∀ node, c.Settles b node →
      ((statement node).Converts c t
        ↔ (statement node).Converts (c.withBuckets b) t ∧ ¬ (statement node).Refused c t))
    ∧ (∀ f : DeclaredField, (∀ node ∈ f.value, c.Settles b node) →
      ((fieldVariable f).Converts c t ↔ (fieldVariable f).Converts (c.withBuckets b) t)
        ∧ ((fieldInitializer f).Converts c t
          ↔ (fieldInitializer f).Converts (c.withBuckets b) t))
    ∧ (∀ arguments : List (DeclaredField × Node), (∀ a ∈ arguments, c.Settles b a.2) →
      ((Build.constantValues arguments).Converts c t
        ↔ (Build.constantValues arguments).Converts (c.withBuckets b) t
          ∧ ¬ (Build.constantValues arguments).Refused c t)) := by
  refine ⟨?_, ?_, ?_⟩
  · intro node hnode
    exact (together_statement hnode).converts_iff t
  · intro f hvalue
    constructor
    · exact (together_fieldVariable hvalue).converts_iff_of_never t
    · exact (together_fieldInitializer hvalue).converts_iff_of_never t
  · intro arguments harguments
    exact (together_constantValues harguments).converts_iff t

def greeterContext : Context :=
  Context.ofUnit (greeterUnit []) (analyze .tolerant (greeterUnit []) [] {}).2.symbols

/-- The overloads of the greeter, without the second `greet`. -/
def singleGreet : Buckets where
  methods := greeterContext.symbols.methods.insert "greet"
    ((greeterContext.symbols.methodOverloads "greet").take 1)
  constructors := greeterContext.symbols.constructors

/-- The loop `for (; greet(1); ) { }`, or `while (greet(1)) { }`. -/
def greetLoop (kind : Kind) : Node :=
  .tree 40 kind
    [greetCall (some "condition"), .body 41 []]

def greetField : DeclaredField :=
  { javaName := "greeting", goType := "int", value := some (greetCall none) }

theorem while_greeting_converts :
    greeterContext.Settles singleGreet (greetLoop .whileStatement)
      ∧ greeterContext.Settles singleGreet (greetCall none)
      ∧ (statement (greetLoop .whileStatement)).Converts (greeterContext.withBuckets singleGreet) {}
      ∧ (fieldVariable greetField).Converts greeterContext {}
      ∧ ((Build.constantValues [(greetField, greetCall none)]).Converts greeterContext {}
        ↔ (Build.constantValues [(greetField, greetCall none)]).Converts
            (greeterContext.withBuckets singleGreet) {}
          ∧ ¬ (Build.constantValues [(greetField, greetCall none)]).Refused greeterContext {}) := by
  have hloop : greeterContext.Settles singleGreet (greetLoop .whileStatement) :=
    TypeContext.settles_of_cutDown (by decide +kernel)
  have hcall : greeterContext.Settles singleGreet (greetCall none) :=
    TypeContext.settles_of_cutDown (by decide +kernel)
  have hvalue : ∀ node ∈ greetField.value, greeterContext.Settles singleGreet node := by
    rintro node ⟨⟩
    exact hcall
  have harguments : ∀ a ∈ [(greetField, greetCall none)],
      greeterContext.Settles singleGreet a.2 := by
    intro a ha
    rw [List.mem_singleton.1 ha]
    exact hcall
  obtain ⟨hstatement, hfield, hconstant⟩ :=
    converts_iff_settled greeterContext singleGreet {}
  refine ⟨hloop, hcall, ?_, ?_, hconstant _ harguments⟩
  · exact ((hstatement _ hloop).1 (by decide +kernel)).1
  · exact (hfield greetField hvalue).1.2 (by decide +kernel)

/-- An ambiguous call in the condition of a `for` is an error: the condition is converted and needs
nothing but a comment, and the loop is converted where one `greet` is left, yet it is refused. -/
theorem ambiguous_condition_refused :
    HoistsNotes greeterContext (greetCall (some "condition"))
      ∧ greeterContext.Settles singleGreet (greetLoop .forStatement)
      ∧ (statement (greetLoop .forStatement)).Converts (greeterContext.withBuckets singleGreet) {}
      ∧ ¬ (statement (greetLoop .forStatement)).Converts greeterContext {} := by
  have hnotes : HoistsNotes greeterContext (greetCall (some "condition")) := by
    refine ⟨none, false, ⟨.callNamed "greet" [.raw "1"] false, [methodAmbiguity "greet" 1]⟩, ?_⟩
    refine ⟨⟨{}, { log := [.ambiguousMethod "greet" 1 "greet"] }, ?_⟩, ?_, ?_⟩
    · with_unfolding_all rfl
    · simp
    · simp
  have hloop : greeterContext.Settles singleGreet (greetLoop .forStatement) :=
    TypeContext.settles_of_cutDown (by decide +kernel)
  exact ⟨hnotes, hloop, by decide +kernel, by decide +kernel⟩

end Lower

end JavaToGo
