import JavaToGo.Proofs.Conversion.Modes

/-!
# What can end a tolerant conversion

Refusals are filed or reported in tolerant mode.  A fault can only come from a
look-up without a way out, that of the text of a primitive type.
-/

namespace JavaToGo

open JavaToGo.Tree (Node)
open List

namespace Analysis

variable {α β : Type} {p : Fault → Prop} {c : AnalysisContext} {step : Node → Analysis Unit}

/-- The faults of a computation, from any state, satisfy `p`. -/
def FaultsAt (p : Fault → Prop) (c : AnalysisContext) (x : Analysis α) : Prop :=
  ∀ s, Faults p (x.runFrom c s).1

section

variable {node : Node} (hroot : c.unit.root.Blamed p) (hnode : node.Blamed p)
include hroot hnode

lemma faults_recordAbstract : FaultsAt p c (recordAbstract node) :=
  fun _ => (ends_recordAbstract (P := fun outcome _ => Faults p outcome)
    (fun _ h => h p hroot hnode) (fun _ => .ok _) (fun _ _ h => h p hroot hnode)
    fun _ _ _ _ _ => .ok _).2

lemma faults_recordType : FaultsAt p c (recordType node) :=
  fun _ => (ends_recordType (P := fun outcome _ => Faults p outcome) (fun _ h => h p hroot hnode)
    fun _ _ _ _ _ _ => ⟨fun _ h => h p hroot hnode, fun _ => .ok _, fun _ _ _ _ => .ok _⟩).2

lemma faults_recordMethod : FaultsAt p c (recordMethod node) :=
  fun _ => (ends_recordMethod (P := fun outcome _ => Faults p outcome)
    (fun _ h => h p hroot hnode) (fun _ _ _ _ _ h => h p hroot hnode) fun _ _ _ _ _ => .ok _).2

lemma faults_recordConstructor : FaultsAt p c (recordConstructor node) :=
  fun _ => (ends_recordConstructor (P := fun outcome _ => Faults p outcome)
    (fun _ h => h p hroot hnode) fun _ _ _ _ _ _ _ _ _ _ _ _ => .ok _).2

lemma faults_recordCanonicalConstructor : FaultsAt p c (recordCanonicalConstructor node) :=
  fun _ => (ends_recordCanonicalConstructor (P := fun outcome _ => Faults p outcome)
    (fun _ h => h p hroot hnode) fun _ _ _ _ _ _ _ _ _ _ => .ok _).2

end

/-- A computation fails with faults that satisfy `p`, and with nothing else. -/
def OnlyFaults (p : Fault → Prop) (c : AnalysisContext) (x : Analysis α) : Prop :=
  ∀ s failure, (x.runFrom c s).1 = .error failure → ∃ f, failure = .fault f ∧ p f

lemma OnlyFaults.bind {f : α → Analysis β} (hx : OnlyFaults p c x)
    (hf : ∀ a, OnlyFaults p c (f a)) : OnlyFaults p c (x >>= f) := by
  intro s failure h
  have hfirst := hx s
  rw [runFrom_bind] at h
  revert h hfirst
  rcases x.runFrom c s with ⟨outcome, s'⟩
  intro h hfirst
  cases outcome with
  | ok a => exact hf a s' failure h
  | error =>
    cases h
    exact hfirst failure rfl

lemma OnlyFaults.rootBind {f : Node → Analysis β} (hf : OnlyFaults p c (f c.unit.root)) :
    OnlyFaults p c (root >>= f) :=
  hf

lemma OnlyFaults.of_ok {x : Analysis α} (h : ∀ s, ∃ a, (x.runFrom c s).1 = .ok a) :
    OnlyFaults p c x := by
  intro s failure hfailure
  obtain ⟨a, ha⟩ := h s
  rw [ha] at hfailure
  cases hfailure

lemma onlyFaults_guarded (h : FaultsAt p c (step node)) :
    OnlyFaults p c (guarded .tolerant step node) := by
  intro s failure hfailure
  have hstep := h s
  rw [runFrom_guarded] at hfailure
  revert hfailure hstep
  rcases (step node).runFrom c s with ⟨outcome, s'⟩
  intro hfailure hstep
  rcases outcome with (r | f) | a
  · cases hfailure
  · cases hfailure
    exact ⟨f, rfl, hstep f rfl⟩
  · cases hfailure

lemma onlyFaults_forEach :
    ∀ {nodes : List Node}, (∀ node ∈ nodes, FaultsAt p c (step node)) →
      OnlyFaults p c (forEach .tolerant step nodes)
  | [], _ => .of_ok fun _ => ⟨(), rfl⟩
  | node :: _, h =>
    (onlyFaults_guarded (h node mem_cons_self)).bind fun _ =>
      onlyFaults_forEach fun n hn => h n (mem_cons_of_mem _ hn)

lemma onlyFaults_wholeUnit (hroot : c.unit.root.Blamed p) :
    OnlyFaults p c (wholeUnit .tolerant) := by
  have hbelow : ∀ node ∈ c.unit.root.walk, node.Blamed p :=
    fun node hnode n hn => hroot n (Node.mem_walk_trans hn hnode)
  have hsome : ∀ q : Node → Bool, ∀ node ∈ c.unit.root.walk.filter q, node.Blamed p :=
    fun q node hnode => hbelow node (mem_filter.1 hnode).1
  have hrecords : ∀ q r : Node → Bool, ∀ node ∈ (c.unit.root.walk.filter q).filter r,
      node.Blamed p := fun q r node hnode => hsome q node (mem_filter.1 hnode).1
  refine .rootBind (.bind ?_ fun _ => .bind ?_ fun _ => .bind ?_ fun _ => .bind ?_ fun _ =>
    .bind ?_ fun _ => .of_ok fun _ => ⟨(), rfl⟩)
  · exact onlyFaults_forEach fun node hnode => faults_recordAbstract hroot (hsome _ node hnode)
  · exact onlyFaults_forEach fun node hnode => faults_recordType hroot (hsome _ node hnode)
  · exact onlyFaults_forEach fun node hnode => faults_recordMethod hroot (hsome _ node hnode)
  · exact onlyFaults_forEach fun node hnode => faults_recordConstructor hroot (hsome _ node hnode)
  · exact onlyFaults_forEach fun node hnode =>
      faults_recordCanonicalConstructor hroot (hrecords _ _ node hnode)

end Analysis

lemma failure_analyze_tolerant {unit : CompilationUnit} {typeParams : List Scope}
    {findings : Findings} {failure : Failure}
    (h : (analyze .tolerant unit typeParams findings).1 = .error failure) :
    ∃ n ∈ unit.root.walk, n.IsMisspelt ∧ failure = .fault (.missingKey n.text) := by
  have hroot : unit.root.Blamed fun f =>
      ∃ n ∈ unit.root.walk, n.IsMisspelt ∧ f = .missingKey n.text :=
    fun n hn hmisspelt => ⟨n, hn, hmisspelt, rfl⟩
  obtain ⟨f, rfl, n, hn, hmisspelt, rfl⟩ :=
    Analysis.onlyFaults_wholeUnit (c := ⟨unit, typeParams⟩) hroot findings failure h
  exact ⟨n, hn, hmisspelt, rfl⟩

/-- A tolerant conversion ends as its analysis does, and the analysis fails on nothing but a
primitive type that is not spelt like one. -/
theorem convert_tolerant_total (unit : CompilationUnit) :
    (convert .tolerant unit).outcome = (analyze .tolerant unit [] {}).1
      ∧ ∀ typeParams findings failure,
        (analyze .tolerant unit typeParams findings).1 = .error failure →
          ∃ n ∈ unit.root.walk,
            (n.kind = .integralType ∨ n.kind = .floatingPointType ∨ n.kind = .booleanType)
              ∧ n.text ∉ primitiveTypes.map Prod.fst
              ∧ failure = .fault (.missingKey n.text) := by
  constructor
  · rcases hanalyze : analyze .tolerant unit [] {} with ⟨_ | _, findings⟩
    · rw [convert_of_analyze_error hanalyze]
    · obtain ⟨draft, -, -, hconvert⟩ := exists_runAt_tolerant hanalyze
      rw [hconvert]
  · intro typeParams findings failure hfailure
    obtain ⟨n, hn, ⟨hkind, htext⟩, rfl⟩ := failure_analyze_tolerant hfailure
    exact ⟨n, hn, hkind, htext, rfl⟩

/-- A class with a method whose parameter has the primitive type `integer`. -/
def misspeltUnit : CompilationUnit :=
  .ofTypes
    [.plainClass 1 [] "Store" []
      [.plainMethod 4 "keep"
        [.tree 8 .formalParameter
          [.plain 9 .integralType (some "type") "integer" [],
           .called 10 "n"]] []]]

theorem misspeltUnit_ends_analysis :
    (convert .tolerant misspeltUnit).outcome = .error (.fault (.missingKey "integer"))
      ∧ ∃ n ∈ misspeltUnit.root.walk,
          (n.kind = .integralType ∨ n.kind = .floatingPointType ∨ n.kind = .booleanType)
            ∧ n.text ∉ primitiveTypes.map Prod.fst ∧ n.text = "integer" := by
  have hanalyze : (analyze .tolerant misspeltUnit [] {}).1
      = .error (.fault (.missingKey "integer")) := by
    with_unfolding_all rfl
  obtain ⟨houtcome, hfailure⟩ := convert_tolerant_total misspeltUnit
  obtain ⟨n, hn, hkind, htext, hsame⟩ := hfailure [] {} _ hanalyze
  have hkey : n.text = "integer" := by
    injection hsame with hfault
    injection hfault with hkey
    exact hkey.symm
  exact ⟨houtcome.trans hanalyze, n, hn, hkind, htext, hkey⟩

end JavaToGo
