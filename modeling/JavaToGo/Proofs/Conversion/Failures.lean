import JavaToGo.Proofs.Conversion.Modes
import JavaToGo.Proofs.Declaration.OrderlyTypes

/-!
# What a member that fails leaves behind

Two things escape the boundary.  Imports go to the file itself at once.  And a
method of an abstract class is listed in its interface before its body is
lowered: when the body fails, the interface asks for a method that no struct has.
-/

namespace JavaToGo

open List Draft Build

/-- Nothing but failed members has been added. -/
def Draft.OnlyFailuresAdded (d d' : Draft) : Prop :=
  d'.staged = d.staged
    ∧ (∃ failed : List Code.FailedMember,
        d'.file = { d.file with failed := d.file.failed ++ failed.map .failed })
    ∧ d.diagnostics <+: d'.diagnostics

section

/-- The staged files are the same, and the file has gained imports and failed members only. -/
def Kept (file₀ : SourceFile) (base₀ : List SourceFile) (file : SourceFile)
    (base : List SourceFile) : Prop :=
  base = base₀ ∧ ∃ (imports : List Code.Import) (failed : List Code.FailedMember),
    file = { file₀ with imports := imports, failed := file₀.failed ++ failed.map .failed }

lemma kept_indifferent (file₀ : SourceFile) (base₀ : List SourceFile) :
    Indifferent (Kept file₀ base₀) where
  imports := by
    rintro file base imports ⟨hbase, _, failed, rfl⟩
    exact ⟨hbase, imports, failed, rfl⟩
  failed := by
    rintro file base m ⟨hbase, imports, failed, rfl⟩
    exact ⟨hbase, imports, failed ++ [m], by simp⟩

lemma kept_self (file : SourceFile) (base : List SourceFile) : Kept file base file base :=
  ⟨rfl, file.imports, [], by simp⟩

lemma group_stacked_of_kept {file₀ file : SourceFile} {base₀ base : List SourceFile}
    (h : Kept file₀ base₀ file base) (g : Group) :
    (stacked file base).group g = (stacked file₀ base₀).group g := by
  obtain ⟨rfl, imports, failed, rfl⟩ := h
  rw [group_stacked, group_stacked]
  cases g <;> rfl

lemma countIn_of_kept {file₀ file : SourceFile} {base₀ base : List SourceFile}
    (h : Kept file₀ base₀ file base) (g : Group) :
    countIn g file base = countIn g file₀ base₀ := by
  rw [← length_group_stacked, ← length_group_stacked, group_stacked_of_kept h]

variable {call : Call}

lemma kept_of_careful (hfailed : call.Failed c)
    (h : call.body.2.GrowsLast c ∨ call.body.2.Conforms (.free c) .none) :
    Kept call.before.file call.before.staged (call.after c).file (call.after c).staged := by
  obtain ⟨failure, hfailure⟩ := hfailed
  have hkept := kept_indifferent call.before.file call.before.staged
  have hopen : call.before.openMember.Over (Kept call.before.file call.before.staged) 1 :=
    Over.openMember ⟨[], call.before.staged, rfl, rfl, kept_self _ _⟩
  have hrun : (call.run c).2.Over (Kept call.before.file call.before.staged) 1 := by
    rcases h with h | h
    · exact h.runAt_over hkept hopen hfailure
    · have hcount : ∀ {file base} g, Kept call.before.file call.before.staged file base →
          countIn g call.before.file call.before.staged ≤ countIn g file base :=
        fun g hbase => Nat.le_of_eq (countIn_of_kept hbase g).symm
      refine h.runAt_over hkept hcount ?_ (fun _ _ => False.elim) hopen
      -- There is no growth between the places.
      intro file base g place f hfirst hlt _ hbase
      rw [countIn_of_kept hbase g] at hlt
      exact absurd hlt (Nat.not_lt_of_le hfirst)
  obtain ⟨upper, base, hlength, hstaged, hbase⟩ :=
    hrun.recordFailure hkept call.location call.node failure
  obtain rfl : upper = [] := length_eq_zero_iff.1 hlength
  rw [call.after_of_error hfailure, hstaged]
  exact hbase

end

section

def InterfacesAre (decls : List Decl) (file : SourceFile) (base : List SourceFile) : Prop :=
  (stacked file base).group .interfaces = decls

lemma interfacesAre_indifferent (decls : List Decl) : Indifferent (InterfacesAre decls) where
  imports _ h := by simpa [InterfacesAre, group_stacked] using h
  failed _ h := by simpa [InterfacesAre, group_stacked] using h

lemma over_grow_openMember {before : Draft} (f : Decl → Decl)
    (hplace : place < before.count .interfaces) :
    (before.openMember.grow .interfaces place f).Over
      (InterfacesAre ((before.standing .interfaces).modify place f)) 1 := by
  have hgrow := growIn_append_of_lt .interfaces place f hplace
    [{ packageName := before.sink.packageName }]
  refine ⟨[{ packageName := before.sink.packageName }], _, rfl, congrArg Prod.snd hgrow, ?_⟩
  have hfile : (before.openMember.grow .interfaces place f).file = _ := congrArg Prod.fst hgrow
  rw [hfile, InterfacesAre, stacked_growIn]
  rfl

variable {c : Context} {go : Node → Build Unit}
variable {places : AbstractPlaces} {node : Node} {record : MethodRecord}

/-- The line of a Go interface for a method. -/
def listedSpec (c : Context) (record : MethodRecord) : Code.MethodSpec :=
  { name := Code.exported (c.symbols.methodName record), params := record.params,
    result := record.result }

lemma abstractMember_iff {R : Build Unit → Prop} (hasking : ∀ next, R (.asking next) ↔ R (next c))
    (hkind : node.kind = .methodDeclaration)
    (hrecord : c.symbols.requireMethod node = .ok record) (hstatic : record.isStatic = false) :
    R (abstractMember go shape places node)
      ↔ R (.growing .interfaces places.interface (withSpec (listedSpec c record))
          (addDefaultBody shape node)) := by
  rw [abstractMember_of_method hkind]
  refine (hasking _).trans ?_
  change R ((liftM (c.symbols.requireMethod node) : Build MethodRecord) >>= _) ↔ _
  rw [hrecord]
  change R (if record.isStatic = true then _ else _) ↔ _
  rw [if_neg (by simp [hstatic])]
  exact hasking _

variable (hkind : node.kind = .methodDeclaration)
variable (hrecord : c.symbols.requireMethod node = .ok record) (hstatic : record.isStatic = false)
include hkind hrecord hstatic

lemma not_growsLast_of_lists {failure : Failure} {d : Draft}
    (hfailure : ((abstractMember go shape places node).runAt .tolerant c d).1 = .error failure) :
    ¬ (abstractMember go shape places node).GrowsLast c := by
  intro hlast
  have hsure := (abstractMember_iff (R := fun x => x.GrowsLast c) (fun _ => Iff.rfl) hkind hrecord
    hstatic).1 hlast
  have hrun := (abstractMember_iff (R := fun x => (x.runAt .tolerant c d).1 = .error failure)
    (fun _ => Iff.rfl) hkind hrecord hstatic).1 hfailure
  obtain ⟨value, hvalue⟩ := Build.Sure.outcome hsure .tolerant
    (d.grow .interfaces places.interface (withSpec (listedSpec c record)))
  rw [runAt, hvalue] at hrun
  cases hrun

lemma not_confined_of_lists : ¬ (abstractMember go shape places node).Conforms (.free c) .none := by
  intro h
  have hfirst := (abstractMember_iff (R := fun x => x.Conforms (.free c) .none)
    (fun _ => Iff.rfl) hkind hrecord hstatic).1 h
  exact hfirst.1

lemma standing_of_lists {before : Draft} {failure : Failure} {location : String}
    (hplace : places.interface < before.count .interfaces)
    (hfailure : ((abstractMember go shape places node).runAt .tolerant c
      before.openMember).1 = .error failure) :
    (((abstractMember go shape places node).runAt .tolerant c
        before.openMember).2.discard.recordFailure location node failure).standing .interfaces
      = (before.standing .interfaces).modify places.interface (withSpec (listedSpec c record)) := by
  have hgrown := over_grow_openMember (withSpec (listedSpec c record)) hplace
  have hindifferent := interfacesAre_indifferent
    ((before.standing .interfaces).modify places.interface (withSpec (listedSpec c record)))
  have hrun := (abstractMember_iff
    (R := fun x => (x.runAt .tolerant c before.openMember).1 = .error failure →
      (x.runAt .tolerant c before.openMember).2.Over (InterfacesAre _) 1)
    (fun _ => Iff.rfl) hkind hrecord hstatic).2
    (fun h => still_addDefaultBody.growsLast.runAt_over hindifferent hgrown h) hfailure
  obtain ⟨upper, base, hlength, hstaged, hbase⟩ :=
    hrun.recordFailure hindifferent location node failure
  obtain rfl : upper = [] := length_eq_zero_iff.1 hlength
  rw [Draft.standing, hstaged]
  exact hbase

end

section

variable (unit : CompilationUnit)

/-- What is known at the outermost level when the declarations of a unit are converted. -/
def CompilationUnit.context : Context :=
  Context.ofUnit unit (analyze .tolerant unit [] {}).2.symbols

/-- Every member of the unit that is handed to a boundary. -/
def CompilationUnit.calls : List Call :=
  match analyze .tolerant unit [] {} with
  | (.ok _, findings) =>
    Build.wholeUnit.calls (Context.ofUnit unit findings.symbols) (Draft.ofUnit unit findings.log)
  | (.error _, _) => []

/-- The members whose work is not thrown away with one around them. -/
def CompilationUnit.keptCalls : List Call :=
  match analyze .tolerant unit [] {} with
  | (.ok _, findings) =>
    Build.wholeUnit.keptCalls (Context.ofUnit unit findings.symbols)
      (Draft.ofUnit unit findings.log)
  | (.error _, _) => []

lemma diagnostics_convert_tolerant :
    (convert .tolerant unit).draft.diagnostics
      = unit.calls.filterMap (Call.diagnostic? unit.context) := by
  unfold CompilationUnit.calls CompilationUnit.context
  rcases h : analyze .tolerant unit [] {} with ⟨_ | _, findings⟩
  · rw [convert_of_analyze_error h]
    rfl
  · obtain ⟨draft, hrun, -, hconvert⟩ := exists_runAt_tolerant h
    have hcalls := diagnostics_runAt_eq (c := Context.ofUnit unit findings.symbols)
      wholeUnit (ofUnit unit findings.log)
    rw [hrun] at hcalls
    rw [hconvert]
    exact hcalls

/-- The call converts a method of an abstract class that is listed in its interface. -/
def Call.ListsMethod (c : Context) (call : Call) : Prop :=
  ∃ go shape places record,
    call.body = ⟨Unit, Build.abstractMember go shape places call.node⟩
      ∧ call.node.kind = .methodDeclaration
      ∧ c.symbols.requireMethod call.node = .ok record ∧ record.isStatic = false

variable {unit} {call : Call}

lemma exists_analyze_of_mem_calls (hcall : call ∈ unit.calls) :
    ∃ findings, analyze .tolerant unit [] {} = (.ok (), findings)
      ∧ unit.context = Context.ofUnit unit findings.symbols
      ∧ unit.calls = wholeUnit.calls unit.context (ofUnit unit findings.log) := by
  unfold CompilationUnit.calls CompilationUnit.context at *
  rcases hanalyze : analyze .tolerant unit [] {} with ⟨_ | u, findings⟩
  · rw [hanalyze] at hcall
    cases hcall
  · exact ⟨findings, rfl, rfl, rfl⟩

lemma careful_of_mem_calls (h : call ∈ unit.calls) :
    ∃ held, Build.Stand (held .interfaces) call.before
      ∧ Build.Handed (.free unit.context) held call.node call.body.2 := by
  obtain ⟨findings, -, -, hcalls⟩ := exists_analyze_of_mem_calls h
  rw [hcalls] at h
  exact (conforms_wholeUnit_free _).handed_of_mem_calls (fun _ => False.elim) h

section

variable (hcall : call ∈ unit.calls)
include hcall

section

variable (hfailed : call.Failed unit.context)
include hfailed

lemma kept_of_not_listsMethod
    (hlists : ¬ call.ListsMethod unit.context) :
    Kept call.before.file call.before.staged (call.after unit.context).file
      (call.after unit.context).staged := by
  obtain ⟨held, -, hcareful, -⟩ := careful_of_mem_calls hcall
  refine kept_of_careful hfailed (hcareful.imp_right fun h => h.resolve_right ?_)
  rintro ⟨go, shape, places, record, hbody, hkind, hrecord, hstatic, -⟩
  exact hlists ⟨go, shape, places, record, hbody, hkind, hrecord, hstatic⟩

lemma lists_of_listsMethod
    (hlists : call.ListsMethod unit.context) :
    ∃ known, Build.Stand known call.before
      ∧ Build.Lists unit.context known call.node call.body := by
  obtain ⟨held, hstand, hcareful, -⟩ := careful_of_mem_calls hcall
  refine ⟨held .interfaces, hstand, ?_⟩
  obtain ⟨location, node, body, before⟩ := call
  obtain ⟨go, shape, places, record, hbody, hkind, hrecord, hstatic⟩ := hlists
  obtain ⟨failure, hfailure⟩ := hfailed
  dsimp only at hbody hkind hrecord
  subst hbody
  rcases hcareful with hlast | hconfined | hexempt
  · exact absurd hlast (not_growsLast_of_lists hkind hrecord hstatic hfailure)
  · exact absurd hconfined (not_confined_of_lists hkind hrecord hstatic)
  · exact hexempt

lemma standing_of_listsMethod
    (hlists : call.ListsMethod unit.context) :
    ∃ (place : Place) (interface : Code.Interface) (spec : Code.MethodSpec),
      (call.before.standing .interfaces)[place]? = some (.interface interface)
      ∧ ((call.after unit.context).standing .interfaces)[place]?
          = some (.interface { interface with methods := interface.methods ++ [spec] }) := by
  obtain ⟨known, hstand, hlists⟩ := lists_of_listsMethod hcall hfailed hlists
  obtain ⟨failure, hfailure⟩ := hfailed
  obtain ⟨location, node, body, before⟩ := call
  obtain ⟨go, shape, places, record, hbody, hkind, hrecord, hstatic, hknown⟩ := hlists
  dsimp only at hbody hkind hrecord hstand
  subst hbody
  obtain ⟨interface, hinterface⟩ := hstand _ hknown
  have hplace : places.interface < before.count .interfaces := by
    rw [← length_standing]
    exact (List.getElem?_eq_some_iff.1 hinterface).1
  refine ⟨places.interface, interface, listedSpec unit.context record, hinterface, ?_⟩
  rw [Call.after_of_error _ hfailure]
  rw [Call.run, standing_of_lists hkind hrecord hstatic hplace hfailure, getElem?_modify]
  simp only [Draft.standing, hinterface]
  simp [withSpec]

end

end

/-- For every member that fails at a boundary of a tolerant conversion: nothing but failed members
and diagnostics is left behind exactly when no import was added and the member is not a method
that an abstract class lists. -/
theorem onlyFailuresAdded_iff (hcall : call ∈ unit.calls)
    (hfailed : call.Failed unit.context) :
    call.before.OnlyFailuresAdded (call.after unit.context) ↔
      (call.after unit.context).file.imports = call.before.file.imports
        ∧ ¬ call.ListsMethod unit.context := by
  constructor
  · rintro ⟨hstaged, ⟨failed, hfile⟩, -⟩
    refine ⟨by rw [hfile], fun hlists => ?_⟩
    obtain ⟨place, interface, spec, hbefore, hafter⟩ :=
      standing_of_listsMethod hcall hfailed hlists
    -- The interface would have to be the one before and the one with another method.
    have hkept : Kept call.before.file call.before.staged
        (call.after unit.context).file (call.after unit.context).staged :=
      ⟨hstaged, call.before.file.imports, failed, hfile⟩
    rw [Draft.standing, group_stacked_of_kept hkept .interfaces, ← Draft.standing, hbefore]
      at hafter
    have hmethods : interface.methods = interface.methods ++ [spec] :=
      congrArg Code.Interface.methods (Code.Decl.interface.inj (Option.some.inj hafter))
    exact absurd (List.self_eq_append_right.1 hmethods) (List.cons_ne_nil spec [])
  · rintro ⟨himports, hlists⟩
    obtain ⟨hstaged, imports, failed, hfile⟩ := kept_of_not_listsMethod hcall hfailed hlists
    obtain rfl : imports = call.before.file.imports := by
      rw [← himports, hfile]
    exact ⟨hstaged, ⟨failed, hfile⟩, call.diagnostics_isPrefix_after _⟩

end

/-- The method `int next(int i) { return i++; }`, whose body cannot be lowered. -/
def nextMethod : Node :=
  .tree 6 .methodDeclaration
    [.intType 7,
     .called 8 "next",
     .parameterList 9
       [.tree 10 .formalParameter
         [.intType 11,
          .called 12 "i"]],
     .body 13
       [.tree 14 .returnStatement
         [.tree 15 .update
           [.leaf 16 .identifier "i", .leaf 17 .increment "++"]]]]

/-- The class `abstract class Counter` with that method. -/
def counterUnit : CompilationUnit where
  root :=
    .tree 0 .program
      [.tree 1 .classDeclaration
        [.tree 2 .modifiers [.leaf 3 .abstractWord "abstract"],
         .called 4 "Counter",
         .plain 5 .classBody (some "body") "" [nextMethod]]]

def nextCall : Call :=
  counterUnit.calls.head (by decide +kernel)

lemma nextCall_mem : nextCall ∈ counterUnit.calls :=
  head_mem _

lemma nextCall_failed : nextCall.Failed counterUnit.context :=
  (nextCall.failed_iff_isSome_diagnostic? _).2 (by decide +kernel)

theorem onlyFailuresAdded_iff_nextCall :
    nextCall ∈ counterUnit.calls ∧ nextCall.Failed counterUnit.context
      ∧ (nextCall.before.OnlyFailuresAdded (nextCall.after counterUnit.context) ↔
          (nextCall.after counterUnit.context).file.imports = nextCall.before.file.imports
            ∧ ¬ nextCall.ListsMethod counterUnit.context) :=
  ⟨nextCall_mem, nextCall_failed, onlyFailuresAdded_iff nextCall_mem nextCall_failed⟩

def methodCounts (d : Draft) : List Nat :=
  (d.standing .interfaces).map fun
    | .interface i => i.methods.length
    | _ => 0

/-- The method that fails is left in the interface of its class. -/
theorem nextCall_stays_listed :
    ∃ call ∈ counterUnit.calls, call.Failed counterUnit.context
      ∧ ¬ call.before.OnlyFailuresAdded (call.after counterUnit.context) := by
  refine ⟨nextCall, nextCall_mem, nextCall_failed, ?_⟩
  rintro ⟨hstaged, ⟨failed, hfile⟩, -⟩
  have hsame : methodCounts (nextCall.after counterUnit.context) = methodCounts nextCall.before :=
    congrArg (List.map _)
      (group_stacked_of_kept ⟨hstaged, nextCall.before.file.imports, failed, hfile⟩ .interfaces)
  have hcounts : methodCounts (nextCall.after counterUnit.context)
      ≠ methodCounts nextCall.before := by
    decide +kernel
  exact hcounts hsame

end JavaToGo
