import JavaToGo.Proofs.Analysis.Layouts
import JavaToGo.Proofs.Conversion.Failures
import JavaToGo.Proofs.TypeMapping.Likeness

/-!
# The conversion finds every record

The analysis walks the whole tree; the conversion goes through the members of
bodies, the numbers in shapes and the compact constructors of records.  The
analysis takes the first compact constructor of a body and the conversion the
last, so they agree where there is at most one.
-/

namespace JavaToGo

open JavaToGo.Tree (Kind Node)
open List Analysis Build Tree.Node Table

section

def compactConstructors (body : Node) : List Node :=
  (body.children ++ (body.childrenOfKind .enumBodyDeclarations).flatMap Node.children).filter
    Build.isCompact

/-- There is at most one compact constructor, and it is a named child of the body. -/
def PlainlyCompact (node : Node) : Prop :=
  node.kind = .recordDeclaration → ∀ body ∈ node.fieldChild? "body",
    (compactConstructors body).length ≤ 1
      ∧ ∀ m ∈ compactConstructors body, m ∈ body.namedChildren

variable {node body : Node}

lemma eq_of_mem_of_length_le_one {α : Type} {as : List α} (h : as.length ≤ 1) {a b : α}
    (ha : a ∈ as) (hb : b ∈ as) : a = b := by
  match as, h with
  | [], _ => cases ha
  | [c], _ => rw [mem_singleton.1 ha, mem_singleton.1 hb]

lemma plainlyCompact_iff :
    PlainlyCompact node ↔
      (node.kind = .recordDeclaration → ∀ body ∈ node.fieldChild? "body",
        (compactConstructors body).length ≤ 1
          ∧ (compactConstructors body).length ≤ (body.namedChildren.filter isCompact).length) := by
  refine forall_congr' fun _ => forall₂_congr fun body _ => and_congr_right fun hone => ?_
  have hnamed : ∀ m ∈ body.namedChildren.filter isCompact, m ∈ compactConstructors body := by
    intro m hm
    obtain ⟨hchild, hcompact⟩ := mem_filter.1 hm
    exact mem_filter.2 ⟨mem_append_left _ (mem_filter.1 hchild).1, hcompact⟩
  constructor
  · intro h
    cases hlist : compactConstructors body with
    | nil => exact Nat.zero_le _
    | cons m rest =>
      have hm : m ∈ compactConstructors body := hlist ▸ mem_cons_self
      have hown : m ∈ body.namedChildren.filter isCompact :=
        mem_filter.2 ⟨h m hm, (mem_filter.1 hm).2⟩
      rw [hlist] at hone
      exact Nat.le_trans hone (length_pos_of_mem hown)
  · intro hlength m hm
    have hpos := Nat.lt_of_lt_of_le (length_pos_of_mem hm) hlength
    obtain ⟨named, hown⟩ := exists_mem_of_length_pos hpos
    rw [eq_of_mem_of_length_le_one hone hm (hnamed named hown)]
    exact (mem_filter.1 hown).1

instance : Decidable (PlainlyCompact node) :=
  decidable_of_iff' _ plainlyCompact_iff

lemma mem_compactConstructors_of_member
    (h : m ∈ (body.namedChildren.flatMap membersOfChild).filter isCompact) :
    m ∈ compactConstructors body := by
  obtain ⟨hmember, hcompact⟩ := mem_filter.1 h
  obtain ⟨child, hchild, hm⟩ := mem_flatMap.1 hmember
  have hchildren : child ∈ body.children := (mem_filter.1 hchild).1
  refine mem_filter.2 ⟨mem_append.2 ?_, hcompact⟩
  unfold membersOfChild at hm
  split at hm
  · cases hm
  split at hm
  · rename_i hkind
    refine .inr (mem_flatMap.2 ⟨child, ?_, mem_children_of_operands hm⟩)
    exact mem_filter.2 ⟨hchildren, by simpa using hkind⟩
  · obtain rfl := mem_singleton.1 hm
    exact .inl hchildren

lemma mem_members_of_named (hm : m ∈ body.namedChildren) (hcompact : isCompact m) :
    m ∈ (body.namedChildren.flatMap membersOfChild).filter isCompact := by
  have hkind : m.kind = .compactConstructorDeclaration := by simpa [isCompact] using hcompact
  refine mem_filter.2 ⟨mem_flatMap.2 ⟨m, hm, ?_⟩, hcompact⟩
  simp [membersOfChild, hkind, Kind.isComment]

lemma soughtNode_eq_canonicalNode (hkind : node.kind = .recordDeclaration)
    (h : PlainlyCompact node) : soughtNode node = canonicalNode node := by
  unfold soughtNode canonicalNode bodyMembers
  cases hbody : node.fieldChild? "body" with
  | none => rfl
  | some body =>
    obtain ⟨hone, hnamed⟩ := h hkind body hbody
    rw [Option.bind_some]
    cases hfirst : body.childOfKind? .compactConstructorDeclaration with
    | none =>
      cases hlast : ((body.namedChildren.flatMap membersOfChild).filter isCompact).getLast? with
      | none => rfl
      | some last =>
        -- A compact member would be a child of the body.
        have hmember := mem_compactConstructors_of_member (mem_of_getLast? hlast)
        have hcompact : isCompact last = true := (mem_filter.1 hmember).2
        have hchild : last ∈ body.children := (mem_filter.1 (hnamed last hmember)).1
        exact absurd hcompact (find?_eq_none.1 hfirst last hchild)
    | some first =>
      have hcompact : isCompact first = true := find?_some hfirst
      have hown : first ∈ compactConstructors body :=
        mem_filter.2 ⟨mem_append_left _ (mem_of_find?_eq_some hfirst), hcompact⟩
      have hmember := mem_members_of_named (hnamed first hown) hcompact
      cases hlast : ((body.namedChildren.flatMap membersOfChild).filter isCompact).getLast? with
      | none =>
        rw [getLast?_eq_none_iff.1 hlast] at hmember
        cases hmember
      | some last =>
        have hlastOwn := mem_compactConstructors_of_member (mem_of_getLast? hlast)
        exact eq_of_mem_of_length_le_one hone hlastOwn hown

end

lemma exists_parameters {c : TypeContext} (h : parameters c list = .ok params) (c' : TypeContext)
    (hsettings : c'.settings = c.settings) : ∃ params', parameters c' list = .ok params' := by
  have hown : Alongside False c c := ⟨rfl, False.elim⟩
  have hother : Alongside False c' c := ⟨hsettings.symm, False.elim⟩
  obtain ⟨_, params', -, hparams', -⟩ :=
    (inStep_parameters hown list).exists_ok_of_both (inStep_parameters hother list) h
  exact ⟨params', hparams'⟩

lemma not_refuses_of_recordShape {c : TypeContext} {a : AnalysisContext}
    (hsettings : a.unit.settings = c.settings) (hshape : RecordShape.ofNode c node = .ok shape) :
    ¬ Refuses a recordCanonicalConstructor node := by
  simp only [RecordShape.ofNode, Outcome.bind_eq_ok] at hshape
  obtain ⟨javaName, hname, declared, -, list, hlist, components, hcomponents, -⟩ := hshape
  rintro ⟨s, r, s', hrun⟩
  have hends : Ends a s (fun outcome _ => outcome = .ok ()) (recordCanonicalConstructor node) := by
    obtain ⟨params, hparams⟩ := exists_parameters hcomponents
      ⟨a.unit.settings, s.symbols,
        (a.unit.root.enclosingTypeParameters node ++ node.ownTypeParameters) :: a.typeParams⟩
      hsettings
    refine .ok_bind hname (.outerTypes_bind (.root_bind (.types_bind (.ok_bind hlist ?_))))
    exact .ok_bind hparams ⟨rfl, rfl⟩
  cases hends.of_run hrun

section

variable {s : Symbols} {node : Node}

lemma faults_recorded {ν : Type} {records : Table Nat ν} {fault : Fault}
    (h : node.id ∈ records.keys ∨ node.id ∈ s.failures.keys) :
    Faults Fault.IsOther (s.recorded records node fault) := by
  rw [← isSome_find?_iff, ← isSome_find?_iff] at h
  unfold Symbols.recorded
  cases hrecord : records.find? node.id with
  | some record => exact .ok record
  | none =>
    rw [hrecord] at h
    obtain ⟨refusal, hrefusal⟩ := Option.isSome_iff_exists.1 (h.resolve_left (by simp))
    rw [hrefusal]
    exact .refusal refusal

lemma contains_eq_not_contains {ν ν' : Type} {t : Table Nat ν} {t' : Table Nat ν'}
    (h : k ∈ t.keys ↔ k ∉ t'.keys) : t.contains k = !t'.contains k := by
  rw [← Table.isSome_find?_iff, ← Table.isSome_find?_iff] at h
  unfold Table.contains
  generalize (t.find? k).isSome = recorded at *
  generalize (t'.find? k).isSome = refused at *
  revert recorded refused
  decide

end

section

variable {unit : CompilationUnit} {findings : Findings} (hnumbers : unit.root.DistinctNumbers)
variable (hanalyze : analyze .tolerant unit [] {} = (.ok (), findings))
include hnumbers hanalyze

section

variable (hcompact : unit.root.Everywhere PlainlyCompact)
include hcompact

lemma recorded_of_analyze :
    unit.root.Everywhere (Build.Recorded False (Context.ofUnit unit findings.symbols)) := by
  obtain ⟨s₁, s₂, s₃, s₄, s₅, hpasses, hsymbols⟩ := exists_passes_of_wholeUnit hanalyze
  obtain ⟨methods, refusedMethods, constructors, refusedConstructors, records, refusedRecords,
    haccounts, hrefuses⟩ := exists_accounts_of_passes hpasses
  rw [← hsymbols] at haccounts
  intro n hn
  refine ⟨fun hkind => ?_, fun hkind => ?_, fun hkind shape hshape => ?_⟩
  · have hrecord := haccounts.method hnumbers hn hkind
    exact .inr (faults_recorded (by tauto))
  · have hrecord := haccounts.constructor hnumbers hn hkind
    exact .inr (faults_recorded (by tauto))
  · rw [soughtNode_eq_canonicalNode hkind (hcompact n hn)]
    refine .inr (faults_recorded (.inl ((haccounts.constructorRecords _).2 (.inr ?_))))
    have hdeclared : n ∈ unit.root.typeDeclarations.filter fun n => n.kind == .recordDeclaration :=
      mem_filter.2 ⟨mem_filter.2 ⟨hn, by rw [hkind]; rfl⟩, by rw [hkind]; rfl⟩
    rcases mem_append.1 (haccounts.records_perm.symm.subset hdeclared) with hkept | hrefused
    · exact mem_map.2 ⟨n, hkept, rfl⟩
    · exact absurd (hrefuses n hrefused) (not_refuses_of_recordShape rfl hshape)

lemma numbersRecorded_of_analyze :
    Build.NumbersRecorded False (Context.ofUnit unit findings.symbols) := by
  obtain ⟨s₁, s₂, s₃, s₄, s₅, hpasses, hsymbols⟩ := exists_passes_of_wholeUnit hanalyze
  have hmethods := numbersMethods_of_passes hpasses
  rw [← hsymbols] at hmethods
  intro goName layout hlayout number hnumber node hnode
  obtain ⟨m, hm, hkind, hid⟩ := hmethods goName layout hlayout number hnumber
  have hfound : node = m := hnumbers.eq_of_id (mem_walk_of_find? hnode) hm
    ((id_of_find? hnode).trans hid.symm)
  subst hfound
  exact (recorded_of_analyze hnumbers hanalyze hcompact node hm).method hkind

lemma supplied_of_analyze :
    wholeUnit.Conforms ⟨False, False, False, Context.ofUnit unit findings.symbols⟩ .none :=
  conforms_wholeUnit (numbersRecorded_of_analyze hnumbers hanalyze hcompact)
    ⟨recorded_of_analyze hnumbers hanalyze hcompact, False.elim, False.elim⟩

end

end

lemma faults_convert (hanalyze : analyze .tolerant unit [] {} = (.ok (), findings)) (hsupplied :
      wholeUnit.Conforms ⟨False, False, False, Context.ofUnit unit findings.symbols⟩ .none)
    (mode : Mode) : Faults Fault.IsOther (convert mode unit).outcome := by
  have hconvert : analyze mode unit [] {} = (.ok (), findings) →
      Faults Fault.IsOther (convert mode unit).outcome := by
    intro hsame
    have hrun := hsupplied.faults_runAt id mode (Draft.ofUnit unit findings.log)
    revert hrun
    rcases hresult : wholeUnit.runAt mode (Context.ofUnit unit findings.symbols)
      (Draft.ofUnit unit findings.log) with ⟨outcome, draft⟩
    intro hrun
    cases outcome with
    | ok =>
      rw [convert_of_runAt_ok hsame hresult]
      exact .ok ()
    | error =>
      rw [convert_of_runAt_error hsame hresult]
      exact hrun
  cases mode with
  | tolerant => exact hconvert hanalyze
  | strict =>
    have hagree := analyze_agree unit
    rw [hanalyze] at hagree
    revert hagree hconvert
    rcases hstrict : analyze .strict unit [] {} with ⟨outcome, findings'⟩
    intro hconvert hagree
    cases hagree with
    | same hfiled => exact hconvert rfl
    | filed node first hcause hfiled =>
      rw [convert_of_analyze_error hstrict]
      exact .refusal _

/-- After a tolerant analysis each method and each constructor has a record or a refusal and never
both.  Where no record has a compact constructor but one that is a named child of its body, no
member that is converted, and no conversion as a whole, fails for want of a record. -/
theorem records_complete {unit : CompilationUnit} (hnumbers : unit.root.DistinctNumbers)
    (hanalyze : (analyze .tolerant unit [] {}).1 = .ok ()) :
    (∀ n ∈ unit.root.walk, n.kind = .methodDeclaration →
        unit.context.symbols.methodRecords.contains n.id
          = !unit.context.symbols.failures.contains n.id)
      ∧ (∀ n ∈ unit.root.walk, n.kind = .constructorDeclaration →
          unit.context.symbols.constructorRecords.contains n.id
            = !unit.context.symbols.failures.contains n.id)
      ∧ (unit.root.Everywhere PlainlyCompact →
          (∀ call ∈ unit.calls, ∀ f,
            (call.run unit.context).1 = .error (.fault f) → f.kind ≠ .unrecorded)
          ∧ ∀ mode f, (convert mode unit).outcome = .error (.fault f) → f.kind ≠ .unrecorded) := by
  have hfull : analyze .tolerant unit [] {} = (.ok (), (analyze .tolerant unit [] {}).2) :=
    Prod.ext hanalyze rfl
  obtain ⟨s₁, s₂, s₃, s₄, s₅, hpasses, hsymbols⟩ := Analysis.exists_passes_of_wholeUnit hfull
  obtain ⟨methods, refusedMethods, constructors, refusedConstructors, records, refusedRecords,
    haccounts, -⟩ := Analysis.exists_accounts_of_passes hpasses
  rw [← hsymbols] at haccounts
  refine ⟨fun n hn hkind => ?_, fun n hn hkind => ?_, fun hcompact => ⟨?_, ?_⟩⟩
  · exact contains_eq_not_contains (haccounts.method hnumbers hn hkind)
  · exact contains_eq_not_contains (haccounts.constructor hnumbers hn hkind)
  · intro call hcall f hfault
    have hsupplied := supplied_of_analyze hnumbers hfull hcompact
    unfold CompilationUnit.calls at hcall
    rw [hfull] at hcall
    obtain ⟨held, -, -, hcall⟩ := hsupplied.handed_of_mem_calls (fun _ => False.elim) hcall
    exact hcall.faults_runAt id .tolerant call.before.openMember f hfault
  · intro mode f hfault
    exact faults_convert hfull (supplied_of_analyze hnumbers hfull hcompact) mode f hfault

/-- An abstract class with a method that cannot be analysed and one that can, a class below it with
a constructor, and a record with a compact constructor. -/
def figureUnit : CompilationUnit :=
  .ofTypes
    [.plainClass 1 (abstractModifiers 4) "Shape" []
      [.plainMethod 6 "area" [] [],
       .plainMethod 10 "scale" [.tree 14 .formalParameter []] []],
     .plainClass 15 [] "Square"
      [.plain 18 (.other "superclass") (some "superclass") ""
        [.leaf 19 .typeIdentifier "Shape"]]
      [.tree 20 .constructorDeclaration
        [.called 21 "Square",
         .parameterList 22 [],
         .plain 23 (.other "constructor_body") (some "body") "" []]],
     .tree 24 .recordDeclaration
      [.called 25 "Corner",
       .parameterList 26 [],
       .plain 27 .classBody (some "body") ""
        [.tree 28 .compactConstructorDeclaration
          [.called 29 "Corner",
           .body 30 []]]]]

/-- The method `scale` is refused and only refused, the constructor of `Square` is recorded, and
nothing that is looked up is missing. -/
theorem figureUnit_records_complete :
    (figureUnit.root.DistinctNumbers ∧ (analyze .tolerant figureUnit [] {}).1 = .ok ()
        ∧ figureUnit.root.Everywhere PlainlyCompact)
      ∧ figureUnit.context.symbols.failures.contains 10 = true
      ∧ figureUnit.context.symbols.methodRecords.contains 10 = false
      ∧ figureUnit.context.symbols.constructorRecords.contains 20 = true
      ∧ (∀ call ∈ figureUnit.calls, ∀ f,
          (call.run figureUnit.context).1 = .error (.fault f) →
            f.kind ≠ .unrecorded) := by
  have hnumbers : figureUnit.root.DistinctNumbers := by decide +kernel
  have hanalyze : (analyze .tolerant figureUnit [] {}).1 = .ok () := by with_unfolding_all rfl
  have hcompact : figureUnit.root.Everywhere PlainlyCompact := by decide +kernel
  obtain ⟨hmethods, hconstructors, hlookups⟩ := records_complete hnumbers hanalyze
  have hrefused : figureUnit.context.symbols.failures.contains 10 = true := by
    with_unfolding_all rfl
  have hkept : figureUnit.context.symbols.failures.contains 20 = false := by
    with_unfolding_all rfl
  obtain ⟨scale, hscale, hscaleKind, hscaleId⟩ : ∃ n ∈ figureUnit.root.walk,
      n.kind = .methodDeclaration ∧ n.id = 10 := by decide +kernel
  obtain ⟨make, hmake, hmakeKind, hmakeId⟩ : ∃ n ∈ figureUnit.root.walk,
      n.kind = .constructorDeclaration ∧ n.id = 20 := by decide +kernel
  have hscaleRecord := hmethods scale hscale hscaleKind
  have hmakeRecord := hconstructors make hmake hmakeKind
  rw [hscaleId, hrefused] at hscaleRecord
  rw [hmakeId, hkept] at hmakeRecord
  exact ⟨⟨hnumbers, hanalyze, hcompact⟩, hrefused, hscaleRecord, hmakeRecord,
    (hlookups hcompact).1⟩

end JavaToGo
