import JavaToGo.Proofs.Declaration.ClassMembers

/-!
# Receivers and parameters

Receivers have fixed names: `b` for accessors, `m` for default methods, the first
letter of the class below an abstract one, and `this` elsewhere.  Parameters keep
their Java names in the same scope, and that of a setter is the field.
-/

namespace JavaToGo

open Build

lemma apart_convert_tolerant (hok : (convert .tolerant unit).outcome = .ok ())
    (hclean : (convert .tolerant unit).draft.diagnostics = [])
    (hnames : unit.root.Everywhere fun n => namedApart unit.context n = true) :
    ∀ f, .function f ∈ (convert .tolerant unit).draft.file.methods → f.Apart := by
  unfold CompilationUnit.context at hnames
  rcases hanalyze : analyze .tolerant unit [] {} with ⟨outcome, findings⟩
  rw [hanalyze] at hnames
  cases outcome with
  | error =>
    rw [convert_of_analyze_error hanalyze] at hok
    cases hok
  | ok =>
    obtain ⟨draft, hrun, hstaged, hconvert⟩ := exists_runAt_tolerant hanalyze
    rw [hconvert] at hclean ⊢
    have hconforms : wholeUnit.Conforms
        ⟨True, False, True, Context.ofUnit unit findings.symbols⟩ .none :=
      conforms_wholeUnit (numbersRecorded_free _)
        ⟨(Build.Proper.free _ _).recorded, False.elim, fun _ => hnames⟩
    have hmethods := hconforms.apart trivial ⟨hrun, hclean⟩ nofun
    rw [Draft.standing, hstaged] at hmethods
    exact hmethods

/-- A unit that is converted without diagnostics has no method with a parameter of the name of its
receiver, when no type of it writes a method with such a parameter. -/
theorem receivers_not_captured {mode : Mode} {unit : CompilationUnit}
    (hok : (convert mode unit).outcome = .ok ())
    (hclean : (convert mode unit).draft.diagnostics = [])
    (hnames : unit.root.Everywhere fun n => Build.namedApart unit.context n = true) :
    ∀ f, .function f ∈ (convert mode unit).draft.file.methods →
      ∀ r, f.receiver = some r → ∀ q ∈ f.params, q.name ≠ r.name := by
  have hsame := convert_eq_tolerant_of_ok hok
  rw [hsame] at hok hclean ⊢
  exact apart_convert_tolerant hok hclean hnames

/-- `abstract class Box { int name; void put(int name) {} }` -/
def boxUnit (name : String) : CompilationUnit :=
  .ofTypes
    [.plainClass 1 (abstractModifiers 4) "Box" []
      [plainField 10 [.intType 11] [name],
       .plainMethod 20 "put" [.tree 30 .formalParameter
         [.intType 31,
          .called 32 name]] []]]

def boxSetter (name : String) : Code.Function :=
  { name := "Set" ++ Code.exported name, params := [⟨name, "int"⟩],
    body := [.assign (.field (.var "b") (Code.exported name)) (.var name)],
    isPublic := true, receiver := some ⟨"b", "*BoxBase"⟩ }

/-- Whether a declaration is the setter, part by part: statements have no decidable equality. -/
def isBoxSetter (name : String) : Code.Decl → Bool
  | .function ⟨f, params, none, [.assign (.field (.var r) field) (.var v)], true, [], [], self⟩ =>
    decide (f = "Set" ++ field ∧ params = [⟨name, "int"⟩] ∧ r = "b" ∧ field = Code.exported name
      ∧ v = name ∧ self = some ⟨"b", "*BoxBase"⟩)
  | _ => false

lemma boxSetter_mem {decls : List Code.Decl} (h : decls.any (isBoxSetter name) = true) :
    .function (boxSetter name) ∈ decls := by
  obtain ⟨d, hmem, hsetter⟩ := List.any_eq_true.1 h
  unfold isBoxSetter at hsetter
  split at hsetter
  · obtain ⟨rfl, rfl, rfl, rfl, rfl, rfl⟩ := of_decide_eq_true hsetter
    exact hmem
  · cases hsetter

theorem box_receivers_not_captured :
    (convert .tolerant (boxUnit "n")).outcome = .ok ()
      ∧ (convert .tolerant (boxUnit "n")).draft.diagnostics = []
      ∧ .function (boxSetter "n") ∈ (convert .tolerant (boxUnit "n")).draft.file.methods
      ∧ ((boxUnit "n").root.Everywhere fun n =>
          Build.namedApart (boxUnit "n").context n = true)
      ∧ ∀ f, .function f ∈ (convert .tolerant (boxUnit "n")).draft.file.methods →
          ∀ r, f.receiver = some r → ∀ q ∈ f.params, q.name ≠ r.name := by
  have hok : (convert .tolerant (boxUnit "n")).outcome = .ok () := ok_of_isOk (by decide +kernel)
  have hclean : (convert .tolerant (boxUnit "n")).draft.diagnostics = [] := by decide +kernel
  have hnames : (boxUnit "n").root.Everywhere fun n =>
      Build.namedApart (boxUnit "n").context n = true := by decide +kernel
  exact ⟨hok, hclean, boxSetter_mem (by decide +kernel), hnames,
    receivers_not_captured hok hclean hnames⟩

theorem setter_captures_receiver :
    (convert .tolerant (boxUnit "b")).outcome = .ok ()
      ∧ (convert .tolerant (boxUnit "b")).draft.diagnostics = []
      ∧ .function (boxSetter "b") ∈ (convert .tolerant (boxUnit "b")).draft.file.methods
      ∧ ∃ r, (boxSetter "b").receiver = some r ∧ ∃ q ∈ (boxSetter "b").params, q.name = r.name := by
  exact ⟨ok_of_isOk (by decide +kernel), by decide +kernel, boxSetter_mem (by decide +kernel),
    _, rfl, _, List.mem_cons_self, rfl⟩

end JavaToGo
