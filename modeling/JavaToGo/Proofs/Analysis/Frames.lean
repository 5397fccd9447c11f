import JavaToGo.Proofs.Analysis.Modes

/-!
# What a pass of the analysis leaves alone
-/

namespace JavaToGo

namespace Tree.Node

variable (root : Node)

/-- The declarations of types in a tree, in order. -/
def typeDeclarations : List Node :=
  root.walk.filter fun n => n.kind.isTypeDeclaration

/-- The nodes of a kind, in order. -/
def declarationsOf (kind : Kind) : List Node :=
  root.walk.filter fun n => n.kind == kind

end Tree.Node

namespace Analysis

variable {α β γ : Type} {step : Node → Analysis Unit} {x : Analysis α}

section

variable {c : AnalysisContext} {s : Findings} {P : Symbols → Prop}

def LeadsTo (c : AnalysisContext) (s : Findings) (P : Symbols → Prop) (x : Analysis α) : Prop :=
  P (x.runFrom c s).2.symbols

lemma Ends.leadsTo (h : Ends c s (fun _ => P) x) : LeadsTo c s P x :=
  h.2

namespace LeadsTo

lemma guarded (h : LeadsTo c s P (step n)) (mode : Mode)
    (hfailures : ∀ s failures, P s → P { s with failures := failures }) :
    LeadsTo c s P (Analysis.guarded mode step n) :=
  findings_guarded (Q := fun s => P s.symbols) mode h fun _ _ hs => hfailures _ _ hs

lemma forEach (hfailures : ∀ s failures, P s → P { s with failures := failures })
    (h : ∀ n ∈ nodes, ∀ s : Findings, P s.symbols → LeadsTo c s P (step n)) (hs : P s.symbols) :
    LeadsTo c s P (Analysis.forEach mode step nodes) := by
  induction nodes generalizing s with
  | nil => exact hs
  | cons n nodes ih =>
    exact findings_bind (Q := fun s => P s.symbols)
      ((h n List.mem_cons_self s hs).guarded mode hfailures)
      fun _ _ hstep => ih (fun m hm => h m (List.mem_cons_of_mem _ hm)) hstep

lemma of_run (h : LeadsTo c s P x) (hrun : x.runFrom c s = (outcome, s')) : P s'.symbols := by
  unfold LeadsTo at h
  rwa [hrun] at h

end LeadsTo

lemma part_of_forEach (part : Symbols → γ)
    (hrun : (forEach mode step nodes).runFrom c s = (outcome, s'))
    (hstep : ∀ node, Preserves part (step node))
    (hfailures : ∀ s failures, part { s with failures := failures } = part s) :
    part s'.symbols = part s.symbols := by
  have hpass : LeadsTo c s (fun s' => part s' = part s.symbols) (forEach mode step nodes) := by
    refine .forEach (fun s' failures h => (hfailures s' failures).trans h) ?_ rfl
    exact fun n _ s' hs => (hstep n c s').2.trans hs
  exact hpass.of_run hrun

end

lemma runFrom_bind_eq_ok_iff {f : α → Analysis β} :
    (x >>= f).runFrom c s = (.ok b, s')
      ↔ ∃ a s₁, x.runFrom c s = (.ok a, s₁) ∧ (f a).runFrom c s₁ = (.ok b, s') := by
  rw [runFrom_bind]
  rcases x.runFrom c s with ⟨_ | a, s₁⟩
  · constructor
    · intro h
      cases h
    · rintro ⟨a, s₁', heq, -⟩
      cases heq
  · constructor
    · intro h
      exact ⟨a, s₁, rfl, h⟩
    · rintro ⟨a', s₁', heq, h⟩
      cases heq
      exact h

lemma forEach_append_iff :
    (forEach mode step (ms ++ ns)).runFrom c s = (.ok (), s')
      ↔ ∃ s₁, (forEach mode step ms).runFrom c s = (.ok (), s₁)
        ∧ (forEach mode step ns).runFrom c s₁ = (.ok (), s') := by
  induction ms generalizing s with
  | nil =>
    constructor
    · intro h
      exact ⟨s, rfl, h⟩
    · rintro ⟨s₁, hnil, h⟩
      cases hnil
      exact h
  | cons m ms ih =>
    rw [List.cons_append, forEach, runFrom_bind_eq_ok_iff]
    constructor
    · rintro ⟨u, s₁, hstep, hrest⟩
      obtain ⟨s₂, hms, hns⟩ := ih.1 hrest
      exact ⟨s₂, runFrom_bind_eq_ok_iff.2 ⟨u, s₁, hstep, hms⟩, hns⟩
    · rintro ⟨s₂, hms, hns⟩
      obtain ⟨u, s₁, hstep, hms⟩ := runFrom_bind_eq_ok_iff.1 hms
      exact ⟨u, s₁, hstep, ih.2 ⟨s₂, hms, hns⟩⟩

section

variable {step : Node → Analysis Unit}

lemma forEach_strict_cons_iff :
    (forEach .strict step (n :: ns)).runFrom c s = (.ok (), s')
      ↔ ∃ s₁, (step n).runFrom c s = (.ok (), s₁)
        ∧ (forEach .strict step ns).runFrom c s₁ = (.ok (), s') := by
  rw [forEach, runFrom_bind_eq_ok_iff]
  have hguarded : ∀ a s₁, (guarded .strict step n).runFrom c s = (.ok a, s₁)
      ↔ (step n).runFrom c s = (.ok a, s₁) := by
    intro a s₁
    rw [runFrom_guarded]
    rcases (step n).runFrom c s with ⟨outcome, s₂⟩
    rcases outcome with (r | f) | a'
    · constructor <;> intro h <;> cases h
    · constructor <;> intro h <;> cases h
    · exact Iff.rfl
  constructor
  · rintro ⟨a, s₁, hstep, hrest⟩
    exact ⟨s₁, (hguarded a s₁).1 hstep, hrest⟩
  · rintro ⟨s₁, hstep, hrest⟩
    exact ⟨(), s₁, (hguarded () s₁).2 hstep, hrest⟩

end

/-- The five passes of an analysis, with the findings between them. -/
structure Passes (mode : Mode) (c : AnalysisContext) (s s₁ s₂ s₃ s₄ s₅ : Findings) : Prop where
  abstracts : (forEach mode recordAbstract c.unit.root.typeDeclarations).runFrom c s
    = (.ok (), s₁)
  types : (forEach mode recordType c.unit.root.typeDeclarations).runFrom c s₁ = (.ok (), s₂)
  methods : (forEach mode recordMethod
    (c.unit.root.declarationsOf .methodDeclaration)).runFrom c s₂ = (.ok (), s₃)
  constructors : (forEach mode recordConstructor
    (c.unit.root.declarationsOf .constructorDeclaration)).runFrom c s₃ = (.ok (), s₄)
  canonicals : (forEach mode recordCanonicalConstructor
    (c.unit.root.typeDeclarations.filter fun n => n.kind == .recordDeclaration)).runFrom c s₄
      = (.ok (), s₅)

lemma Passes.part_eq (h : Passes mode c s s₁ s₂ s₃ s₄ s₅) (part : Symbols → γ)
    (hmethods : ∀ s methods methodRecords,
      part { s with methods := methods, methodRecords := methodRecords } = part s)
    (hconstructors : ∀ s constructors constructorRecords,
      part { s with constructors := constructors,
                    constructorRecords := constructorRecords } = part s)
    (hfailures : ∀ s failures, part { s with failures := failures } = part s) :
    part s₅.symbols = part s₂.symbols :=
  calc part s₅.symbols
      = part s₄.symbols := part_of_forEach part h.canonicals
          (preserves_recordCanonicalConstructor hconstructors) hfailures
    _ = part s₃.symbols := part_of_forEach part h.constructors
          (preserves_recordConstructor hconstructors) hfailures
    _ = part s₂.symbols := part_of_forEach part h.methods
          (preserves_recordMethod hmethods) hfailures

lemma Passes.constructors_eq (h : Passes mode c s s₁ s₂ s₃ s₄ s₅) :
    s₃.symbols.constructors = s.symbols.constructors
      ∧ s₃.symbols.constructorRecords = s.symbols.constructorRecords := by
  let part (s : Symbols) := (s.constructors, s.constructorRecords)
  have hpart : part s₃.symbols = part s.symbols :=
    calc part s₃.symbols
        = part s₂.symbols := part_of_forEach part h.methods
            (preserves_recordMethod fun _ _ _ => rfl) fun _ _ => rfl
      _ = part s₁.symbols := part_of_forEach part h.types
            (preserves_recordType fun _ _ _ _ => rfl) fun _ _ => rfl
      _ = part s.symbols := part_of_forEach part h.abstracts
            (preserves_recordAbstract fun _ _ _ => rfl) fun _ _ => rfl
  exact Prod.mk.inj hpart

lemma exists_passes_of_wholeUnit (h : (wholeUnit mode).runFrom c s = (.ok (), s')) :
    ∃ s₁ s₂ s₃ s₄ s₅, Passes mode c s s₁ s₂ s₃ s₄ s₅ ∧ s'.symbols = s₅.symbols := by
  obtain ⟨r, s₀, ⟨⟩, h⟩ := runFrom_bind_eq_ok_iff.1 h
  obtain ⟨_, s₁, h₁, h⟩ := runFrom_bind_eq_ok_iff.1 h
  obtain ⟨_, s₂, h₂, h⟩ := runFrom_bind_eq_ok_iff.1 h
  obtain ⟨_, s₃, h₃, h⟩ := runFrom_bind_eq_ok_iff.1 h
  obtain ⟨_, s₄, h₄, h⟩ := runFrom_bind_eq_ok_iff.1 h
  obtain ⟨_, s₅, h₅, ⟨⟩⟩ := runFrom_bind_eq_ok_iff.1 h
  exact ⟨s₁, s₂, s₃, s₄, s₅, ⟨h₁, h₂, h₃, h₄, h₅⟩, rfl⟩

lemma exists_wholeUnit_of_passes (h : Passes mode c s s₁ s₂ s₃ s₄ s₅) :
    ∃ s', (wholeUnit mode).runFrom c s = (.ok (), s') ∧ s'.symbols = s₅.symbols := by
  refine ⟨{ s₅ with log := s₅.log ++ [.analyzed s₅.symbols.methodRecords.size
    s₅.symbols.constructorRecords.size c.unit.root.typeDeclarations.length] }, ?_, rfl⟩
  refine runFrom_bind_eq_ok_iff.2 ⟨c.unit.root, s, rfl, ?_⟩
  refine runFrom_bind_eq_ok_iff.2 ⟨(), s₁, h.abstracts, ?_⟩
  refine runFrom_bind_eq_ok_iff.2 ⟨(), s₂, h.types, ?_⟩
  refine runFrom_bind_eq_ok_iff.2 ⟨(), s₃, h.methods, ?_⟩
  refine runFrom_bind_eq_ok_iff.2 ⟨(), s₄, h.constructors, ?_⟩
  exact runFrom_bind_eq_ok_iff.2 ⟨(), s₅, h.canonicals, rfl⟩

end Analysis
end JavaToGo
