import JavaToGo.Proofs.Analysis.Steps

/-!
# The analysis in the two modes

Only a guard files refusals, and what is filed stays.
-/

namespace JavaToGo

open List Symbols

namespace Table

variable {κ ν : Type} [DecidableEq κ]

lemma insertIn_of_findIn_eq_none (v : ν) :
    ∀ {es : List (κ × ν)}, findIn k es = none → insertIn k v es = es ++ [(k, v)]
  | [], _ => rfl
  | e :: es, h => by
    by_cases hk : e.1 = k
    · simp [findIn, hk] at h
    · have hes : findIn k es = none := by simpa [findIn, hk] using h
      simp [insertIn, hk, insertIn_of_findIn_eq_none v hes]

lemma entries_isPrefix_insertNew (t : Table κ ν) (k : κ) (v : ν) :
    t.entries <+: (t.insertNew k v).entries := by
  unfold insertNew contains find? insert
  cases h : findIn k t.entries with
  | some => exact prefix_rfl
  | none =>
    simp only [insertIn_of_findIn_eq_none v h]
    exact prefix_append _ _

end Table

namespace Findings

def filed (s : Findings) : List (Nat × Refusal) :=
  s.symbols.failures.entries

end Findings

namespace Analysis

section

variable {α γ : Type} {part : Symbols → γ}

/-- The computation leaves a part of the symbols as it is, returning or failing. -/
def Preserves (part : Symbols → γ) (x : Analysis α) : Prop :=
  ∀ c s, (x.runFrom c s).2.log = s.log ∧ part (x.runFrom c s).2.symbols = part s.symbols

lemma preserves_recordAbstract
    (h : ∀ s abstractTypes layouts,
      part { s with abstractTypes := abstractTypes, layouts := layouts } = part s)
    (node : Node) : Preserves part (recordAbstract node) := by
  have hnoted : ∀ s goName, part (addAbstractType s goName) = part s := by
    intro s goName
    unfold addAbstractType
    split
    · rfl
    · exact h s _ s.layouts
  exact fun c s => ends_recordAbstract (P := fun _ s' => part s' = part s.symbols) (fun _ _ => rfl)
    (fun _ => rfl) (fun _ goName _ => hnoted _ goName)
    fun goName _ _ _ _ => (h _ _ _).trans (hnoted s.symbols goName)

lemma preserves_recordType
    (h : ∀ s declaredTypes enumConstants layouts,
      part { s with declaredTypes := declaredTypes, enumConstants := enumConstants,
                    layouts := layouts } = part s)
    (node : Node) : Preserves part (recordType node) :=
  fun _ s => ends_recordType (P := fun _ s' => part s' = part s.symbols) (fun _ _ => rfl)
    fun _ _ _ _ _ _ => ⟨fun _ _ => h _ _ _ _, fun _ => h _ _ _ _, fun _ _ _ _ => h s.symbols _ _ _⟩

lemma preserves_recordMethod
    (h : ∀ s methods methodRecords,
      part { s with methods := methods, methodRecords := methodRecords } = part s)
    (node : Node) : Preserves part (recordMethod node) :=
  fun _ s => ends_recordMethod (P := fun _ s' => part s' = part s.symbols) (fun _ _ => rfl)
    (fun _ _ _ _ _ _ => h _ _ _) fun _ _ _ _ _ => h s.symbols _ _

variable (h : ∀ s constructors constructorRecords,
  part { s with constructors := constructors, constructorRecords := constructorRecords } = part s)
include h

lemma preserves_recordConstructor (node : Node) : Preserves part (recordConstructor node) :=
  fun _ s => ends_recordConstructor (P := fun _ s' => part s' = part s.symbols) (fun _ _ => rfl)
    fun _ _ _ _ _ _ _ _ _ _ _ _ => h _ _ _

lemma preserves_recordCanonicalConstructor (node : Node) :
    Preserves part (recordCanonicalConstructor node) :=
  fun _ s => ends_recordCanonicalConstructor (P := fun _ s' => part s' = part s.symbols)
    (fun _ _ => rfl) fun _ _ _ _ _ _ _ _ _ _ => h _ _ _

end

variable {α β : Type} {step : Node → Analysis Unit}

/-- How a strict and a tolerant analysis that start with nothing filed go together. -/
inductive Agree : Except Failure α × Findings → Except Failure α × Findings → Prop
  /-- Nothing was refused. -/
  | same {result : Except Failure α × Findings} (hfiled : result.2.filed = []) :
      Agree result result
  /-- The refusal that ended the strict analysis was the first to be filed. -/
  | filed {refusal : Refusal} {strict : Findings} {tolerant : Except Failure α × Findings}
      (node : Node) (first : Refusal) (hcause : first.cause = refusal.cause)
      (hfiled : [(node.id, first)] <+: tolerant.2.filed) :
      Agree (.error (.refusal refusal), strict) tolerant

/-- Without refusals the two modes do the same; the tolerant one keeps what is filed. -/
structure Matches (strict tolerant : Analysis α) : Prop where
  agree : ∀ c s, s.filed = [] → Agree (strict.runFrom c s) (tolerant.runFrom c s)
  filed_stays : ∀ c s, s.filed <+: (tolerant.runFrom c s).2.filed

lemma Preserves.filed (h : Preserves failures x) (c : AnalysisContext) (s : Findings) :
    (x.runFrom c s).2.filed = s.filed :=
  congrArg Table.entries (h c s).2

lemma Matches.same {x : Analysis α} (h : ∀ c s, (x.runFrom c s).2.filed = s.filed) :
    Matches x x where
  agree c s hs := .same ((h c s).trans hs)
  filed_stays c s := h c s ▸ prefix_rfl

lemma Matches.bind {f g : α → Analysis β} (hxy : Matches x y) (hfg : ∀ a, Matches (f a) (g a)) :
    Matches (x >>= f) (y >>= g) := by
  refine ⟨fun c s hs => ?_, fun c s => findings_bind (Q := fun s' => s.filed <+: s'.filed)
    (hxy.filed_stays c s) fun a s' h => h.trans ((hfg a).filed_stays c s')⟩
  have hrun := hxy.agree c s hs
  simp only [runFrom_bind]
  revert hrun
  generalize x.runFrom c s = strict
  generalize y.runFrom c s = tolerant
  intro hrun
  cases hrun with
  | same hfiled =>
    rcases strict with ⟨_ | a, s'⟩
    · exact .same hfiled
    · exact (hfg a).agree c s' hfiled
  | @filed refusal strict tolerant node first hcause hfiled =>
    refine .filed node first hcause (hfiled.trans ?_)
    rcases tolerant with ⟨_ | a, s'⟩
    · exact prefix_rfl
    · exact (hfg a).filed_stays c s'

lemma filed_isPrefix_fileRefusal (node : Node) (r : Refusal) (c : AnalysisContext)
    (s : Findings) : s.filed <+: ((fileRefusal node r).runFrom c s).2.filed :=
  Table.entries_isPrefix_insertNew s.symbols.failures node.id _

lemma filed_fileRefusal_of_nil (node : Node) (r : Refusal) (c : AnalysisContext)
    {s : Findings} (h : s.filed = []) :
    ((fileRefusal node r).runFrom c s).2.filed
      = [(node.id, { r with node := some (r.node.getD node) })] := by
  have hfailures : s.symbols.failures = ⟨[]⟩ := congrArg Table.mk h
  change (s.symbols.failures.insertNew _ _).entries = _
  rw [hfailures]
  rfl

lemma guarded_matches (h : Preserves failures (step node)) :
    Matches (guarded .strict step node) (guarded .tolerant step node) := by
  constructor
  · intro c s hs
    have hkeep := h.filed c s
    simp only [runFrom_guarded]
    revert hkeep
    rcases (step node).runFrom c s with ⟨outcome, s'⟩
    intro hkeep
    rcases outcome with (r | f) | a
    · refine .filed node { r with node := some (r.node.getD node) } rfl ?_
      exact filed_fileRefusal_of_nil node r c (hkeep.trans hs) ▸ prefix_rfl
    · exact .same (hkeep.trans hs)
    · exact .same (hkeep.trans hs)
  · intro c s
    exact findings_guarded (Q := fun s' => s.filed <+: s'.filed) .tolerant
      (h.filed c s ▸ prefix_rfl) fun r s' hs => hs.trans (filed_isPrefix_fileRefusal node r c s')

lemma forEach_matches (h : ∀ node, Preserves failures (step node)) (nodes : List Node) :
    Matches (forEach .strict step nodes) (forEach .tolerant step nodes) := by
  induction nodes with
  | nil => exact .same fun _ _ => rfl
  | cons node nodes ih => exact .bind (guarded_matches (h node)) fun _ => ih

lemma wholeUnit_matches : Matches (wholeUnit .strict) (wholeUnit .tolerant) :=
  .bind (.same fun _ _ => rfl) fun _ =>
    .bind (forEach_matches (preserves_recordAbstract fun _ _ _ => rfl) _) fun _ =>
    .bind (forEach_matches (preserves_recordType fun _ _ _ _ => rfl) _) fun _ =>
    .bind (forEach_matches (preserves_recordMethod fun _ _ _ => rfl) _) fun _ =>
    .bind (forEach_matches (preserves_recordConstructor fun _ _ _ => rfl) _) fun _ =>
    .bind (forEach_matches (preserves_recordCanonicalConstructor fun _ _ _ => rfl) _) fun _ =>
    .bind (.same fun _ _ => rfl) fun _ => .same fun _ _ => rfl

/-- A method is filed and recorded, or filed only; everything else leaves methods alone. -/
inductive Update (root : Node) : Findings → Findings → Prop
  | other {s s' : Findings} (hmethods : s'.symbols.methods = s.symbols.methods)
      (hrecords : s'.symbols.methodRecords = s.symbols.methodRecords) (hlog : s'.log = s.log) :
      Update root s s'
  | filed (s : Findings) (javaName : String) (types : List String) (isPublic isStatic : Bool) :
      Update root s { s with symbols := (s.symbols.addMethod javaName types isPublic isStatic).2 }
  | recorded (s : Findings) (node : Node) (record : MethodRecord) (hnode : node ∈ root.walk)
      (hvalue : ∃ types, valueTypeOf types node = .ok record.valueType)
      (hthrows : record.throws = (node.childOfKind? .throws).isSome)
      (hresult : record.result = foldThrows record.valueType record.throws)
      (hpublic : ∀ owner, root.enclosingType? node = some owner → owner.listsMethods = true →
        record.isPublic = true) :
      Update root s { s with symbols := s.symbols.withMethod node record }
  | refused (s : Findings) (failures : Table Nat Refusal) (kind : Kind)
      (location message : String) :
      Update root s
        { symbols := { s.symbols with failures := failures },
          log := s.log ++ [.analysisFailed kind location message] }
  | counted (s : Findings) (methods constructors types : Nat) :
      Update root s { s with log := s.log ++ [.analyzed methods constructors types] }

/-- A run of updates. -/
inductive Reaches (root : Node) : Findings → Findings → Prop
  | refl (s : Findings) : Reaches root s s
  | tail {s s' s'' : Findings} (h : Reaches root s s') (hstep : Update root s' s'') :
      Reaches root s s''

namespace Reaches

variable {root : Node} {s s' s'' : Findings}

lemma single (h : Update root s s') : Reaches root s s' :=
  .tail (.refl s) h

lemma trans (h : Reaches root s s') (h' : Reaches root s' s'') : Reaches root s s'' := by
  induction h' with
  | refl => exact h
  | tail _ hstep ih => exact .tail ih hstep

lemma induct {I : Findings → Prop} (hstep : ∀ s s', Update root s s' → I s → I s')
    (h : Reaches root s s') (hs : I s) : I s' := by
  induction h with
  | refl => exact hs
  | tail _ hupdate ih => exact hstep _ _ hupdate ih

end Reaches

section

variable {α β : Type}

/-- What the computation does to the findings is a run of updates. -/
def Moves (root : Node) (x : Analysis α) : Prop :=
  ∀ c s, c.unit.root = root → Reaches root s (x.runFrom c s).2

namespace Moves

variable {root : Node}

lemma pure (a : α) : Moves root (Pure.pure a) :=
  fun _ s _ => .refl s

lemma bind {f : α → Analysis β} (hx : Moves root x) (hf : ∀ a, Moves root (f a)) :
    Moves root (x >>= f) := by
  intro c s hc
  exact findings_bind (Q := Reaches root s) (hx c s hc) fun a s' h => h.trans (hf a c s' hc)

lemma of_preserves (h : Preserves (fun s => (s.methods, s.methodRecords)) x) : Moves root x :=
  fun c s _ =>
    .single (.other (congrArg Prod.fst (h c s).2) (congrArg Prod.snd (h c s).2) (h c s).1)

end Moves

end

lemma Ends.reaches {α : Type} {c : AnalysisContext} {s : Findings} {x : Analysis α}
    (h : Ends c s (fun _ s' => Reaches c.unit.root s { s with symbols := s' }) x) :
    Reaches c.unit.root s (x.runFrom c s).2 := by
  obtain ⟨hlog, hreaches⟩ := h
  rwa [← hlog] at hreaches

lemma moves_recordMethod {root node : Node} (hnode : node ∈ root.walk) :
    Moves root (recordMethod node) := by
  rintro c s rfl
  refine Ends.reaches (ends_recordMethod (fun _ _ => .refl s) ?_ ?_)
  · exact fun _ javaName types isPublic isStatic _ =>
      .single (.filed s javaName types isPublic isStatic)
  · exact fun record hvalue hthrows hresult hpublic =>
      .single (.recorded s node record hnode hvalue hthrows hresult hpublic)

variable (mode : Mode) {root : Node} {step : Node → Analysis Unit}

lemma moves_fileRefusal (node : Node) (r : Refusal) : Moves root (fileRefusal node r) :=
  fun _ s _ => .single (.refused s _ node.kind (locationText node.location) r.message)

lemma moves_guarded (hstep : Moves root (step node)) : Moves root (guarded mode step node) := by
  intro c s hc
  exact findings_guarded (Q := Reaches root s) mode (hstep c s hc) fun r s' h =>
    h.trans (moves_fileRefusal node r c s' hc)

lemma moves_forEach (hstep : ∀ node ∈ nodes, Moves root (step node)) :
    Moves root (forEach mode step nodes) := by
  induction nodes with
  | nil => exact .pure _
  | cons node nodes ih =>
    have hrest := ih fun n hn => hstep n (List.mem_cons_of_mem _ hn)
    exact .bind (moves_guarded mode (hstep node List.mem_cons_self)) fun _ => hrest

lemma moves_wholeUnit : Moves root (wholeUnit mode) := by
  rintro c s rfl
  refine Moves.bind (moves_forEach mode fun n _ => ?_) (fun _ =>
    .bind (moves_forEach mode fun n _ => ?_) fun _ =>
    .bind (moves_forEach mode fun n hn => moves_recordMethod (List.mem_filter.1 hn).1) fun _ =>
    .bind (moves_forEach mode fun n _ => ?_) fun _ =>
    .bind (moves_forEach mode fun n _ => ?_) fun _ =>
    .bind (fun _ s _ => .refl s) fun _ _ s _ => .single (.counted s _ _ _)) c s rfl
  · exact .of_preserves (preserves_recordAbstract (fun _ _ _ => rfl) n)
  · exact .of_preserves (preserves_recordType (fun _ _ _ _ => rfl) n)
  · exact .of_preserves (preserves_recordConstructor (fun _ _ _ => rfl) n)
  · exact .of_preserves (preserves_recordCanonicalConstructor (fun _ _ _ => rfl) n)

end Analysis

lemma reaches_analyze (mode : Mode) (unit : CompilationUnit) (typeParams : List Scope)
    (findings : Findings) :
    Analysis.Reaches unit.root findings (analyze mode unit typeParams findings).2 :=
  Analysis.moves_wholeUnit mode ⟨unit, typeParams⟩ findings rfl

end JavaToGo
