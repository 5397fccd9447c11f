import JavaToGo.Conversion
import JavaToGo.Proofs.Analysis.Modes
import JavaToGo.Proofs.Draft.Calls

/-!
# A unit in the two modes

A strict run writes straight to the file, a tolerant run to staged files.  While
nothing has failed, the file of the strict run is what the draft of the tolerant
run stands for.
-/

namespace JavaToGo

open Draft Build

namespace Build

variable {α : Type}

lemma level_runAt (mode : Mode) (x : Build α) (d : Draft) :
    (x.runAt mode c d).2.level = d.level := by
  induction x generalizing d with
  | done | stop => rfl
  | asking _ ih => exact ih c d
  | lowering _ next ih =>
    rw [runAt]
    split
    · next value t _ => exact ih value (d.withTrail t)
    · rfl
  | noting event _ ih => exact ih (d.note event)
  | adding group decls _ ih =>
    exact (ih (d.count group) (d.add group decls)).trans (d.level_add group decls)
  | growing group place grow _ ih =>
    exact (ih (d.grow group place grow)).trans (d.level_grow group place grow)
  | guarding _ _ _ next ihBody ihNext =>
    cases mode with
    | strict =>
      have hbody := ihBody d
      rw [runAt]
      split
      · next hrun => exact (ihNext _ _).trans (by rw [← hbody, hrun])
      · next hrun => rw [← hbody, hrun]
    | tolerant =>
      have hbody := ihBody d.openMember
      refine (ihNext _ _).trans ?_
      rw [level_closeMember, hbody, level_openMember, Nat.add_sub_cancel]

/-- How a strict run and a tolerant run from one draft go together. -/
inductive Agree (d : Draft) :
    Except Failure α × Draft → Except Failure α × Draft → Prop
  | returned {value : α} {after : Draft} (himports : after.Importless)
      (hdiagnostics : after.diagnostics = d.diagnostics) :
      Agree d (.ok value, after.flat) (.ok value, after)
  /-- Both were ended by a failure outside of all boundaries. -/
  | raised {failure : Failure} {strict tolerant : Draft}
      (hdiagnostics : tolerant.diagnostics = d.diagnostics) :
      Agree d (.error failure, strict) (.error failure, tolerant)
  | reported {failure : Failure} {strict : Draft} {tolerant : Except Failure α × Draft}
      (location : String) (node : Tree.Node)
      (hdiagnostics :
        d.diagnostics ++ [failure.diagnostic location node] <+: tolerant.2.diagnostics) :
      Agree d (.error failure, strict) tolerant

lemma Agree.of_diagnostics_eq {d : Draft} (h : Agree d' s t) (hd : d'.diagnostics = d.diagnostics)
    : Agree d s t := by
  cases h with
  | returned himports hdiagnostics => exact .returned himports (hdiagnostics.trans hd)
  | raised hdiagnostics => exact .raised (hdiagnostics.trans hd)
  | reported location node hdiagnostics => exact .reported location node (hd ▸ hdiagnostics)

lemma agree_guarding {β : Type} {body : Build β} {next : Except Diagnostic β → Build α}
    (hbody : Agree d (body.runAt .strict c d.flat) (body.runAt .tolerant c d.openMember))
    (hnext : ∀ result d', d'.Importless →
      Agree d' ((next result).runAt .strict c d'.flat) ((next result).runAt .tolerant c d')) :
    Agree d ((Build.guarding location node body next).runAt .strict c d.flat)
      ((Build.guarding location node body next).runAt .tolerant c d) := by
  simp only [runAt]
  generalize body.runAt .strict c d.flat = s at hbody ⊢
  generalize body.runAt .tolerant c d.openMember = t at hbody ⊢
  cases hbody with
  | @returned value after himports hdiagnostics =>
    have h := hnext (.ok value) after.merge (stageable_importless.merge himports)
    rw [flat_merge] at h
    exact h.of_diagnostics_eq ((diagnostics_merge after).trans hdiagnostics)
  | @raised failure strict tolerant hdiagnostics =>
    -- The failure is the first diagnostic, and what follows cannot take it back.
    refine .reported location node ?_
    have hclose := diagnostics_closeMember (α := β) location node (.error failure) tolerant
    simp only [hdiagnostics] at hclose
    rw [← hclose]
    exact diagnostics_isPrefix_runAt _ _
  | reported location' node' hdiagnostics =>
    refine .reported location' node'
      ((hdiagnostics.trans ?_).trans (diagnostics_isPrefix_runAt _ _))
    exact diagnostics_isPrefix_closeMember location node _ _

lemma runAt_agree (x : Build α) (d : Draft) (h : d.Importless) :
    Agree d (x.runAt .strict c d.flat) (x.runAt .tolerant c d) := by
  induction x generalizing d with
  | done => exact .returned h rfl
  | stop => exact .raised rfl
  | asking _ ih => exact ih c d h
  | lowering x _ ih =>
    simp only [runAt, trail_flat h]
    cases x.runAt c d.trail with
    | mk outcome t =>
      cases outcome with
      | ok value =>
        have hnext := ih value (d.withTrail t) h
        rw [flat_withTrail h] at hnext
        exact hnext.of_diagnostics_eq rfl
      | error failure => exact .raised rfl
  | noting event _ ih => exact (ih (d.note event) h).of_diagnostics_eq rfl
  | adding group decls _ ih =>
    have hnext := ih (d.count group) (d.add group decls) (stageable_importless.add group h decls)
    rw [flat_add] at hnext
    simp only [runAt, count_flat]
    exact hnext.of_diagnostics_eq (diagnostics_add d group decls)
  | growing group place grow _ ih =>
    have hnext := ih (d.grow group place grow) (stageable_importless.grow group h place grow)
    rw [flat_grow] at hnext
    exact hnext.of_diagnostics_eq rfl
  | guarding _ _ _ _ ihBody ihNext =>
    have hbody := ihBody d.openMember (stageable_importless.openMember h)
    rw [flat_openMember] at hbody
    exact agree_guarding (hbody.of_diagnostics_eq rfl) ihNext

end Build

variable {failure : Failure} {diagnostics : List Diagnostic}

def FirstFiled (failures : Table Nat Refusal) (failure : Failure) : Prop :=
  ∃ refusal id first rest, failure = .refusal refusal
    ∧ failures.entries = (id, first) :: rest
    ∧ first.cause.kind = refusal.cause.kind ∧ first.message = refusal.message

def FirstReported (diagnostics : List Diagnostic) (failure : Failure) : Prop :=
  ∃ d rest, diagnostics = d :: rest ∧
    match failure with
    | .refusal r => d.message = r.message ∧ d.category = r.cause.category
    | .fault f => d.message = "unexpected error: " ++ f.display ∧ d.category = .internal

lemma firstReported_of_isPrefix (h : [failure.diagnostic location node] <+: diagnostics) :
    FirstReported diagnostics failure := by
  obtain ⟨rest, rfl⟩ := h
  refine ⟨failure.diagnostic location node, rest, rfl, ?_⟩
  cases failure with
  | refusal | fault => exact ⟨rfl, rfl⟩

lemma FirstFiled.entries_ne_nil (h : FirstFiled failures failure) : failures.entries ≠ [] := by
  obtain ⟨_, _, _, _, _, hentries, _⟩ := h
  simp [hentries]

lemma FirstReported.ne_nil (h : FirstReported diagnostics failure) : diagnostics ≠ [] := by
  obtain ⟨_, _, rfl, _⟩ := h
  simp

namespace Build

lemma outcome_declarations_tolerant :
    ∀ (nodes : List Node) (d : Draft), ((declarations nodes).runAt .tolerant c d).1 = .ok ()
  | [], _ => rfl
  | _ :: nodes, _ => outcome_declarations_tolerant nodes _

lemma outcome_wholeUnit_tolerant (d : Draft) : (wholeUnit.runAt .tolerant c d).1 = .ok () :=
  outcome_declarations_tolerant _ d

end Build

variable (unit : CompilationUnit)

lemma analyze_agree : Analysis.Agree (analyze .strict unit [] {}) (analyze .tolerant unit [] {}) :=
  Analysis.wholeUnit_matches.agree _ {} rfl

lemma wholeUnit_agree (c : Context) (log : List Event) :
    Build.Agree (ofUnit unit log) (wholeUnit.runAt .strict c (.ofUnit unit log))
      (wholeUnit.runAt .tolerant c (.ofUnit unit log)) := by
  have himports : (ofUnit unit log).Importless := by
    intro s hs
    cases hs
  exact runAt_agree wholeUnit (.ofUnit unit log) himports

lemma staged_wholeUnit (mode : Mode) (c : Context) (log : List Event) :
    (wholeUnit.runAt mode c (.ofUnit unit log)).2.staged = [] :=
  List.length_eq_zero_iff.1 (level_runAt mode wholeUnit (.ofUnit unit log))

section

variable {unit}

lemma convert_of_analyze_error (h : analyze mode unit [] {} = (.error failure, findings)) :
    convert mode unit
      = { outcome := .error failure, symbols := findings.symbols,
          draft := ofUnit unit findings.log } := by
  simp only [convert, h]

lemma convert_of_runAt_error (h : analyze mode unit [] {} = (.ok (), findings))
    (hrun : wholeUnit.runAt mode (Context.ofUnit unit findings.symbols)
      (ofUnit unit findings.log) = (.error failure, draft)) :
    convert mode unit
      = { outcome := .error failure, symbols := findings.symbols, draft := draft } := by
  simp only [convert, h, hrun]

lemma convert_of_runAt_ok (h : analyze mode unit [] {} = (.ok (), findings))
    (hrun : wholeUnit.runAt mode (Context.ofUnit unit findings.symbols)
      (ofUnit unit findings.log) = (.ok (), draft)) :
    convert mode unit
      = { outcome := .ok (), symbols := findings.symbols,
          draft := draft.noteOutcome unit.path } := by
  simp only [convert, h, hrun]

lemma exists_runAt_tolerant (h : analyze .tolerant unit [] {} = (.ok (), findings)) :
    ∃ draft, wholeUnit.runAt .tolerant (Context.ofUnit unit findings.symbols)
        (ofUnit unit findings.log) = (.ok (), draft)
      ∧ draft.staged = []
      ∧ convert .tolerant unit
        = { outcome := .ok (), symbols := findings.symbols,
            draft := draft.noteOutcome unit.path } := by
  obtain ⟨draft, hrun⟩ : ∃ draft, wholeUnit.runAt .tolerant
      (Context.ofUnit unit findings.symbols) (ofUnit unit findings.log) = (.ok (), draft) :=
    ⟨_, Prod.ext (outcome_wholeUnit_tolerant _) rfl⟩
  have hstaged := staged_wholeUnit unit .tolerant (Context.ofUnit unit findings.symbols)
    findings.log
  rw [hrun] at hstaged
  exact ⟨draft, hrun, hstaged, convert_of_runAt_ok h hrun⟩

lemma symbols_convert (mode : Mode) (unit : CompilationUnit) :
    (convert mode unit).symbols = (analyze mode unit [] {}).2.symbols := by
  rcases h : analyze mode unit [] {} with ⟨_ | u, findings⟩
  · rw [convert_of_analyze_error h]
  · rcases hrun : wholeUnit.runAt mode (Context.ofUnit unit findings.symbols)
      (ofUnit unit findings.log) with ⟨outcome, draft⟩
    cases outcome with
    | error => rw [convert_of_runAt_error h hrun]
    | ok => rw [convert_of_runAt_ok h hrun]

end

/-- The conversion returns, with nothing filed and nothing reported. -/
def Conversion.Clean (r : Conversion) : Prop :=
  r.outcome = .ok () ∧ r.symbols.failures.entries = [] ∧ r.draft.diagnostics = []

/-- The failure is the first that the tolerant conversion raises, files or reports. -/
def MeetsFirst (failure : Failure) : Prop :=
  (analyze .tolerant unit [] {}).1 = .error failure
    ∨ FirstFiled (convert .tolerant unit).symbols.failures failure
    ∨ ((convert .tolerant unit).symbols.failures.entries = []
        ∧ FirstReported (convert .tolerant unit).draft.diagnostics failure)

/-- Both modes do the same, or the strict one ends with the first failure of the tolerant one. -/
inductive Comparison : Prop
  | clean (hsame : convert .strict unit = convert .tolerant unit)
      (hclean : (convert .tolerant unit).Clean)
  | failed (failure : Failure) (hstrict : (convert .strict unit).outcome = .error failure)
      (hclean : ¬ (convert .tolerant unit).Clean) (hfirst : MeetsFirst unit failure)

variable {unit} in
lemma comparison_of_analyze_ok {findings : Findings} (hfiled : findings.filed = [])
    (hstrict : analyze .strict unit [] {} = (.ok (), findings))
    (htolerant : analyze .tolerant unit [] {} = (.ok (), findings)) : Comparison unit := by
  have hagree := wholeUnit_agree unit (Context.ofUnit unit findings.symbols) findings.log
  obtain ⟨tDraft, ht, hstaged, hT⟩ := exists_runAt_tolerant htolerant
  rcases hs : wholeUnit.runAt .strict (Context.ofUnit unit findings.symbols)
    (ofUnit unit findings.log) with ⟨sOutcome, sDraft⟩
  rw [hs, ht] at hagree
  cases hagree with
  | returned _ hdiagnostics =>
    have hflat : tDraft.flat = tDraft := by
      obtain ⟨file, staged, diagnostics, scopes, log⟩ := tDraft
      obtain rfl : staged = [] := hstaged
      rfl
    have hS := convert_of_runAt_ok hstrict hs
    rw [hflat] at hS
    refine .clean (hS.trans hT.symm) ?_
    rw [hT]
    exact ⟨rfl, hfiled, hdiagnostics⟩
  | @reported failure _ _ location node hdiagnostics =>
    have hS := convert_of_runAt_error hstrict hs
    have hreported : FirstReported (convert .tolerant unit).draft.diagnostics failure := by
      rw [hT]
      exact firstReported_of_isPrefix hdiagnostics
    have hfailures : (convert .tolerant unit).symbols.failures.entries = [] := by
      rw [hT]
      exact hfiled
    exact .failed failure (by rw [hS]) (fun h => hreported.ne_nil h.2.2)
      (.inr (.inr ⟨hfailures, hreported⟩))

lemma comparison : Comparison unit := by
  have hagree := analyze_agree unit
  rcases hs : analyze .strict unit [] {} with ⟨sOutcome, sFindings⟩
  rcases ht : analyze .tolerant unit [] {} with ⟨tOutcome, tFindings⟩
  rw [hs, ht] at hagree
  cases hagree with
  | same hfiled =>
    cases sOutcome with
    | ok => exact comparison_of_analyze_ok hfiled hs ht
    | error failure =>
      have houtcome : (convert .tolerant unit).outcome = .error failure := by
        rw [convert_of_analyze_error ht]
      refine .failed failure (by rw [convert_of_analyze_error hs]) ?_ (.inl (by rw [ht]))
      rintro ⟨hok, -⟩
      rw [houtcome] at hok
      cases hok
  | @filed refusal _ _ node first hcause hfiled =>
    have hfirst : FirstFiled (convert .tolerant unit).symbols.failures (.refusal refusal) := by
      obtain ⟨rest, hrest⟩ := hfiled
      refine ⟨refusal, node.id, first, rest, rfl, ?_, ?_, ?_⟩
      · rw [symbols_convert, ht]
        exact hrest.symm
      · rw [hcause]
      · rw [Refusal.message, hcause, Refusal.message]
    exact .failed (.refusal refusal) (by rw [convert_of_analyze_error hs])
      (fun h => hfirst.entries_ne_nil h.2.1) (.inr (.inl hfirst))

/-- A strict conversion returns exactly when a tolerant one returns without a filed refusal and
without a diagnostic, and then they leave the same symbols and the same draft.  The failure that
ends a strict conversion is the one that ends the tolerant analysis, or the first to be filed, or
the first to be reported. -/
theorem convert_strict_tolerant :
    ((convert .strict unit).outcome = .ok () ↔
      (convert .tolerant unit).outcome = .ok ()
        ∧ (convert .tolerant unit).symbols.failures.entries = []
        ∧ (convert .tolerant unit).draft.diagnostics = [])
    ∧ ((convert .strict unit).outcome = .ok () →
        (convert .strict unit).symbols = (convert .tolerant unit).symbols
          ∧ (convert .strict unit).draft = (convert .tolerant unit).draft)
    ∧ ∀ failure, (convert .strict unit).outcome = .error failure →
        (analyze .tolerant unit [] {}).1 = .error failure
          ∨ FirstFiled (convert .tolerant unit).symbols.failures failure
          ∨ ((convert .tolerant unit).symbols.failures.entries = []
              ∧ FirstReported (convert .tolerant unit).draft.diagnostics failure) := by
  cases comparison unit with
  | clean hsame hclean =>
    rw [hsame]
    refine ⟨⟨fun _ => hclean, fun h => h.1⟩, fun _ => ⟨rfl, rfl⟩, ?_⟩
    intro failure hfailure
    rw [hclean.1] at hfailure
    cases hfailure
  | failed _ hstrict hclean hfirst =>
    have hne : (convert .strict unit).outcome ≠ .ok () := by
      rw [hstrict]
      intro h
      cases h
    refine ⟨⟨fun h => absurd h hne, fun h => absurd h hclean⟩, fun h => absurd h hne, ?_⟩
    intro e he
    rw [hstrict] at he
    cases he
    exact hfirst

end JavaToGo
