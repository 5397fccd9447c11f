import JavaToGo.Lowering.Switch
import Mathlib.Data.List.Basic

/-!
# Control flow through switches

How control passes through a Java switch and through a Go switch, when statements
are black boxes.
-/

namespace JavaToGo.Switching

open List

section

/-- How a statement ends: another reason than a `break` without a label is handed on. -/
inductive Completion (J : Type) where
  | normal
  /-- By a `break` without a label. -/
  | breaks
  | jumps (reason : J)
deriving DecidableEq, Repr

/-- What was executed, in which state it ended and how. -/
structure Run (α S J : Type) where
  executed : List α
  state : S
  completion : Completion J

variable {α β S J : Type}

namespace Run

def nothing (s : S) : Run α S J :=
  ⟨[], s, .normal⟩

/-- Goes on where the first run has ended normally. -/
def andThen (r : Run α S J) (next : S → Run α S J) : Run α S J :=
  match r.completion with
  | .normal => { next r.state with executed := r.executed ++ (next r.state).executed }
  | _ => r

/-- A run inside a switch, as the switch completes: a `break` only leaves it. -/
def leave (r : Run α S J) : Run α S J :=
  { r with completion := match r.completion with
      | .breaks => .normal
      | completion => completion }

def seen (isBreak : α → Bool) (r : Run α S J) : Run α S J :=
  { r.leave with executed := r.executed.filter fun a => !isBreak a }

lemma andThen_of_normal {r : Run α S J} (h : r.completion = .normal) (next : S → Run α S J) :
    r.andThen next = { next r.state with executed := r.executed ++ (next r.state).executed } := by
  rw [andThen, h]

lemma andThen_of_ne {r : Run α S J} (h : r.completion ≠ .normal) (next : S → Run α S J) :
    r.andThen next = r := by
  unfold andThen
  split
  · contradiction
  · rfl

lemma andThen_assoc (r : Run α S J) (f g : S → Run α S J) :
    (r.andThen f).andThen g = r.andThen fun s => (f s).andThen g := by
  by_cases h : r.completion = .normal
  · simp only [andThen_of_normal h]
    by_cases hf : (f r.state).completion = .normal
    · simp [andThen, hf]
    · rw [andThen_of_ne hf]
      refine andThen_of_ne ?_ g
      exact hf
  · rw [andThen_of_ne h, andThen_of_ne h, andThen_of_ne h]

lemma andThen_nothing (r : Run α S J) : r.andThen nothing = r := by
  by_cases h : r.completion = .normal
  · rw [andThen_of_normal h]
    obtain ⟨executed, state, completion⟩ := r
    cases h
    simp [nothing]
  · exact andThen_of_ne h _

variable {isBreak : α → Bool}

lemma seen_leave (r : Run α S J) : r.leave.seen isBreak = r.seen isBreak := by
  obtain ⟨executed, state, completion⟩ := r
  cases completion <;> rfl

lemma seen_andThen_congr (r : Run α S J) {f g : S → Run α S J}
    (h : ∀ s, (f s).seen isBreak = (g s).seen isBreak) :
    (r.andThen f).seen isBreak = (r.andThen g).seen isBreak := by
  by_cases hr : r.completion = .normal
  · rw [andThen_of_normal hr, andThen_of_normal hr]
    have hexecuted := congrArg Run.executed (h r.state)
    have hstate := congrArg Run.state (h r.state)
    have hcompletion := congrArg Run.completion (h r.state)
    simp only [seen, leave] at hexecuted hstate hcompletion ⊢
    rw [filter_append, filter_append, hexecuted, hstate, hcompletion]
  · rw [andThen_of_ne hr, andThen_of_ne hr]

end Run

variable (run : α → S → S × Completion J)

def runOne (a : α) (s : S) : Run α S J :=
  ⟨[a], (run a s).1, (run a s).2⟩

/-- Executes statements one after the other, as long as they complete normally. -/
def runAll : List α → S → Run α S J
  | [], s => .nothing s
  | a :: as, s => (runOne run a s).andThen (runAll as)

lemma runAll_append (as bs : List α) (s : S) :
    runAll run (as ++ bs) s = (runAll run as s).andThen (runAll run bs) := by
  induction as generalizing s with
  | nil =>
    rw [runAll, Run.andThen_of_normal rfl]
    simp [Run.nothing]
  | cons a as ih =>
    rw [cons_append, runAll, runAll, Run.andThen_assoc]
    congr 1
    funext s'
    exact ih s'

lemma runAll_singleton (a : α) (s : S) : runAll run [a] s = runOne run a s :=
  Run.andThen_nothing _

lemma runAll_append_singleton_ne (ha : ∀ s, (run a s).2 ≠ .normal) (as : List α) (s : S) :
    (runAll run (as ++ [a]) s).completion ≠ .normal := by
  rw [runAll_append]
  by_cases h : (runAll run as s).completion = .normal
  · rw [Run.andThen_of_normal h, runAll_singleton]
    exact ha _
  · rw [Run.andThen_of_ne h]
    exact h

lemma seen_runAll_append_break {isBreak : α → Bool} (ha : isBreak a)
    (hbreak : ∀ s, run a s = (s, .breaks)) (as : List α) (s : S) :
    (runAll run (as ++ [a]) s).seen isBreak = (runAll run as s).seen isBreak := by
  rw [runAll_append]
  by_cases h : (runAll run as s).completion = .normal
  · rw [Run.andThen_of_normal h, runAll_singleton]
    simp [Run.seen, Run.leave, runOne, hbreak, ha, h]
  · rw [Run.andThen_of_ne h]

end

section

variable {V α S J : Type}

/-- An arm of a Java switch: a group of statements or a rule. -/
structure Arm (V α : Type) where
  values : List V
  isDefault : Bool
  body : List α

/-- An arm of a Go switch, which goes on into the next when it falls through. -/
structure Clause (V α : Type) extends Arm V α where
  fallsThrough : Bool

inductive Form where
  | groups | rules
deriving DecidableEq, Repr

/-- Control enters at the first branch with the value, else at the default. -/
def entered {β : Type} (hasValue isDefault : β → Bool) (branches : List β) : List β :=
  if branches.any hasValue then branches.dropWhile fun b => !hasValue b
  else branches.dropWhile fun b => !isDefault b

/-- From a group control runs on through the groups that follow; a rule stands alone. -/
def flow : Form → List (Arm V α) → List α
  | _, [] => []
  | .groups, arm :: arms => arm.body ++ flow .groups arms
  | .rules, arm :: _ => arm.body

variable [DecidableEq V] (run : α → S → S × Completion J)

def Arm.has (v : V) (arm : Arm V α) : Bool :=
  decide (v ∈ arm.values)

def javaSwitch (form : Form) (arms : List (Arm V α)) (v : V) (s : S) : Run α S J :=
  (runAll run (flow form (entered (Arm.has v) Arm.isDefault arms)) s).leave

def runClauses : List (Clause V α) → S → Run α S J
  | [], s => .nothing s
  | clause :: clauses, s =>
    if clause.fallsThrough then (runAll run clause.body s).andThen (runClauses clauses)
    else runAll run clause.body s

def enteredClauses (v : V) : List (Clause V α) → List (Clause V α) :=
  entered (fun c => c.has v) fun c => c.isDefault

def goSwitch (clauses : List (Clause V α)) (v : V) (s : S) : Run α S J :=
  (runClauses run (enteredClauses v clauses) s).leave

end

section

variable {V α S J : Type} (form : Form) (jumps isBreak : α → Bool)

def withoutBreak (body : List α) : List α :=
  if body.getLast?.any isBreak then body.dropLast else body

def clauseOf (values : List V) (isDefault : Bool) (body : List α) (isLast : Bool) : Clause V α where
  values := if isDefault then [] else values
  isDefault := isDefault
  body := if form = .groups then withoutBreak isBreak body else body
  fallsThrough := form = .groups && !body.getLast?.any jumps && !isLast

def handsOn (arm : Arm V α) (arms : List (Arm V α)) : Bool :=
  form = .groups && arm.body.isEmpty && !arms.isEmpty

/-- The clauses of a switch: groups without statements hand their labels on. -/
def clausesOf (waiting : List V) (waitingDefault : Bool) : List (Arm V α) → List (Clause V α)
  | [] => []
  | arm :: arms =>
    if handsOn form arm arms then
      clausesOf (waiting ++ arm.values) (waitingDefault || arm.isDefault) arms
    else
      clauseOf form jumps isBreak (waiting ++ arm.values) (waitingDefault || arm.isDefault) arm.body
        arms.isEmpty :: clausesOf [] false arms

/-- How jumps behave: none completes normally, and a `break` does nothing else. -/
structure Obeyed (run : α → S → S × Completion J) : Prop where
  jumps_of_isBreak : ∀ a, isBreak a → jumps a
  ne_normal : ∀ a, jumps a → ∀ s, (run a s).2 ≠ .normal
  breaks : ∀ a, isBreak a → ∀ s, run a s = (s, .breaks)

variable {form jumps isBreak} {run : α → S → S × Completion J}

lemma ne_nil_of_handsOn (h : handsOn form arm arms) : arms ≠ [] := by
  simp only [handsOn, Bool.and_eq_true, Bool.not_eq_true', isEmpty_eq_false_iff] at h
  exact h.2

lemma flow_of_handsOn (h : handsOn form arm arms) : flow form (arm :: arms) = flow form arms := by
  cases form with
  | rules => cases h
  | groups =>
    have hempty : arm.body = [] := by
      simp only [handsOn, Bool.and_eq_true, List.isEmpty_iff] at h
      exact h.1.2
    rw [flow, hempty, nil_append]

section

variable (hrun : Obeyed jumps isBreak run)
include hrun

/-- A `break` at the end of a body is not seen. -/
lemma seen_runAll_withoutBreak (body : List α) (s : S) :
    (runAll run (withoutBreak isBreak body) s).seen isBreak = (runAll run body s).seen isBreak := by
  rcases eq_nil_or_concat body with rfl | ⟨init, a, rfl⟩
  · rfl
  · rw [concat_eq_append, withoutBreak]
    by_cases ha : isBreak a
    · simp only [getLast?_append_cons, getLast?_singleton, Option.any_some, ha,
        dropLast_concat]
      exact (seen_runAll_append_break run ha (hrun.breaks a ha) init s).symm
    · simp [ha]

lemma completion_runAll_ne {body : List α}
    (hjump : body.getLast?.any jumps) (s : S) : (runAll run body s).completion ≠ .normal := by
  rcases eq_nil_or_concat body with rfl | ⟨init, a, rfl⟩
  · cases hjump
  · rw [concat_eq_append] at hjump ⊢
    have ha : jumps a := by simpa using hjump
    exact runAll_append_singleton_ne run (hrun.ne_normal a ha) init s

lemma withoutBreak_of_not_jump {body : List α}
    (hjump : ¬ body.getLast?.any jumps) : withoutBreak isBreak body = body := by
  refine if_neg fun hbreak => hjump ?_
  cases hlast : body.getLast? with
  | none =>
    rw [hlast] at hbreak
    cases hbreak
  | some a =>
    rw [hlast] at hbreak
    exact hrun.jumps_of_isBreak a hbreak

lemma seen_runClauses_clauseOf (values : List V)
    (isDefault : Bool) (arm : Arm V α) (hrest : ∀ s, (runClauses run rest s).seen isBreak
      = (runAll run (flow form arms) s).seen isBreak) (s : S) :
    (runClauses run (clauseOf form jumps isBreak values isDefault arm.body arms.isEmpty :: rest)
      s).seen isBreak = (runAll run (flow form (arm :: arms)) s).seen isBreak := by
  cases form with
  | rules => rfl
  | groups =>
    rw [flow, runAll_append]
    by_cases hjump : arm.body.getLast?.any jumps
    · -- The jump is the end of the clause, and nothing behind it is executed.
      rw [Run.andThen_of_ne (completion_runAll_ne hrun hjump s)]
      simp only [clauseOf, hjump]
      exact seen_runAll_withoutBreak hrun arm.body s
    · simp only [runClauses, clauseOf, withoutBreak_of_not_jump hrun hjump]
      cases arms with
      | nil => simp [flow, runAll, Run.andThen_nothing]
      | cons next arms =>
        simp only [hjump]
        exact Run.seen_andThen_congr _ hrest

lemma seen_runClauses (waiting : List V)
    (waitingDefault : Bool) (arms : List (Arm V α)) (s : S) :
    (runClauses run (clausesOf form jumps isBreak waiting waitingDefault arms) s).seen isBreak
      = (runAll run (flow form arms) s).seen isBreak := by
  induction arms generalizing waiting waitingDefault s with
  | nil => cases form <;> rfl
  | cons arm arms ih =>
    rw [clausesOf]
    split
    next hon => rw [flow_of_handsOn hon, ih]
    next => exact seen_runClauses_clauseOf hrun _ _ arm (fun s' => ih [] false s') s

end

end

variable {waitingDefault : Bool}

section

variable {V α S J : Type} {jumps isBreak : α → Bool} {arms : List (Arm V α)} {clause : Clause V α}
  {run : α → S → S × Completion J}

lemma toNat_or_le (a b : Bool) : (a || b).toNat ≤ a.toNat + if b then 1 else 0 := by
  cases a <;> cases b <;> decide

lemma mem_of_mem_values
    (hclause : clause ∈ clausesOf form jumps isBreak waiting waitingDefault arms)
    (hv : v ∈ clause.values) : v ∈ waiting ++ arms.flatMap Arm.values := by
  induction arms generalizing waiting waitingDefault with
  | nil => cases hclause
  | cons arm arms ih =>
    rw [flatMap_cons, ← append_assoc]
    rw [clausesOf] at hclause
    split at hclause
    next => exact ih hclause
    next =>
      rcases mem_cons.1 hclause with rfl | hclause
      · simp only [clauseOf] at hv
        split at hv
        next => cases hv
        next => exact mem_append_left _ hv
      · exact mem_append_right _ (ih hclause)

lemma exists_of_not_default (hdefault : ∀ arm ∈ arms, arm.isDefault = false) (hne : arms ≠ [])
    (hv : v ∈ waiting ++ arms.flatMap Arm.values) :
    ∃ clause ∈ clausesOf form jumps isBreak waiting false arms, v ∈ clause.values := by
  induction arms generalizing waiting with
  | nil => contradiction
  | cons arm arms ih =>
    have harm := hdefault arm mem_cons_self
    have harms : ∀ arm ∈ arms, arm.isDefault = false :=
      fun arm h => hdefault arm (mem_cons_of_mem _ h)
    rw [flatMap_cons, ← append_assoc] at hv
    rw [clausesOf, harm]
    split
    next hon => exact ih harms (ne_nil_of_handsOn hon) hv
    next =>
      rcases mem_append.1 hv with hv | hv
      · exact ⟨_, mem_cons_self, by simpa [clauseOf] using hv⟩
      · have hne : arms ≠ [] := by
          rintro rfl
          cases hv
        obtain ⟨clause, hclause, hmem⟩ := ih harms hne (mem_append_right [] hv)
        exact ⟨clause, mem_cons_of_mem _ hclause, hmem⟩

lemma seen_runClauses_default (hrun : Obeyed jumps isBreak run) (waiting : List V)
    (waitingDefault : Bool) (arms : List (Arm V α)) (s : S) :
    (runClauses run ((clausesOf form jumps isBreak waiting waitingDefault arms).dropWhile
        fun c => !c.isDefault) s).seen isBreak
      = (runAll run (flow form (if waitingDefault then arms
          else arms.dropWhile fun arm => !arm.isDefault)) s).seen isBreak := by
  induction arms generalizing waiting waitingDefault with
  | nil => cases waitingDefault <;> cases form <;> rfl
  | cons arm arms ih =>
    have hstart : (if waitingDefault then arm :: arms
          else (arm :: arms).dropWhile fun arm => !arm.isDefault)
        = if waitingDefault || arm.isDefault then arm :: arms
          else arms.dropWhile fun arm => !arm.isDefault := by
      cases waitingDefault <;> cases h : arm.isDefault <;> simp [h]
    rw [hstart]
    by_cases hon : handsOn form arm arms
    · rw [clausesOf, if_pos hon, ih]
      split
      · rw [flow_of_handsOn hon]
      · rfl
    · cases hdefault : waitingDefault || arm.isDefault with
      | false =>
        rw [clausesOf, if_neg hon, hdefault]
        exact ih [] false
      | true =>
        -- The clause of the arm is the default clause, so nothing is passed over.
        have hclauses : (clausesOf form jumps isBreak waiting waitingDefault
            (arm :: arms)).dropWhile (fun c => !c.isDefault)
            = clausesOf form jumps isBreak waiting waitingDefault (arm :: arms) := by
          rw [clausesOf, if_neg hon, hdefault]
          rfl
        rw [hclauses]
        exact seen_runClauses hrun waiting waitingDefault (arm :: arms) s

variable [DecidableEq V]

lemma enteredClauses_cons (hv : v ∉ clause.values)
    (h : clause.isDefault → ∃ c ∈ clauses, v ∈ c.values) :
    enteredClauses v (clause :: clauses) = enteredClauses v clauses := by
  have hhas : clause.has v = false := by simpa [Arm.has] using hv
  unfold enteredClauses entered
  by_cases hany : clauses.any fun c => c.has v
  · rw [if_pos hany, if_pos (by simp [hany]), dropWhile_cons_of_pos (by simp [hhas])]
  · have hdefault : clause.isDefault = false := by
      refine Bool.eq_false_iff.2 fun hdefault => hany ?_
      obtain ⟨c, hc, hmem⟩ := h hdefault
      exact any_eq_true.2 ⟨c, hc, by simpa [Arm.has] using hmem⟩
    rw [if_neg hany, if_neg (by simpa [hhas] using hany),
      dropWhile_cons_of_pos (by simp [hdefault])]

lemma enteredClauses_of_here
    (h : v ∈ clause.values ∨ (clause.isDefault ∧ ∀ c ∈ clauses, v ∉ c.values)) :
    enteredClauses v (clause :: clauses) = clause :: clauses := by
  unfold enteredClauses entered
  by_cases hv : v ∈ clause.values
  · have hhas : clause.has v := by simpa [Arm.has] using hv
    rw [if_pos (by simp [hhas]), dropWhile_cons_of_neg (by simp [hhas])]
  · obtain ⟨hdefault, hnone⟩ := h.resolve_left hv
    have hany : ¬ (clause :: clauses).any fun c => c.has v := by
      rw [any_eq_true]
      rintro ⟨c, hc, hhas⟩
      have hmem : v ∈ c.values := by simpa [Arm.has] using hhas
      rcases mem_cons.1 hc with rfl | hc
      · exact hv hmem
      · exact hnone c hc hmem
    rw [if_neg hany, dropWhile_cons_of_neg (by simp [hdefault])]

lemma seen_runClauses_value (hrun : Obeyed jumps isBreak run)
    (hnodup : (waiting ++ arms.flatMap Arm.values).Nodup)
    (hdefaults : waitingDefault.toNat + arms.countP Arm.isDefault ≤ 1)
    (hv : v ∈ waiting ++ arms.flatMap Arm.values) (s : S) :
    (runClauses run (enteredClauses v
        (clausesOf form jumps isBreak waiting waitingDefault arms)) s).seen isBreak
      = (runAll run (flow form (if v ∈ waiting then arms
          else arms.dropWhile fun arm => !arm.has v)) s).seen isBreak := by
  induction arms generalizing waiting waitingDefault with
  | nil =>
    simp only [dropWhile_nil, ite_self]
    exact seen_runClauses hrun waiting waitingDefault [] s
  | cons arm arms ih =>
    have hstart : (if v ∈ waiting then arm :: arms
          else (arm :: arms).dropWhile fun arm => !arm.has v)
        = if v ∈ waiting ++ arm.values then arm :: arms
          else arms.dropWhile fun arm => !arm.has v := by
      by_cases hw : v ∈ waiting <;> by_cases ha : v ∈ arm.values <;> simp [ha, Arm.has]
    rw [hstart]
    rw [flatMap_cons, ← append_assoc] at hnodup hv
    rw [countP_cons] at hdefaults
    have hor := toNat_or_le waitingDefault arm.isDefault
    by_cases hon : handsOn form arm arms
    · rw [clausesOf, if_pos hon, ih hnodup (by omega) hv]
      split
      · rw [flow_of_handsOn hon]
      · rfl
    rw [clausesOf, if_neg hon]
    obtain ⟨-, hrest, hdisjoint⟩ := nodup_append.1 hnodup
    by_cases hhere : v ∈ waiting ++ arm.values
    · -- A default clause drops its values, but then no other clause has the value.
      rw [if_pos hhere, enteredClauses_of_here]
      · exact seen_runClauses_clauseOf hrun _ _ arm
          (fun s' => seen_runClauses hrun [] false arms s') s
      · cases hdefault : waitingDefault || arm.isDefault with
        | false => exact .inl (by simpa [clauseOf] using hhere)
        | true =>
          refine .inr ⟨rfl, fun c hc hmem => ?_⟩
          exact hdisjoint v hhere v (mem_of_mem_values hc hmem) rfl
    · have hlater : v ∈ arms.flatMap Arm.values := (mem_append.1 hv).resolve_left hhere
      rw [if_neg hhere, enteredClauses_cons]
      · rw [ih hrest (by simp only [Bool.toNat_false]; omega) hlater, if_neg not_mem_nil]
      · simp only [clauseOf]
        split
        · exact not_mem_nil
        · exact hhere
      · -- There is only one default, so the value is not dropped later.
        intro hdefault
        have hone : (waitingDefault || arm.isDefault).toNat = 1 := congrArg Bool.toNat hdefault
        have hzero : arms.countP Arm.isDefault = 0 := by omega
        refine exists_of_not_default ?_ ?_ hlater
        · intro arm harm
          exact Bool.eq_false_iff.2 (countP_eq_zero.1 hzero arm harm)
        · rintro rfl
          cases hlater

lemma seen_goSwitch (form : Form) (hrun : Obeyed jumps isBreak run)
    (hnodup : (arms.flatMap Arm.values).Nodup) (hdefaults : arms.countP Arm.isDefault ≤ 1)
    (v : V) (s : S) :
    (goSwitch run (clausesOf form jumps isBreak [] false arms) v s).seen isBreak
      = (javaSwitch run form arms v s).seen isBreak := by
  rw [goSwitch, javaSwitch, Run.seen_leave, Run.seen_leave]
  by_cases hv : v ∈ arms.flatMap Arm.values
  · obtain ⟨arm, harm, hmem⟩ := mem_flatMap.1 hv
    have hany : arms.any (Arm.has v) := any_eq_true.2 ⟨arm, harm, decide_eq_true hmem⟩
    have hnodup' : (([] : List V) ++ arms.flatMap Arm.values).Nodup := hnodup
    rw [seen_runClauses_value hrun hnodup' (by simpa using hdefaults) hv,
      if_neg not_mem_nil, entered, if_pos hany]
  · have hany : ¬ arms.any (Arm.has v) := by
      rw [any_eq_true]
      rintro ⟨arm, harm, hhas⟩
      exact hv (mem_flatMap.2 ⟨arm, harm, of_decide_eq_true hhas⟩)
    have hclauses : ¬ (clausesOf form jumps isBreak [] false arms).any fun c => c.has v := by
      rw [any_eq_true]
      rintro ⟨c, hc, hhas⟩
      exact hv (mem_of_mem_values hc (of_decide_eq_true hhas))
    rw [enteredClauses, entered, if_neg hclauses, seen_runClauses_default hrun, entered,
      if_neg hany]
    rfl

end

variable {V α : Type} {jumps isBreak : α → Bool}

lemma clausesOf_ne_nil (hne : arms ≠ []) :
    clausesOf form jumps isBreak waiting waitingDefault arms ≠ [] := by
  induction arms generalizing waiting waitingDefault with
  | nil => contradiction
  | cons arm arms ih =>
    rw [clausesOf]
    split
    next hon => exact ih (ne_nil_of_handsOn hon)
    next => exact cons_ne_nil _ _

lemma fallsThrough_getLast?
    (h : (clausesOf form jumps isBreak waiting waitingDefault arms).getLast? = some clause) :
    clause.fallsThrough = false := by
  induction arms generalizing waiting waitingDefault with
  | nil => cases h
  | cons arm arms ih =>
    rw [clausesOf] at h
    split at h
    next => exact ih h
    next =>
      cases arms with
      | nil =>
        rw [clausesOf] at h
        obtain rfl := Option.some.inj h
        simp [clauseOf]
      | cons next arms =>
        rw [getLast?_cons_of_ne_nil (clausesOf_ne_nil (cons_ne_nil _ _))] at h
        exact ih h

lemma countP_isDefault_le (waiting : List V) (waitingDefault : Bool) (arms : List (Arm V α)) :
    (clausesOf form jumps isBreak waiting waitingDefault arms).countP (fun c => c.isDefault)
      ≤ waitingDefault.toNat + arms.countP Arm.isDefault := by
  induction arms generalizing waiting waitingDefault with
  | nil => exact Nat.zero_le _
  | cons arm arms ih =>
    have hor := toNat_or_le waitingDefault arm.isDefault
    rw [clausesOf, countP_cons]
    split
    next =>
      have := ih (waiting ++ arm.values) (waitingDefault || arm.isDefault)
      omega
    next =>
      have hrest := ih [] false
      rw [Bool.toNat_false] at hrest
      by_cases hdefault : waitingDefault || arm.isDefault
      · rw [hdefault, Bool.toNat_true] at hor
        rw [countP_cons_of_pos]
        · omega
        · exact hdefault
      · rw [countP_cons_of_neg]
        · omega
        · exact hdefault

end JavaToGo.Switching
