import JavaToGo.Proofs.Conversion.Failures

/-!
# Failures are recorded twice

A failure is recorded past all staged files, so throwing one away loses no
record, and merging one repeats none.
-/

namespace JavaToGo

open List Build

section

variable (g : Group) (place : Place) (f : Decl → Decl) (file : SourceFile)

lemma failed_growIn (staged : List SourceFile) :
    (growIn g place f file staged).1.failed = file.failed := by
  induction staged with
  | nil => simp [growIn]
  | cons top below ih =>
    by_cases h : countIn g file below ≤ place
    · simp [growIn, h]
    · simp [growIn, h, ih]

end

lemma stageable_unfailed : Stageable fun s => s.failed = [] where
  empty _ := rfl
  filled _ _ h := by simpa using h
  merged h htop := by simp [Code.SourceFile.merge, h, htop]

namespace Draft

/-- No staged file holds a failed member. -/
def StagesNoFailure (d : Draft) : Prop :=
  ∀ s ∈ d.staged, s.failed = []

variable {d : Draft} (h : d.StagesNoFailure)

@[simp] lemma failed_add (d : Draft) (g : Group) (decls : List Decl) :
    (d.add g decls).file.failed = d.file.failed := by
  unfold add modifySink
  cases d.staged <;> simp

@[simp] lemma failed_grow (d : Draft) (g : Group) (place : Place) (f : Decl → Decl) :
    (d.grow g place f).file.failed = d.file.failed :=
  failed_growIn g place f d.file d.staged

include h

lemma StagesNoFailure.discard : d.discard.StagesNoFailure :=
  fun s hs => h s (mem_of_mem_drop hs)

lemma StagesNoFailure.failed_merge : d.merge.file.failed = d.file.failed := by
  obtain ⟨file, staged, diagnostics, scopes, log⟩ := d
  cases staged with
  | nil => rfl
  | cons top below =>
    obtain ⟨htop, -⟩ := forall_mem_cons.1 h
    cases below with
    | nil => simp [Draft.merge, modifySink, Code.SourceFile.merge, htop]
    | cons next below => rfl

lemma StagesNoFailure.closeMember {α : Type} (location : String) (node : Node)
    (outcome : Except Failure α) :
    (d.closeMember location node outcome).2.StagesNoFailure := by
  cases outcome with
  | ok => exact stageable_unfailed.merge h
  | error => exact h.discard

lemma StagesNoFailure.failed_closeMember {α : Type} (location : String) (node : Node)
    (outcome : Except Failure α) :
    (d.closeMember location node outcome).2.file.failed
      = match outcome with
        | .ok _ => d.file.failed
        | .error failure => d.file.failed ++ [.failed (failure.failedMember location node)] := by
  cases outcome with
  | ok => exact h.failed_merge
  | error => rfl

end Draft

namespace Call

variable (c : Context) (call : Call)

/-- The failed member that a call leaves in the file. -/
def failedMember? : Option Decl :=
  match (call.run c).1 with
  | .ok _ => none
  | .error failure => some (.failed (failure.failedMember call.location call.node))

/-- The calls that are made inside a call. -/
def inner : List Call :=
  call.body.2.calls c call.before.openMember

end Call

namespace Build

variable {α : Type}

lemma failed_runAt_eq (x : Build α) {d : Draft} (hd : d.StagesNoFailure) :
    (x.runAt .tolerant c d).2.file.failed
        = d.file.failed ++ (x.calls c d).filterMap (Call.failedMember? c)
      ∧ (x.runAt .tolerant c d).2.StagesNoFailure := by
  induction x generalizing d with
  | done | stop => simp [runAt, calls, hd]
  | asking _ ih => exact ih c hd
  | lowering x _ ih =>
    rw [runAt, calls]
    have htrail : ∀ t, (d.withTrail t).StagesNoFailure := fun _ => hd
    rcases x.runAt c d.trail with ⟨_ | value, t⟩
    · exact ⟨by simp [Draft.withTrail], htrail t⟩
    · exact ih value (htrail t)
  | noting event _ ih =>
    have hnoted : (d.note event).StagesNoFailure := hd
    exact ih hnoted
  | adding group decls _ ih =>
    have hrun := ih (d.count group) (stageable_unfailed.add group hd decls)
    rwa [Draft.failed_add] at hrun
  | growing group place grow _ ih =>
    have hrun := ih (stageable_unfailed.grow group hd place grow)
    rwa [Draft.failed_grow] at hrun
  | guarding location node body _ ihBody ihNext =>
    obtain ⟨hfailed, hstages⟩ := ihBody (stageable_unfailed.openMember hd)
    have hclosed := hstages.closeMember location node (body.runAt .tolerant c d.openMember).1
    obtain ⟨hrest, hlast⟩ := ihNext (((body.runAt .tolerant c d.openMember).2.closeMember
      location node (body.runAt .tolerant c d.openMember).1).1) hclosed
    refine ⟨?_, hlast⟩
    have hinner : d.openMember.file.failed = d.file.failed := rfl
    simp only [runAt, calls, hrest, hstages.failed_closeMember, filterMap_append,
      filterMap_cons, Call.failedMember?, Call.run]
    cases (body.runAt .tolerant c d.openMember).1 with
    | ok | error => simp [hfailed, hinner]

end Build

/-- The report and the failed member are about the same failure. -/
def Diagnostic.TellsOf (report : Diagnostic) (decl : Decl) : Prop :=
  ∃ m, decl = .failed m ∧ m.location = report.location ∧ m.error = report.message
    ∧ m.sexpr = report.sexpr

/-- Diagnostics and failed members tell of the same failures, position by position, and no staged
file holds a failed member. -/
structure Draft.FailuresPaired (d : Draft) : Prop where
  paired : List.Forall₂ Diagnostic.TellsOf d.diagnostics d.file.failed
  staged : d.StagesNoFailure

lemma forall₂_tellsOf (calls : List Call) :
    List.Forall₂ Diagnostic.TellsOf (calls.filterMap (Call.diagnostic? c))
      (calls.filterMap (Call.failedMember? c)) := by
  induction calls with
  | nil => exact .nil
  | cons call calls ih =>
    rw [filterMap_cons, filterMap_cons, Call.diagnostic?, Call.failedMember?]
    cases (call.run c).1 with
    | ok value => exact ih
    | error failure => exact .cons ⟨_, rfl, rfl, rfl, rfl⟩ ih

namespace Draft.FailuresPaired

variable {d : Draft} (hd : d.FailuresPaired) {α : Type}
include hd

lemma runAt (x : Build α) : (x.runAt .tolerant c d).2.FailuresPaired := by
  obtain ⟨hfailed, hstages⟩ := failed_runAt_eq (c := c) x hd.staged
  refine ⟨?_, hstages⟩
  rw [diagnostics_runAt_eq, hfailed]
  exact rel_append hd.paired (forall₂_tellsOf _)

lemma openMember : d.openMember.FailuresPaired :=
  ⟨hd.paired, stageable_unfailed.openMember hd.staged⟩

lemma closeMember (location : String) (node : Node) (outcome : Except Failure α) :
    (d.closeMember location node outcome).2.FailuresPaired := by
  refine ⟨?_, hd.staged.closeMember location node outcome⟩
  rw [Draft.diagnostics_closeMember, hd.staged.failed_closeMember]
  cases outcome with
  | ok => exact hd.paired
  | error => exact rel_append hd.paired (.cons ⟨_, rfl, rfl, rfl, rfl⟩ .nil)

lemma of_mem_calls {x : Build α} (hcall : call ∈ x.calls c d) : call.before.FailuresPaired := by
  induction x generalizing d with
  | done | stop => cases hcall
  | asking _ ih => exact ih c hd hcall
  | lowering x _ ih =>
    rw [calls] at hcall
    rcases hrun : x.runAt c d.trail with ⟨outcome, t⟩
    rw [hrun] at hcall
    cases outcome with
    | ok value => exact ih value (d := d.withTrail t) ⟨hd.paired, hd.staged⟩ hcall
    | error => cases hcall
  | noting event _ ih =>
    exact ih (d := d.note event) ⟨hd.paired, hd.staged⟩ hcall
  | adding group decls _ ih =>
    exact ih _ ⟨by simpa using hd.paired, stageable_unfailed.add group hd.staged decls⟩ hcall
  | growing group place grow _ ih =>
    exact ih (d := d.grow group place grow) ⟨by rw [Draft.failed_grow]; exact hd.paired,
      stageable_unfailed.grow group hd.staged place grow⟩ hcall
  | guarding location node body _ ihBody ihNext =>
    rw [calls, mem_append, mem_cons] at hcall
    rcases hcall with hinner | rfl | hlater
    · exact ihBody hd.openMember hinner
    · exact hd
    · exact ihNext _ ((hd.openMember.runAt body).closeMember location node _) hlater

end Draft.FailuresPaired

lemma Call.records_after (call : Call) (hbefore : call.before.StagesNoFailure) :
    (call.after c).diagnostics
        = call.before.diagnostics ++ (call.inner c).filterMap (Call.diagnostic? c)
          ++ (call.diagnostic? c).toList
      ∧ (call.after c).file.failed
        = call.before.file.failed ++ (call.inner c).filterMap (Call.failedMember? c)
          ++ (call.failedMember? c).toList := by
  obtain ⟨hfailed, hstages⟩ := failed_runAt_eq (c := c) call.body.2
    (stageable_unfailed.openMember hbefore)
  have hreports := diagnostics_runAt_eq (c := c) call.body.2 call.before.openMember
  have hfile : call.before.openMember.file.failed = call.before.file.failed := rfl
  rw [hfile] at hfailed
  rw [Call.after, Draft.diagnostics_closeMember, Call.run, hstages.failed_closeMember,
    Call.diagnostic?, Call.failedMember?, Call.run, Call.inner, hreports, hfailed]
  cases (call.body.2.runAt .tolerant c call.before.openMember).1 with
  | ok | error => simp

lemma failuresPaired_of_mem_calls {unit : CompilationUnit} (hcall : call ∈ unit.calls) :
    call.before.FailuresPaired := by
  obtain ⟨findings, -, -, hcalls⟩ := exists_analyze_of_mem_calls hcall
  rw [hcalls] at hcall
  have hstart : (Draft.ofUnit unit findings.log).FailuresPaired := by
    refine ⟨.nil, ?_⟩
    intro s hs
    cases hs
  exact hstart.of_mem_calls hcall

/-- When a call of a tolerant conversion has ended, however deep it stands and whatever has failed,
the diagnostics and the failed members of the file tell of the same failures in the same order, and
no staged file holds a failed member.  A call that fails adds one record to each behind those of the
calls inside it; one that returns adds none of its own. -/
theorem failure_recorded_twice {unit : CompilationUnit} {call : Call}
    (hcall : call ∈ unit.calls) :
    (call.after unit.context).FailuresPaired
      ∧ (call.run unit.context).2.StagesNoFailure
      ∧ (∀ failure, (call.run unit.context).1 = .error failure →
          (call.after unit.context).diagnostics
              = call.before.diagnostics
                ++ (call.inner unit.context).filterMap (Call.diagnostic? unit.context)
                ++ [failure.diagnostic call.location call.node]
            ∧ (call.after unit.context).file.failed
              = call.before.file.failed
                ++ (call.inner unit.context).filterMap (Call.failedMember? unit.context)
                ++ [.failed (failure.failedMember call.location call.node)])
      ∧ ∀ value, (call.run unit.context).1 = .ok value →
          (call.after unit.context).diagnostics
              = call.before.diagnostics
                ++ (call.inner unit.context).filterMap (Call.diagnostic? unit.context)
            ∧ (call.after unit.context).file.failed
              = call.before.file.failed
                ++ (call.inner unit.context).filterMap (Call.failedMember? unit.context) := by
  have hbefore := failuresPaired_of_mem_calls hcall
  have hrun : (call.run unit.context).2.FailuresPaired :=
    hbefore.openMember.runAt call.body.2
  obtain ⟨hreports, hfailed⟩ := call.records_after (c := unit.context) hbefore.staged
  refine ⟨hrun.closeMember call.location call.node _, hrun.staged, ?_, ?_⟩
  · intro failure hfailure
    rw [hreports, hfailed, Call.diagnostic?, Call.failedMember?, hfailure]
    exact ⟨rfl, rfl⟩
  · intro value hvalue
    rw [hreports, hfailed, Call.diagnostic?, Call.failedMember?, hvalue]
    simp

def untypedField (number : Nat) (name : List Node) : Node :=
  .tree number .fieldDeclaration
    [.plain (number + 1) .variableDeclarator (some "declarator") "" name]

/-- A class with a field that fails and a field that fails the class around it. -/
def brokenUnit : CompilationUnit where
  root :=
    .tree 0 .program
      [.plainClass 1 [] "Box" []
        [untypedField 10 [.called 12 "size"], untypedField 20 []]]

def brokenCall : Call :=
  brokenUnit.calls.get ⟨1, by decide +kernel⟩

/-- The class fails after a call inside it has failed; both are recorded, in this order. -/
theorem brokenCall_recorded_twice :
    brokenCall ∈ brokenUnit.calls ∧ brokenCall.Failed brokenUnit.context
      ∧ (brokenCall.after brokenUnit.context).FailuresPaired
      ∧ (brokenCall.after brokenUnit.context).diagnostics.map Diagnostic.location
          = ["class box.size", "class Box"] := by
  have hmem : brokenCall ∈ brokenUnit.calls := List.get_mem _ _
  exact ⟨hmem, (brokenCall.failed_iff_isSome_diagnostic? _).2 (by decide +kernel),
    (failure_recorded_twice hmem).1, by decide +kernel⟩

end JavaToGo
