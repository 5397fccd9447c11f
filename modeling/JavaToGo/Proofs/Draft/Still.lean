import JavaToGo.Proofs.Draft.Calls

/-!
# Scripts that make declarations grow

A member that fails can leave something behind only where it makes a declaration
grow that stood before it: what it adds goes with its staged file.
-/

namespace JavaToGo

open Code (SourceFile)
open List Draft

namespace Draft

def Over (P : SourceFile → List SourceFile → Prop) (depth : Nat) (d : Draft) : Prop :=
  ∃ upper base, upper.length = depth ∧ d.staged = upper ++ base ∧ P d.file base

/-- A property that sees neither new imports nor new failed members of the file. -/
structure Indifferent (P : SourceFile → List SourceFile → Prop) : Prop where
  imports : ∀ {file base} (imports : List Code.Import),
    P file base → P { file with imports := imports } base
  failed : ∀ {file base} (m : Code.FailedMember),
    P file base → P { file with failed := file.failed ++ [.failed m] } base

variable {P : SourceFile → List SourceFile → Prop} {d : Draft}

lemma Over.withTrail (h : d.Over P depth) (hP : Indifferent P) (t : Trail) :
    (d.withTrail t).Over P depth := by
  obtain ⟨upper, base, hlength, hstaged, hbase⟩ := h
  exact ⟨upper, base, hlength, hstaged, hP.imports t.imports hbase⟩

lemma Over.add (h : d.Over P (depth + 1)) (g : Group) (decls : List Decl) :
    (d.add g decls).Over P (depth + 1) := by
  obtain ⟨upper, base, hlength, hstaged, hbase⟩ := h
  cases upper with
  | nil => cases hlength
  | cons top upper =>
    refine ⟨top.modifyGroup (· ++ decls) g :: upper, base, hlength, ?_, ?_⟩
    · simp [Draft.add, modifySink, hstaged]
    · simpa [Draft.add, modifySink, hstaged] using hbase

lemma Over.grow (h : d.Over P (depth + 1)) {f : Decl → Decl}
    (hgrow : ∀ {file base}, place < countIn g file base → P file base →
      P (growIn g place f file base).1 (growIn g place f file base).2) :
    (d.grow g place f).Over P (depth + 1) := by
  obtain ⟨upper, base, hlength, hstaged, hbase⟩ := h
  by_cases hplace : place < countIn g d.file base
  · refine ⟨upper, (growIn g place f d.file base).2, hlength, ?_, ?_⟩
    · simp [Draft.grow, hstaged, growIn_append_of_lt g place f hplace]
    · simpa [Draft.grow, hstaged, growIn_append_of_lt g place f hplace] using hgrow hplace hbase
  · have hne : upper ≠ [] := by
      rintro rfl
      cases hlength
    obtain ⟨upper', hlength', hgrown⟩ :=
      growIn_append_of_le g place f (Nat.le_of_not_lt hplace) upper hne
    refine ⟨upper', base, hlength'.trans hlength, ?_, ?_⟩
    · simp [Draft.grow, hstaged, hgrown]
    · simpa [Draft.grow, hstaged, hgrown] using hbase

lemma Over.openMember (h : d.Over P depth) : d.openMember.Over P (depth + 1) := by
  obtain ⟨upper, base, hlength, hstaged, hbase⟩ := h
  exact ⟨{ packageName := d.sink.packageName } :: upper, base, by simp [hlength],
    by simp [Draft.openMember, stage, hstaged], hbase⟩

lemma Over.merge (h : d.Over P (depth + 2)) : d.merge.Over P (depth + 1) := by
  obtain ⟨upper, base, hlength, hstaged, hbase⟩ := h
  match upper, hlength with
  | top :: next :: upper, hlength =>
    refine ⟨next.merge top :: upper, base, by simpa using hlength, ?_, ?_⟩
    · simp [Draft.merge, modifySink, hstaged]
    · simpa [Draft.merge, modifySink, hstaged] using hbase

lemma Over.recordFailure (h : d.Over P (depth + 1)) (hP : Indifferent P) (location : String)
    (node : Node) (failure : Failure) :
    (d.discard.recordFailure location node failure).Over P depth := by
  obtain ⟨upper, base, hlength, hstaged, hbase⟩ := h
  cases upper with
  | nil => cases hlength
  | cons top upper =>
    refine ⟨upper, base, by simpa using hlength, ?_, ?_⟩
    · simp [Draft.recordFailure, discard, hstaged]
    · exact hP.failed (failure.failedMember location node) hbase

end Draft

namespace Build

/-- No step of the script can fail. -/
def Sure (c : Context) {α : Type} : Build α → Prop
  | .done _ => True
  | .stop _ => False
  | .asking next => (next c).Sure c
  | .lowering _ _ => False
  | .noting _ next => next.Sure c
  | .adding _ _ next => ∀ place, (next place).Sure c
  | .growing _ _ _ next => next.Sure c
  | .guarding _ _ _ _ => False

/-- The script opens no boundary and makes nothing grow; `post` holds of its result. -/
def Still (c : Context) {α : Type} : Build α → (α → Prop) → Prop
  | .done value, post => post value
  | .stop _, _ => True
  | .asking next, post => (next c).Still c post
  | .lowering x next, post =>
    ∀ value t t', x.runAt c t = (.ok value, t') → (next value).Still c post
  | .noting _ next, post => next.Still c post
  | .adding _ _ next, post => ∀ place, (next place).Still c post
  | .growing _ _ _ _, _ => False
  | .guarding _ _ _ _, _ => False

/-- The script opens no boundary, and makes declarations grow only when nothing can fail any
more. -/
def GrowsLast (c : Context) {α : Type} : Build α → Prop
  | .done _ => True
  | .stop _ => True
  | .asking next => (next c).GrowsLast c
  | .lowering x next =>
    ∀ value t t', x.runAt c t = (.ok value, t') → (next value).GrowsLast c
  | .noting _ next => next.GrowsLast c
  | .adding _ _ next => ∀ place, (next place).GrowsLast c
  | .growing _ _ _ next => next.Sure c
  | .guarding _ _ _ _ => False

abbrev Places := Place → Prop

/-- Growing an interface gives an interface. -/
def KeepsInterfaces (grow : Decl → Decl) : Prop :=
  ∀ i, ∃ j, grow (.interface i) = .interface j

section

variable {c : Context} {α β : Type} {x : Build α} {f : α → Build β}

lemma Sure.bind (hx : x.Sure c) (hf : ∀ a, (f a).Sure c) : (x >>= f).Sure c := by
  induction x with
  | done value => exact hf value
  | stop | lowering | guarding => exact hx.elim
  | asking _ ih => exact ih c hx hf
  | noting _ _ ih | growing _ _ _ _ ih => exact ih hx hf
  | adding _ _ _ ih => exact fun place => ih place (hx place) hf

lemma Sure.growsLast (h : x.Sure c) : x.GrowsLast c := by
  induction x with
  | done | stop => trivial
  | asking _ ih => exact ih c h
  | lowering | guarding => exact h.elim
  | noting _ _ ih => exact ih h
  | adding _ _ _ ih => exact fun place => ih place (h place)
  | growing => exact h

/-- A property of scripts that every step but growth and boundaries hands back. -/
structure Hereditary (c : Context) (R : Build β → Prop) : Prop where
  stop : ∀ failure, R (.stop failure)
  asking : ∀ {next}, R (next c) → R (.asking next)
  lowering : ∀ {γ : Type} {x : Lower γ} {next},
    (∀ value t t', x.runAt c t = (.ok value, t') → R (next value)) → R (.lowering x next)
  noting : ∀ {event next}, R next → R (.noting event next)
  adding : ∀ {group decls next}, (∀ place, R (next place)) → R (.adding group decls next)

lemma hereditary_still {post : β → Prop} : Hereditary c fun x => x.Still c post :=
  ⟨fun _ => trivial, id, id, id, id⟩

lemma hereditary_growsLast : Hereditary c fun x : Build β => x.GrowsLast c :=
  ⟨fun _ => trivial, id, id, id, id⟩

lemma Still.bind_of {R : Build β → Prop} (hR : Hereditary c R)
    (h : x.Still c fun a => R (f a)) : R (x >>= f) := by
  induction x with
  | done => exact h
  | stop failure => exact hR.stop failure
  | asking _ ih => exact hR.asking (ih c h)
  | lowering _ _ ih =>
    exact hR.lowering fun value t t' hrun => ih value (h value t t' hrun)
  | noting _ _ ih => exact hR.noting (ih h)
  | adding _ _ _ ih => exact hR.adding fun place => ih place (h place)
  | growing | guarding => exact h.elim

lemma Still.bind {post : β → Prop}
    (h : x.Still c fun a => (f a).Still c post) : (x >>= f).Still c post :=
  h.bind_of hereditary_still

lemma GrowsLast.after (h : x.Still c fun a => (f a).GrowsLast c) : (x >>= f).GrowsLast c :=
  h.bind_of hereditary_growsLast

lemma Still.hereditary {R : Build α → Prop} (hR : Hereditary c R) {post : α → Prop}
    (hdone : ∀ a, post a → R (.done a)) (h : x.Still c post) : R x := by
  induction x with
  | done value => exact hdone value h
  | stop failure => exact hR.stop failure
  | asking _ ih => exact hR.asking (ih c hR hdone h)
  | lowering _ _ ih =>
    exact hR.lowering fun value t t' hrun => ih value hR hdone (h value t t' hrun)
  | noting _ _ ih => exact hR.noting (ih hR hdone h)
  | adding _ _ _ ih => exact hR.adding fun place => ih place hR hdone (h place)
  | growing | guarding => exact h.elim

lemma Still.growsLast (h : x.Still c fun _ => True) : x.GrowsLast c :=
  h.hereditary (R := fun x : Build α => x.GrowsLast c) hereditary_growsLast fun _ _ => trivial

end

section

variable {α : Type}

lemma Sure.outcome {x : Build α} (h : x.Sure c) (mode : Mode) (d : Draft) :
    ∃ value, (x.runAt mode c d).1 = .ok value := by
  induction x generalizing d with
  | done value => exact ⟨value, rfl⟩
  | stop | lowering | guarding => exact h.elim
  | asking _ ih => exact ih c h d
  | noting event _ ih => exact ih h (d.note event)
  | adding group decls _ ih => exact ih (d.count group) (h _) (d.add group decls)
  | growing group place grow _ ih => exact ih h (d.grow group place grow)

variable {P : SourceFile → List SourceFile → Prop} (hP : Indifferent P)
include hP

lemma GrowsLast.runAt_over {x : Build α} (hx : x.GrowsLast c) {depth : Nat} {d : Draft}
    (hd : d.Over P (depth + 1)) {failure : Failure}
    (hfailure : (x.runAt .tolerant c d).1 = .error failure) :
    (x.runAt .tolerant c d).2.Over P (depth + 1) := by
  induction x generalizing d with
  | done | stop => exact hd
  | asking _ ih => exact ih c hx hd hfailure
  | lowering x _ ih =>
    rw [runAt] at hfailure ⊢
    rcases hrun : x.runAt c d.trail with ⟨outcome, t⟩
    rw [hrun] at hfailure
    cases outcome with
    | ok value => exact ih value (hx value _ _ hrun) (hd.withTrail hP t) hfailure
    | error => exact hd.withTrail hP t
  | noting _ _ ih => exact ih hx hd hfailure
  | adding group decls _ ih =>
    exact ih (d.count group) (hx _) (hd.add group decls) hfailure
  | growing group place grow =>
    obtain ⟨value, hvalue⟩ := Sure.outcome hx .tolerant (d.grow group place grow)
    rw [runAt, hvalue] at hfailure
    cases hfailure
  | guarding => exact hx.elim

end

/-- Interfaces stand at these places. -/
def StandIn (known : Places) (file : SourceFile) (staged : List SourceFile) : Prop :=
  ∀ p, known p → ∃ i, ((stacked file staged).group .interfaces)[p]? = some (.interface i)

def Stand (known : Places) (d : Draft) : Prop :=
  StandIn known d.file d.staged

lemma standIn_indifferent (known : Places) : Indifferent (StandIn known) where
  imports imports h p hp := by simpa [group_stacked] using h p hp
  failed m h p hp := by simpa [group_stacked] using h p hp

variable {d : Draft}

lemma StandIn.growIn {file : SourceFile} {staged : List SourceFile}
    (h : StandIn known file staged) {g : Group} {place : Place} {f : Decl → Decl}
    (hf : KeepsInterfaces f) :
    StandIn known (growIn g place f file staged).1 (growIn g place f file staged).2 := by
  intro p hp
  obtain ⟨i, hi⟩ := h p hp
  rw [stacked_growIn]
  by_cases hg : g = .interfaces
  · subst hg
    rw [SourceFile.group_modifyGroup_self, getElem?_modify, hi]
    by_cases hplace : place = p
    · obtain ⟨j, hj⟩ := hf i
      exact ⟨j, by simp [hplace, hj]⟩
    · exact ⟨i, by simp [hplace]⟩
  · rw [SourceFile.group_modifyGroup_of_ne _ _ (Ne.symm hg)]
    exact ⟨i, hi⟩

lemma Stand.openMember (h : Stand known d) : Stand known d.openMember := by
  intro p hp
  obtain ⟨i, hi⟩ := h p hp
  exact ⟨i, by rw [← hi]; exact congrArg (·[p]?) (d.standing_openMember .interfaces)⟩

lemma stand_merge_of_over (h : d.Over (StandIn known) 1) : Stand known d.merge := by
  obtain ⟨upper, base, hlength, hstaged, hbase⟩ := h
  obtain ⟨top, rfl⟩ := length_eq_one_iff.1 hlength
  intro p hp
  obtain ⟨i, hi⟩ := hbase p hp
  refine ⟨i, ?_⟩
  change (d.merge.standing .interfaces)[p]? = _
  have hlt : p < ((stacked d.file base).group .interfaces).length :=
    (List.getElem?_eq_some_iff.1 hi).1
  rw [standing_merge, Draft.standing, hstaged, singleton_append, stacked,
    SourceFile.group_merge, getElem?_append_left hlt, hi]

end Build

end JavaToGo
