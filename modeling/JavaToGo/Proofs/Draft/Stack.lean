import JavaToGo.Draft.Build
import JavaToGo.Proofs.Code.Merging

/-!
# Stacks of staged files
-/

namespace JavaToGo

open Code (Import SourceFile)
open List

variable (g : Group)

section

/-- The file that merging the staged files from the outermost to the innermost gives. -/
def stacked (file : SourceFile) : List SourceFile → SourceFile
  | [] => file
  | top :: below => (stacked file below).merge top

variable (file : SourceFile)

@[simp] lemma packageName_stacked :
    ∀ staged : List SourceFile, (stacked file staged).packageName = file.packageName
  | [] => rfl
  | _ :: below => packageName_stacked below

lemma imports_stacked :
    ∀ staged : List SourceFile, (∀ s ∈ staged, s.imports = []) →
      (stacked file staged).imports = file.imports
  | [], _ => rfl
  | top :: below, h => by
    have htop : top.imports = [] := h top (by simp)
    have hbelow := imports_stacked below fun s hs => h s (mem_cons_of_mem _ hs)
    simp [stacked, SourceFile.merge, Code.addImports, htop, hbelow]

lemma length_group_stacked (g : Group) :
    ∀ staged : List SourceFile, ((stacked file staged).group g).length = countIn g file staged
  | [] => rfl
  | top :: below => by
    simp [stacked, countIn, length_group_stacked g below]

lemma group_stacked (g : Group) :
    ∀ staged : List SourceFile,
      (stacked file staged).group g = file.group g ++ staged.reverse.flatMap fun s => s.group g
  | [] => by simp [stacked]
  | top :: below => by simp [stacked, group_stacked g below]

lemma stacked_withImports (imports : List Import) :
    ∀ staged : List SourceFile, (∀ s ∈ staged, s.imports = []) →
      stacked { file with imports := imports } staged
        = { stacked file staged with imports := imports }
  | [], _ => rfl
  | top :: below, h => by
    have htop : top.imports = [] := h top (by simp)
    have hbelow := stacked_withImports imports below fun s hs => h s (mem_cons_of_mem _ hs)
    simp [stacked, SourceFile.merge, Code.addImports, htop, hbelow]

end

section

variable (g : Group) (place : Place) (f : Decl → Decl)

lemma modify_append_left {α : Type} (f : α → α) (bs : List α) :
    ∀ {as : List α} {i : Nat}, i < as.length → (as ++ bs).modify i f = as.modify i f ++ bs
  | _ :: _, 0, _ => rfl
  | a :: as, i + 1, h => by
    have hi : i < as.length := Nat.lt_of_succ_lt_succ h
    simp [modify_append_left f bs hi]

lemma modify_append_right {α : Type} (f : α → α) (bs : List α) :
    ∀ (as : List α) (i : Nat), (as ++ bs).modify (as.length + i) f = as ++ bs.modify i f
  | [], i => by simp
  | a :: as, i => by
    have hi : as.length + 1 + i = (as.length + i) + 1 := by omega
    simp [hi, modify_append_right f bs as i]

lemma stacked_growIn (file : SourceFile) :
    ∀ staged : List SourceFile,
      stacked (growIn g place f file staged).1 (growIn g place f file staged).2
        = (stacked file staged).modifyGroup (·.modify place f) g
  | [] => rfl
  | top :: below => by
    have hlength := length_group_stacked file g below
    by_cases h : countIn g file below ≤ place
    · simp only [growIn, h, if_true, stacked]
      refine SourceFile.eq_of_group (by simp [SourceFile.merge]) ?_ ?_ ?_
      · simp [SourceFile.merge]
      · simp [SourceFile.merge]
      · intro k
        by_cases hk : k = g
        · subst hk
          obtain ⟨i, rfl⟩ := Nat.exists_eq_add_of_le h
          simp only [SourceFile.group_merge, SourceFile.group_modifyGroup_self, ← hlength,
            modify_append_right, Nat.add_sub_cancel_left]
        · simp [SourceFile.group_modifyGroup_of_ne _ _ hk]
    · simp only [growIn, h, if_false, stacked, stacked_growIn file below]
      refine SourceFile.eq_of_group (by simp [SourceFile.merge]) ?_ ?_ ?_
      · simp [SourceFile.merge]
      · simp [SourceFile.merge]
      · intro k
        by_cases hk : k = g
        · subst hk
          have hplace : place < ((stacked file below).group k).length :=
            hlength ▸ Nat.lt_of_not_le h
          simp [modify_append_left f _ hplace]
        · simp [SourceFile.group_modifyGroup_of_ne _ _ hk]

lemma countIn_append_le (file : SourceFile) (base : List SourceFile) :
    ∀ upper : List SourceFile, countIn g file base ≤ countIn g file (upper ++ base)
  | [] => Nat.le_refl _
  | _ :: upper =>
    Nat.le_trans (countIn_append_le file base upper) (Nat.le_add_right _ _)

lemma growIn_append_of_lt (h : place < countIn g file base) :
    ∀ upper : List SourceFile,
      growIn g place f file (upper ++ base)
        = ((growIn g place f file base).1, upper ++ (growIn g place f file base).2)
  | [] => rfl
  | top :: upper => by
    have hle := countIn_append_le g file base upper
    have hlt : ¬ countIn g file (upper ++ base) ≤ place :=
      Nat.not_le_of_lt (Nat.lt_of_lt_of_le h hle)
    simp [growIn, hlt, growIn_append_of_lt h upper]

lemma growIn_append_of_le (h : countIn g file base ≤ place) :
    ∀ upper : List SourceFile, upper ≠ [] →
      ∃ upper', upper'.length = upper.length
        ∧ growIn g place f file (upper ++ base) = (file, upper' ++ base)
  | [], hne => absurd rfl hne
  | top :: upper, _ => by
    by_cases hle : countIn g file (upper ++ base) ≤ place
    · let grown := top.modifyGroup (·.modify (place - countIn g file (upper ++ base)) f) g
      exact ⟨grown :: upper, rfl, by simp [growIn, hle, grown]⟩
    · have hover : upper ≠ [] := by
        rintro rfl
        exact hle h
      obtain ⟨upper', hlength, hgrow⟩ := growIn_append_of_le h upper hover
      exact ⟨top :: upper', by simp [hlength], by simp [growIn, hle, hgrow]⟩

lemma length_growIn (file : SourceFile) :
    ∀ staged : List SourceFile, (growIn g place f file staged).2.length = staged.length
  | [] => rfl
  | top :: below => by
    by_cases h : countIn g file below ≤ place
    · simp [growIn, h]
    · simp [growIn, h, length_growIn file below]

end

/-- A property that staged files keep while they are filled and merged. -/
structure Stageable (Q : SourceFile → Prop) : Prop where
  empty : ∀ packageName, Q { packageName := packageName }
  filled : ∀ {file} f g, Q file → Q (file.modifyGroup f g)
  merged : ∀ {file top}, Q file → Q top → Q (file.merge top)

namespace Stageable

variable {Q : SourceFile → Prop} (hQ : Stageable Q) {d : Draft}
include hQ

lemma growIn (place : Place) (f : Decl → Decl) (file : SourceFile) (h : ∀ s ∈ staged, Q s) :
    ∀ s ∈ (growIn g place f file staged).2, Q s := by
  induction staged with
  | nil => exact h
  | cons top below ih =>
    obtain ⟨htop, hbelow⟩ := forall_mem_cons.1 h
    rw [JavaToGo.growIn]
    split
    · exact forall_mem_cons.2 ⟨hQ.filled _ g htop, hbelow⟩
    · exact forall_mem_cons.2 ⟨htop, ih hbelow⟩

variable (h : ∀ s ∈ d.staged, Q s)
include h

lemma add (decls : List Decl) : ∀ s ∈ (d.add g decls).staged, Q s := by
  obtain ⟨file, staged, diagnostics, scopes, log⟩ := d
  cases staged with
  | nil => exact h
  | cons top below =>
    obtain ⟨htop, hbelow⟩ := forall_mem_cons.1 h
    exact forall_mem_cons.2 ⟨hQ.filled _ g htop, hbelow⟩

lemma grow (place : Place) (f : Decl → Decl) : ∀ s ∈ (d.grow g place f).staged, Q s :=
  hQ.growIn g place f d.file h

lemma openMember : ∀ s ∈ d.openMember.staged, Q s :=
  forall_mem_cons.2 ⟨hQ.empty _, h⟩

lemma merge : ∀ s ∈ d.merge.staged, Q s := by
  obtain ⟨file, staged, diagnostics, scopes, log⟩ := d
  cases staged with
  | nil => exact h
  | cons top below =>
    obtain ⟨htop, hbelow⟩ := forall_mem_cons.1 h
    cases below with
    | nil => exact hbelow
    | cons next below =>
      obtain ⟨hnext, hrest⟩ := forall_mem_cons.1 hbelow
      exact forall_mem_cons.2 ⟨hQ.merged hnext htop, hrest⟩

end Stageable

lemma stageable_importless : Stageable fun s => s.imports = [] where
  empty _ := rfl
  filled _ _ h := by simpa using h
  merged h htop := by simp [SourceFile.merge, Code.addImports, h, htop]

namespace Draft

variable (place : Place) (f : Decl → Decl)

def flat (d : Draft) : Draft :=
  { d with file := stacked d.file d.staged, staged := [] }

def Importless (d : Draft) : Prop :=
  ∀ s ∈ d.staged, s.imports = []

section

variable {d : Draft}

lemma trail_flat (h : d.Importless) : d.flat.trail = d.trail := by
  simp [flat, trail, imports_stacked _ _ h]

lemma flat_withTrail (h : d.Importless) (t : Trail) :
    (d.withTrail t).flat = d.flat.withTrail t := by
  simp only [flat, withTrail]
  rw [stacked_withImports _ _ _ h]

lemma count_flat (d : Draft) : d.flat.count g = d.count g := by
  simp [flat, count, countIn, length_group_stacked]

lemma flat_add (d : Draft) (g : Group) (decls : List Decl) :
    (d.add g decls).flat = d.flat.add g decls := by
  obtain ⟨file, staged, diagnostics, scopes, log⟩ := d
  cases staged with
  | nil => rfl
  | cons top below =>
    simp only [flat, add, modifySink, stacked, Draft.mk.injEq, and_true]
    refine SourceFile.eq_of_group (by simp [SourceFile.merge]) ?_ ?_ ?_
    · simp [SourceFile.merge]
    · simp [SourceFile.merge]
    · intro k
      by_cases hk : k = g
      · subst hk
        simp
      · simp [SourceFile.group_modifyGroup_of_ne _ _ hk]

lemma flat_grow (d : Draft) : (d.grow g place f).flat = d.flat.grow g place f := by
  simp [flat, grow, stacked_growIn, growIn]

lemma flat_openMember (d : Draft) : d.openMember.flat = d.flat := by
  simp [flat, openMember, stage, stacked]

lemma flat_merge : d.merge.flat = d.flat := by
  obtain ⟨file, staged, diagnostics, scopes, log⟩ := d
  cases staged with
  | nil => rfl
  | cons top below =>
    cases below with
    | nil => rfl
    | cons next below => simp [flat, merge, modifySink, stacked, SourceFile.merge_assoc]

end

section

/-- The declarations of a group, staged ones included. -/
def standing (d : Draft) (g : Group) : List Decl :=
  (stacked d.file d.staged).group g

variable (d : Draft) (g : Group)

lemma length_standing : (d.standing g).length = d.count g :=
  length_group_stacked d.file g d.staged

@[simp] lemma standing_openMember : d.openMember.standing g = d.standing g := by
  simp [standing, openMember, stage, stacked]

@[simp] lemma standing_merge : d.merge.standing g = d.standing g := by
  obtain ⟨file, staged, diagnostics, scopes, log⟩ := d
  cases staged with
  | nil => rfl
  | cons top below =>
    cases below with
    | nil => rfl
    | cons next below => simp [standing, merge, modifySink, stacked]

lemma standing_add (decls : List Decl) (h : Group) :
    (d.add g decls).standing h = if h = g then d.standing g ++ decls else d.standing h := by
  have hflat := congrArg Draft.file (flat_add d g decls)
  change ((d.add g decls).flat.file).group h = _
  rw [hflat]
  by_cases hg : h = g
  · subst hg
    simp [add, modifySink, flat, standing]
  · simp [add, modifySink, flat, standing, hg, SourceFile.group_modifyGroup_of_ne _ _ hg]

end

variable (d : Draft)

@[simp] lemma level_modifySink (f : SourceFile → SourceFile) :
    (d.modifySink f).level = d.level := by
  obtain ⟨file, staged, diagnostics, scopes, log⟩ := d
  cases staged <;> rfl

@[simp] lemma level_add (decls : List Decl) : (d.add g decls).level = d.level :=
  d.level_modifySink _

@[simp] lemma level_grow : (d.grow g place f).level = d.level :=
  length_growIn g place f d.file d.staged

@[simp] lemma level_openMember : d.openMember.level = d.level + 1 :=
  rfl

@[simp] lemma level_closeMember {α : Type} (location : String) (member : Tree.Node)
    (outcome : Except Failure α) :
    (d.closeMember location member outcome).2.level = d.level - 1 := by
  cases outcome with
  | ok =>
    obtain ⟨file, staged, diagnostics, scopes, log⟩ := d
    cases staged with
    | nil => rfl
    | cons top below => exact level_modifySink _ _
  | error => simp [closeMember, recordFailure, discard, level]

end Draft

end JavaToGo
