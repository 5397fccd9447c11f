import JavaToGo.Code.SourceFile
import Mathlib.Tactic.Lemma

/-!
# Merging Go files

Merging is associative and a file in which nothing was collected is neutral, so
how deep the files were nested cannot be seen in the result.
-/

namespace JavaToGo.Code

open List

section

variable (xs : List Import)

/-- Looking a path up after an import was asked for. -/
lemma find?_addImport (i : Import) (path : String) :
    (addImport xs i).find? (·.path == path) = (xs ++ [i]).find? (·.path == path) := by
  by_cases hi : i.path ∈ xs.map Import.path
  · obtain ⟨j, hj, hpath⟩ := mem_map.1 hi
    rw [addImport_of_mem hi, find?_append]
    cases hfind : xs.find? (·.path == path) with
    | some => rfl
    | none =>
      -- The path is not the one asked for, since that one is found.
      have hne : (i.path == path) = false := by
        rw [← hpath]
        simpa using find?_eq_none.1 hfind j hj
      simp [hne]
  · rw [addImport_of_not_mem hi]

lemma find?_addImports (ys : List Import) (path : String) :
    (addImports xs ys).find? (·.path == path) = (xs ++ ys).find? (·.path == path) := by
  induction ys generalizing xs with
  | nil => simp [addImports]
  | cons y ys ih =>
    calc (addImports (addImport xs y) ys).find? (·.path == path)
        = (addImport xs y ++ ys).find? (·.path == path) := ih _
      _ = ((xs ++ [y]) ++ ys).find? (·.path == path) := by
        rw [find?_append, find?_addImport, ← find?_append]
      _ = (xs ++ y :: ys).find? (·.path == path) := by simp

lemma nodup_addImports {xs : List Import} (ys : List Import) (h : (xs.map Import.path).Nodup) :
    ((addImports xs ys).map Import.path).Nodup := by
  induction ys generalizing xs with
  | nil => exact h
  | cons y ys ih => exact ih (imports_addImport_nodup y h)

lemma mem_addImports {i : Import} {ys : List Import} (h : i.path ∈ ys.map Import.path) :
    i.path ∈ (addImports xs ys).map Import.path := by
  obtain ⟨j, hj, hpath⟩ := mem_map.1 h
  have hfound : ((addImports xs ys).find? (·.path == i.path)).isSome := by
    rw [find?_addImports, find?_isSome]
    exact ⟨j, mem_append_right _ hj, by simp [hpath]⟩
  obtain ⟨k, hk, hsame⟩ := find?_isSome.1 hfound
  exact mem_map.2 ⟨k, hk, by simpa using hsame⟩

lemma addImports_addImports (ys zs : List Import) :
    addImports (addImports xs ys) zs = addImports xs (addImports ys zs) := by
  induction zs generalizing ys with
  | nil => rfl
  | cons z zs ih =>
    have hstep : addImport (addImports xs ys) z = addImports xs (addImport ys z) := by
      by_cases hz : z.path ∈ ys.map Import.path
      · rw [addImport_of_mem hz, addImport_of_mem (mem_addImports xs hz)]
      · rw [addImport_of_not_mem hz, addImports, addImports, foldl_append]
        rfl
    calc addImports (addImports xs ys) (z :: zs)
        = addImports (addImports xs (addImport ys z)) zs := by rw [← hstep]; rfl
      _ = addImports xs (addImports ys (z :: zs)) := ih _

lemma addImports_of_nodup {ys : List Import} (h : ((xs ++ ys).map Import.path).Nodup) :
    addImports xs ys = xs ++ ys := by
  induction ys generalizing xs with
  | nil => simp [addImports]
  | cons y ys ih =>
    have hy : y.path ∉ xs.map Import.path := fun hmem => by
      rw [map_append, nodup_append] at h
      exact h.2.2 _ hmem _ mem_cons_self rfl
    rw [append_cons] at h ⊢
    rw [← ih _ h, ← addImport_of_not_mem hy]
    rfl

end

namespace SourceFile

section

variable (g : Group) (file : SourceFile) (f : List Decl → List Decl)

@[simp] lemma group_modifyGroup_self : (file.modifyGroup f g).group g = f (file.group g) := by
  cases g <;> rfl

lemma group_modifyGroup_of_ne {g h : Group} (hne : h ≠ g) :
    (file.modifyGroup f g).group h = file.group h := by
  cases g <;> cases h <;> first | rfl | exact absurd rfl hne

@[simp] lemma packageName_modifyGroup : (file.modifyGroup f g).packageName = file.packageName := by
  cases g <;> rfl

@[simp] lemma imports_modifyGroup : (file.modifyGroup f g).imports = file.imports := by
  cases g <;> rfl

@[simp] lemma failed_modifyGroup : (file.modifyGroup f g).failed = file.failed := by
  cases g <;> rfl

@[simp] lemma group_merge (other : SourceFile) :
    (file.merge other).group g = file.group g ++ other.group g := by
  cases g <;> rfl

@[simp] lemma group_withImports (imports : List Import) :
    { file with imports := imports }.group g = file.group g := by
  cases g <;> rfl

@[simp] lemma group_withFailed (failed : List Decl) :
    { file with failed := failed }.group g = file.group g := by
  cases g <;> rfl

end

lemma eq_of_group {a b : SourceFile}
    (hpackage : a.packageName = b.packageName) (himports : a.imports = b.imports)
    (hfailed : a.failed = b.failed) (hgroup : ∀ g, a.group g = b.group g) : a = b := by
  cases a
  cases b
  simp only [SourceFile.mk.injEq]
  exact ⟨hpackage, himports, hgroup .interfaces, hgroup .types, hgroup .constBlocks,
    hgroup .constants, hgroup .vars, hgroup .functions, hgroup .methods, hfailed⟩

lemma merge_assoc (a b c : SourceFile) : (a.merge b).merge c = a.merge (b.merge c) := by
  refine eq_of_group rfl (addImports_addImports ..) (append_assoc ..) fun g => ?_
  simp only [group_merge, append_assoc]

lemma foldl_merge (a b : SourceFile) (files : List SourceFile) :
    files.foldl merge (a.merge b) = a.merge (files.foldl merge b) := by
  induction files generalizing b with
  | nil => rfl
  | cons c files ih => rw [foldl_cons, foldl_cons, merge_assoc, ih]

/-- Files as they are collected, with the imports that were asked for on the way. -/
inductive Collected : SourceFile → List Import → Prop where
  | empty (packageName : String) : Collected { packageName } []
  | importing {file asked} (path : String) (localName : Option String) :
    Collected file asked → Collected (file.importing path localName) (asked ++ [⟨path, localName⟩])
  | add {file asked} (g : Group) (decls : List Decl) :
    Collected file asked → Collected (file.modifyGroup (· ++ decls) g) asked
  | fail {file asked} (decls : List Decl) :
    Collected file asked → Collected { file with failed := file.failed ++ decls } asked
  | merge {file asked other others} :
    Collected file asked → Collected other others → Collected (file.merge other) (asked ++ others)

lemma Collected.imports_lawful (h : Collected file asked) :
    (file.imports.map Import.path).Nodup ∧ ∀ path : String,
      file.imports.find? (·.path == path) = asked.find? (·.path == path) := by
  induction h with
  | empty => exact ⟨nodup_nil, fun _ => rfl⟩
  | importing _ _ _ ih =>
    refine ⟨imports_addImport_nodup _ ih.1, fun p => ?_⟩
    rw [SourceFile.importing, find?_addImport, find?_append, find?_append, ih.2]
  | add _ _ _ ih => simpa using ih
  | fail _ _ ih => exact ih
  | merge _ _ ih ih' =>
    refine ⟨nodup_addImports _ ih.1, fun p => ?_⟩
    rw [SourceFile.merge, find?_addImports, find?_append, find?_append, ih.2, ih'.2]

end SourceFile

/-- What is merged into a file: a file as it is, or one that starts with nothing and that others are
merged into. -/
inductive Staging where
  | done (file : SourceFile)
  | nested (packageName : String) (parts : List Staging)

namespace Staging

mutual
/-- The file that staging ends with. -/
def result : Staging → SourceFile
  | done file => file
  | nested packageName parts => mergeInto { packageName } parts

def mergeInto (file : SourceFile) : List Staging → SourceFile
  | [] => file
  | part :: parts => mergeInto (file.merge part.result) parts
end

mutual
/-- The files that are merged, in the order in which they come. -/
def files : Staging → List SourceFile
  | done file => [file]
  | nested _ parts => filesOf parts

def filesOf : List Staging → List SourceFile
  | [] => []
  | part :: parts => part.files ++ filesOf parts
end

mutual
theorem merge_result (outer : SourceFile) :
    ∀ part : Staging, outer.merge part.result = part.files.foldl SourceFile.merge outer
  | done _ => rfl
  | nested packageName parts => by
    rw [result, files, mergeInto_eq_foldl _ parts, ← SourceFile.foldl_merge, SourceFile.merge_empty]

theorem mergeInto_eq_foldl (file : SourceFile) :
    ∀ parts : List Staging, mergeInto file parts = (filesOf parts).foldl SourceFile.merge file
  | [] => rfl
  | part :: parts => by
    rw [mergeInto, filesOf, foldl_append, mergeInto_eq_foldl _ parts, merge_result file part]
end

end Staging

/-- The imports of a collected file have different paths, each with the alias that was asked for
first.  Merging is associative, has the empty file as its neutral element up to the name of the
package, and puts the declarations of a group and the failed ones behind those that are there.  So
files that are merged through any nesting give what merging them one after the other gives. -/
theorem merge_lawful {a : SourceFile} {asked : List Import} (ha : a.Collected asked)
    (b c : SourceFile) (packageName : String) (parts : List Staging) :
    ((a.imports.map Import.path).Nodup ∧ ∀ path : String,
      a.imports.find? (·.path == path) = asked.find? (·.path == path))
    ∧ (a.merge b).merge c = a.merge (b.merge c)
    ∧ (a.merge { packageName } = a ∧ SourceFile.merge { packageName } a = { a with packageName })
    ∧ ((∀ g, (a.merge b).group g = a.group g ++ b.group g)
      ∧ (a.merge b).failed = a.failed ++ b.failed)
    ∧ Staging.mergeInto a parts = (Staging.filesOf parts).foldl SourceFile.merge a := by
  refine ⟨ha.imports_lawful, a.merge_assoc b c, ⟨a.merge_empty packageName, ?_⟩,
    ⟨fun g => a.group_merge g b, rfl⟩, Staging.mergeInto_eq_foldl a parts⟩
  refine SourceFile.eq_of_group rfl (addImports_of_nodup [] ha.imports_lawful.1) rfl fun g => ?_
  cases g <;> rfl

/-- A file that was asked to import one path under two names. -/
def askedTwice : SourceFile :=
  (SourceFile.importing { packageName := "box" } "fmt" none).importing "fmt" (some "format")

theorem merge_askedTwice :
    askedTwice.imports.find? (·.path == "fmt") = some ⟨"fmt", none⟩
    ∧ Staging.mergeInto askedTwice [.nested "box" [.done askedTwice, .nested "box" []]]
      = askedTwice.merge askedTwice := by
  have hcollected : askedTwice.Collected [⟨"fmt", none⟩, ⟨"fmt", some "format"⟩] :=
    ((SourceFile.Collected.empty "box").importing "fmt" none).importing "fmt" (some "format")
  have hlawful := merge_lawful hcollected {} {} "box"
    [.nested "box" [.done askedTwice, .nested "box" []]]
  exact ⟨hlawful.1.2 "fmt", hlawful.2.2.2.2⟩

end JavaToGo.Code
