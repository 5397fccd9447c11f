import Mathlib.Algebra.GroupWithZero.Nat
import JavaToGo.Proofs.Code.Nesting
import JavaToGo.Proofs.Draft.Stack

/-!
# Marks of ambiguous calls

Picking one of several overloads that fit logs an event and leaves a comment,
the mark, where the call stands.
-/

namespace JavaToGo

open List Code

/-- Whether an event says that a call or a creation fits several overloads. -/
def Event.isAmbiguity : Event → Bool
  | .ambiguousMethod .. => true
  | .ambiguousConstructor .. => true
  | _ => false

/-- How many events of a log are about ambiguous calls. -/
def ambiguities (log : List Event) : Nat :=
  log.countP Event.isAmbiguity

@[simp] lemma ambiguities_append (log more : List Event) :
    ambiguities (log ++ more) = ambiguities log + ambiguities more :=
  countP_append

lemma ambiguities_concat {event : Event} (h : event.isAmbiguity = false) (log : List Event) :
    ambiguities (log ++ [event]) = ambiguities log := by
  simp [ambiguities, h]

namespace Code

def markStart : String :=
  "FIXME: more than one possible "

/-- Whether a comment is about an ambiguous call. -/
def isMark (comment : String) : Bool :=
  Text.startsWith comment markStart

def markCount (comments : List String) : Nat :=
  comments.countP isMark

@[simp] lemma markCount_nil : markCount [] = 0 :=
  rfl

@[simp] lemma markCount_append (comments more : List String) :
    markCount (comments ++ more) = markCount comments + markCount more :=
  countP_append

lemma isMark_append (h : isMark start = true) (rest : String) : isMark (start ++ rest) = true := by
  rw [isMark, Text.startsWith_iff] at *
  rw [String.toList_append]
  exact h.trans (prefix_append ..)

lemma not_isMark_append (h : isMark start = false)
    (hlength : markStart.toList.length ≤ start.toList.length) (rest : String) :
    isMark (start ++ rest) = false := by
  rw [Bool.eq_false_iff] at *
  intro hmark
  rw [isMark, Text.startsWith_iff, String.toList_append] at hmark
  rw [Ne, isMark, Text.startsWith_iff] at h
  exact h (prefix_of_prefix_length_le hmark (prefix_append ..) hlength)

namespace Stmt

@[simp] def ownMarks : Stmt → Nat
  | .comment comments => markCount comments
  | _ => 0

/-- The number of marks in a statement. -/
abbrev marks (s : Stmt) : Nat :=
  s.total true ownMarks

/-- The number of marks in a block. -/
abbrev marksAll (ss : List Stmt) : Nat :=
  totalAll true ownMarks ss

end Stmt

def Decl.marks : Decl → Nat
  | .function f => Stmt.marksAll f.body
  | .var v => markCount v.comments
  | _ => 0

def marksIn (decls : List Decl) : Nat :=
  (decls.map Decl.marks).sum

@[simp] lemma marksIn_append (decls more : List Decl) :
    marksIn (decls ++ more) = marksIn decls + marksIn more := by
  simp [marksIn]

/-- The marks of a file: among the statements, however deep, and in front of variables. -/
def SourceFile.marks (file : SourceFile) : Nat :=
  marksIn file.vars + marksIn file.functions + marksIn file.methods

end Code

section

open Code (isMark markCount)

variable (name javaName : String) (count : Nat)

@[simp] lemma marks_methodAmbiguity : (methodAmbiguity name count).marks = 1 := by
  have hstart : isMark "FIXME: more than one possible method for " = true := by decide
  have hmark := isMark_append (isMark_append (isMark_append
    (isMark_append hstart name) " with ") (toString count)) " arguments"
  simpa [methodAmbiguity, markCount] using hmark

@[simp] lemma marks_constructorAmbiguity : (constructorAmbiguity javaName).marks = 1 := by
  have hstart : isMark "FIXME: more than one possible constructor for " = true := by decide
  have hmark := isMark_append hstart javaName
  simp [constructorAmbiguity, markCount, hmark]

lemma marks_superComment (text : String) :
    (Stmt.comment ["FIXME: call to abstract super constructor: " ++ text]).marks = 0 := by
  have hstart : isMark "FIXME: call to abstract super constructor: " = false := by decide
  have hmark := not_isMark_append hstart (by decide) text
  simp [markCount, hmark]

end

namespace Draft

def marks (d : Draft) : Nat :=
  Code.marksIn (d.standing .vars) + Code.marksIn (d.standing .functions)
    + Code.marksIn (d.standing .methods)

variable (d : Draft)

lemma marks_of_staged (h : d.staged = []) : d.marks = d.file.marks := by
  simp only [marks, standing, h]
  rfl

@[simp] lemma marks_openMember : d.openMember.marks = d.marks := by
  simp [marks]

@[simp] lemma marks_merge : d.merge.marks = d.marks := by
  simp [marks]

/-- The marks that a draft has more when declarations are added: only variables, functions and
methods have any. -/
def owing (group : Group) (decls : List Decl) : Nat :=
  match group with
  | .vars | .functions | .methods => Code.marksIn decls
  | _ => 0

lemma marks_add (group : Group) (decls : List Decl) :
    (d.add group decls).marks = d.marks + owing group decls := by
  cases group <;> simp [marks, standing_add, owing] <;> omega

lemma marks_grow (h : group = .types ∨ group = .interfaces) (place : Place) (f : Decl → Decl) :
    (d.grow group place f).marks = d.marks := by
  have hstanding : ∀ g, g ≠ group → (d.grow group place f).standing g = d.standing g := by
    intro g hg
    rw [standing, grow, stacked_growIn, Code.SourceFile.group_modifyGroup_of_ne _ _ hg]
    rfl
  rcases h with rfl | rfl <;> simp [marks, hstanding]

lemma marks_withTrail (t : Trail) : (d.withTrail t).marks = d.marks := by
  have hstanding : ∀ g, (d.withTrail t).standing g = d.standing g := by
    simp [standing, withTrail, group_stacked]
  simp [marks, hstanding]

lemma log_modifySink (f : SourceFile → SourceFile) : (d.modifySink f).log = d.log := by
  obtain ⟨file, staged, diagnostics, scopes, log⟩ := d
  cases staged <;> rfl

lemma log_merge : d.merge.log = d.log := by
  obtain ⟨file, staged, diagnostics, scopes, log⟩ := d
  cases staged with
  | nil => rfl
  | cons top below => exact log_modifySink _ _

end Draft

end JavaToGo
