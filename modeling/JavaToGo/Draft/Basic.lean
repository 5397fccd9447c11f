import JavaToGo.Member

/-!
# Drafts

A type declaration is put down before its members are converted and grows with
them.  Places stay valid because declarations are only ever added behind, and
merging a staged file does not move what it holds.
-/

namespace JavaToGo

/-- A member that could not be converted, and why. -/
structure Diagnostic where
  location : String
  message : String
  source : String
  sexpr : String
  kind : Kind
  category : Category
deriving DecidableEq, Repr

def Diagnostic.summary (d : Diagnostic) : String :=
  d.location ++ ": " ++ Text.firstLine d.message

/-- The position in a group, counted through the file and then the staged files from the outermost.
-/
abbrev Place := Nat

/-- The Go file while it is written. -/
structure Draft where
  file : SourceFile := {}
  staged : List SourceFile := []
  diagnostics : List Diagnostic := []
  scopes : List Scope := []
  log : List Event := []
deriving Inhabited

section Stack

def countIn (group : Group) (file : SourceFile) : List SourceFile → Place
  | [] => (file.group group).length
  | top :: below => countIn group file below + (top.group group).length

def growIn (group : Group) (place : Place) (grow : Decl → Decl) (file : SourceFile) :
    List SourceFile → SourceFile × List SourceFile
  | [] => (file.modifyGroup (·.modify place grow) group, [])
  | top :: below =>
    let outer := countIn group file below
    if outer ≤ place then
      (file, top.modifyGroup (·.modify (place - outer) grow) group :: below)
    else
      let grown := growIn group place grow file below
      (grown.1, top :: grown.2)

end Stack

namespace Draft

def ofPackage (packageName : String) : Draft :=
  { file := { packageName := packageName } }

section

variable (d : Draft)

def level : Nat :=
  d.staged.length

/-- New declarations go to the innermost staged file, else to the file itself. -/
def sink : SourceFile :=
  d.staged.head?.getD d.file

def modifySink (f : SourceFile → SourceFile) : Draft :=
  match d.staged with
  | [] => { d with file := f d.file }
  | top :: below => { d with staged := f top :: below }

def count (group : Group) : Place :=
  countIn group d.file d.staged

/-- Adds declarations to a group. -/
def add (group : Group) (decls : List Decl) : Draft :=
  d.modifySink fun file => file.modifyGroup (· ++ decls) group

/-- Changes the declaration at a place. -/
def grow (group : Group) (place : Place) (f : Decl → Decl) : Draft :=
  let grown := growIn group place f d.file d.staged
  { d with file := grown.1, staged := grown.2 }

def note (e : Event) : Draft :=
  { d with log := d.log ++ [e] }

def stage (packageName : String) : Draft :=
  { d with staged := { packageName := packageName } :: d.staged }

/-- Throws the innermost staged file away. -/
def discard : Draft :=
  { d with staged := d.staged.drop 1 }

/-- Merges the innermost staged file into the one below it. -/
def merge : Draft :=
  match d.staged with
  | [] => d
  | top :: below => { d with staged := below }.modifySink (·.merge top)

def trail : Trail where
  scopes := d.scopes
  imports := d.file.imports
  log := d.log

def withTrail (t : Trail) : Draft :=
  { d with scopes := t.scopes, log := t.log, file := { d.file with imports := t.imports } }

end

end Draft

namespace Failure

/-- A refusal that names a node is reported at that node. -/
def diagnostic (failure : Failure) (location : String) (member : Node) : Diagnostic where
  location := location
  message := failure.report
  source := (failure.nodeOr member).text
  sexpr := (failure.nodeOr member).sexpr
  kind := (failure.nodeOr member).kind
  category := failure.category

def failedMember (failure : Failure) (location : String) (member : Node) : Code.FailedMember where
  location := location
  error := failure.report
  source := member.text
  sexpr := (failure.nodeOr member).sexpr

end Failure

namespace Draft

/-- A failure leaves a diagnostic and a failed member in the file itself. -/
def recordFailure (d : Draft) (location : String) (member : Node) (failure : Failure) : Draft :=
  { d with
    diagnostics := d.diagnostics ++ [failure.diagnostic location member]
    file := { d.file with
      failed := d.file.failed ++ [.failed (failure.failedMember location member)] }
    log := d.log ++ [.memberFailed location failure.report] }

/-- Stages a file for a member. -/
def openMember (d : Draft) : Draft :=
  d.stage d.sink.packageName

/-- Merges the staged file of a member that succeeded, or throws it away and records the failure.
Returns what the member computed, or its diagnostic. -/
def closeMember {α : Type} (location : String) (member : Node) (outcome : Except Failure α)
    (d : Draft) : Except Diagnostic α × Draft :=
  match outcome with
  | .ok value => (.ok value, d.merge)
  | .error failure =>
    (.error (failure.diagnostic location member), d.discard.recordFailure location member failure)

end Draft

end JavaToGo
