import JavaToGo.Console.Markup
import JavaToGo.Settings.Load
import JavaToGo.Text.Terminal

/-!
# Acts
-/

namespace JavaToGo.CommandLine

inductive Crash where
  | settings (error : SettingsError)
  | path (fault : PathFault)
  | message (fault : Console.MarkupFault)
deriving Repr

/-- What was done before a command is stopped stays done. -/
structure Progress where
  files : FileTree
  output : String := ""
  messages : List String := []
  writes : List (FilePlace × String) := []
  log : List Event := []

inductive Stop where
  | exit (code : Nat)
  | crash (crash : Crash)
deriving Repr

/-- What a command does, as a value; only the outer layer carries it out. -/
abbrev Act := ExceptT Stop (StateM Progress)

namespace Act

def exit {α : Type} (code : Nat) : Act α :=
  throw (.exit code)

def ofPath {α : Type} (x : Except PathFault α) : Act α :=
  match x with
  | .ok a => return a
  | .error fault => throw (.crash (.path fault))

def print (text : String) : Act Unit :=
  modify fun p => { p with output := p.output ++ Text.withoutSequences text }

/-- Prints a message with its markup. -/
def say (message : String) : Act Unit :=
  match Console.render message with
  | .ok text => modify fun p => { p with messages := p.messages ++ [text] }
  | .error fault => throw (.crash (.message fault))

def note (events : List Event) : Act Unit :=
  modify fun p => { p with log := p.log ++ events }

def writeFile (path : Path) (text : String) : Act Unit := do
  let p ← get
  let (place, files) ← ofPath (p.files.write path text.toUTF8)
  set { p with files := files, writes := p.writes ++ [(place, text)] }

def ensureParents (path : Path) : Act Unit := do
  let p ← get
  set { p with files := ← ofPath (p.files.ensureParents path) }

end Act

/-- What a command prints and writes, and how it ends. -/
structure Effect where
  exitCode : Nat := 0
  output : String := ""
  messages : List String := []
  writes : List (FilePlace × String) := []
  log : List Event := []
  crash : Option Crash := none

/-- How a command ended: its exit code, and what stopped it from outside. -/
def ending : Except Stop Unit → Nat × Option Crash
  | .ok _ => (0, none)
  | .error (.exit code) => (code, none)
  | .error (.crash crash) => (1, some crash)

/-- Carries an act out on files. -/
def perform (act : Act Unit) (files : FileTree) : Effect :=
  let (outcome, p) := act.run.run { files := files }
  { exitCode := (ending outcome).1
    output := String.ofList (Text.newlineBreaks p.output.toList)
    messages := p.messages
    writes := p.writes
    log := p.log
    crash := (ending outcome).2 }

/-- The files below the working directory that a command changed, with their paths from there and
what they hold in the end. -/
def Effect.changes (e : Effect) (files : FileTree) : List (String × String) :=
  let written := (Table.ofList e.writes).entries.filter fun w =>
    files.home.isPrefixOf w.1 && files.isChange w.1 w.2
  written.map fun w => (({ parts := w.1.drop files.home.length } : Path).text, w.2)

end JavaToGo.CommandLine
