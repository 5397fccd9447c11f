import JavaToGo.CommandLine.Act
import JavaToGo.CommandLine.Arguments
import JavaToGo.Conversion
import JavaToGo.Document.Written

/-!
# Running a command

Exit codes are zero for success, one for a source or a conversion that failed, two
for arguments that cannot be used.
-/

namespace JavaToGo.CommandLine

/-- What a command finds: the files, the input and a parser. -/
structure World where
  files : FileTree
  input : String := ""
  parse : List UInt8 → Node

section Report

def diagnosticDocument (d : Diagnostic) : Document :=
  .mapping [(.text "location", .text d.location), (.text "message", .text d.message),
    (.text "java_source", .text d.source), (.text "sexpr", .text d.sexpr),
    (.text "node_kind", .text d.kind.name), (.text "category", .text d.category.word)]

def report (source : String) (mode : Mode) (diagnostics : List Diagnostic) : String :=
  Document.written 0 (.mapping
    [(.text "source", .text source), (.text "mode", .text mode.word),
      (.text "migrated_cleanly", .bool diagnostics.isEmpty),
      (.text "diagnostics", .list (diagnostics.map diagnosticDocument))])

end Report

namespace Act

section Translate

/-- Says what ended the command, and ends it. -/
def fatal {α : Type} (reason : String) : Act α := do
  say ("[bold red]Fatal:[/bold red] " ++ reason)
  exit 1

def readSource (path : Path) : Act (List UInt8) := do
  match (← get).files.read path with
  | .ok bytes => return bytes.toList
  | .error fault => fatal ("cannot read " ++ path.text ++ ": " ++ fault.message path)

def defaultSettings : Act Settings := do
  let files := (← get).files
  let path : Path := { anchor := "/", parts := files.home ++ [defaultSettingsFile] }
  let (outcome, events) := Settings.ofFileOrDefault files path
  note events
  match outcome with
  | .ok settings => return settings
  | .error error => throw (.crash (.settings error))

/-- The settings for a conversion: those of the given file, else those of the default one.  A
problem with the configuration leaves the defaults. -/
def settingsFor : Option String → Act Settings
  | none => defaultSettings
  | some file => do
    match Settings.ofFile (← get).files (Path.ofString file) with
    | .ok settings => return settings
    | .error (.configuration cause) =>
      say ("[yellow]Configuration ignored:[/yellow] " ++ cause.message)
      return {}
    | .error error => throw (.crash (.settings error))

def conversionFailed {α : Type} : Failure → Act α
  | .fault fault => fatal fault.message
  | .refusal refusal => do
    say ("[bold red]Fatal:[/bold red] " ++ refusal.message)
    if let some node := refusal.node then say ("[dim]" ++ node.sexpr ++ "[/dim]")
    exit 1

/-- Converts a unit and notes what happens. -/
def convertUnit (mode : Mode) (unit : CompilationUnit) : Act Draft := do
  let done := convert mode unit
  note (.parsed unit.path unit.root.walk.length :: done.draft.log)
  match done.outcome with
  | .ok _ => return done.draft
  | .error failure => conversionFailed failure

/-- Hands the Go text to the user: to a file, or to the output. -/
def deliver (dest : Option String) (text : String) : Act Unit :=
  match dest with
  | none => print text
  | some dest => do
    let path := Path.ofString dest
    ensureParents path
    writeFile path text
    say ("[green]✓[/green] Wrote " ++ path.text)

def showDiagnostics (diagnostics : List Diagnostic) : Act Unit := do
  diagnostics.forM fun d => say d.location
  diagnostics.forM fun d => say d.category.word
  diagnostics.forM fun d => say d.kind.name
  diagnostics.forM fun d => say (Text.firstLine d.message)

def writeReport (file : Option String) (text : String) : Act Unit :=
  match file with
  | none => return ()
  | some file => do
    let path := Path.ofString file
    writeFile path text
    say ("[green]✓[/green] Wrote report " ++ path.text)

/-- Paths with a zero character cannot be used. -/
def checkPaths (request : Translate) : Act Unit := do
  if request.paths.any fun path => path.hasZero then throw (.crash (.path .zeroCharacter))

/-- Converts a file, writes the result and reports. -/
def translate (parse : List UInt8 → Node) (request : Translate) : Act Unit := do
  checkPaths request
  let path := Path.ofString request.source
  let bytes ← readSource path
  let settings ← settingsFor request.settingsFile
  let unit : CompilationUnit := { root := parse bytes, path := path.text, settings := settings }
  let mode : Mode := if request.strict then .strict else .tolerant
  let draft ← convertUnit mode unit
  deliver request.dest (draft.render settings)
  showDiagnostics draft.diagnostics
  writeReport request.report (report unit.path mode draft.diagnostics)

end Translate

section Init

inductive Answer where
  | yes | no | unclear
deriving DecidableEq, Repr

/-- What a line of input answers; nothing stands for no. -/
def answerOf (line : List Char) : Answer :=
  let word := Text.lowerAll (String.ofList (Text.trim line))
  if word = "y" || word = "yes" then .yes
  else if word = "" || word = "n" || word = "no" then .no
  else .unclear

def inputLines (input : String) : List (List Char) :=
  let pieces := (Text.unixBreaks input.toList).splitOn '\n'
  if pieces.getLast? = some [] then pieces.dropLast else pieces

def echo (line : List Char) : Act Unit :=
  modify fun p => { p with output := p.output ++ String.ofList line ++ "\n" }

/-- Asks until there is an answer; the end of the input is a no. -/
def confirm (question : String) : List (List Char) → Act Bool
  | [] => do
    print question
    return false
  | line :: lines => do
    print question
    echo line
    match answerOf line with
    | .yes => return true
    | .no => return false
    | .unclear =>
      print "Error: invalid input\n"
      confirm question lines

def confirmOverwrite (file input : String) : Act Unit := do
  if !(← confirm (file ++ " already exists. Overwrite? [y/N]: ") (inputLines input)) then
    say "[yellow]Cancelled.[/yellow]"
    exit 1

/-- Writes a file with the default settings; one that is there is kept unless the user agrees. -/
def init (file input : String) : Act Unit := do
  let path := Path.ofString file
  if ← ofPath ((← get).files.isPresent path) then confirmOverwrite file input
  writeFile path sampleSettings
  say ("[green]✓[/green] Generated configuration file: " ++ file)

end Init

end Act

def Command.act (world : World) : Command → Act Unit
  | .translate request => Act.translate world.parse request
  | .init file => Act.init file world.input

/-- The effect of a command line. -/
def run (world : World) (arguments : List String) : Effect :=
  match Command.ofArguments? arguments with
  | none => perform (Act.exit 2) world.files
  | some command => perform (command.act world) world.files

end JavaToGo.CommandLine
