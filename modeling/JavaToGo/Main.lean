import JavaToGo.CommandLine.Run
import JavaToGo.Tree.Parsed

/-!
# The program

Carries out the commands of the command line on real files.  The syntax tree of
a source is expected in a file of the same name with `.tree` behind it, where a
parser has left it.
-/

namespace JavaToGo
namespace CommandLine

open JavaToGo.Tree (Node)

def lookUp (path : String) : IO FileEntry := do
  match ← (IO.FS.readBinFile path).toBaseIO with
  | .ok bytes => return .file bytes
  | .error _ =>
    match ← (IO.FS.realPath path).toBaseIO with
    | .ok _ => return .directory
    | .error _ => return .absent

def placeOf (home : FilePlace) (path : Path) : FilePlace :=
  path.parts.foldl FileTree.stepTo (if path.isAbsolute then [] else home)

def filesAt (paths : List Path) : IO FileTree := do
  let home := (Path.ofString (← IO.currentDir).toString).parts
  let above := (List.range (home.length + 1)).map fun n => (home.take n, FileEntry.directory)
  let found ← (paths.flatMap Path.stages).mapM fun path =>
    return (placeOf home path, ← lookUp path.text)
  let entries := above ++ found
  return { home := home, entry := fun place => (entries.lookup place).getD .absent }

def usage : String :=
  "usage: translate SOURCE [DEST] [--strict] [--config PATH] [--report PATH] [--verbose]\n"
    ++ "       init [PATH]"

/-- The tree that a parser left for a source; without one the source has no declarations. -/
def parsedTree (path : String) : IO (List UInt8 → Node) := do
  match ← lookUp path with
  | .file bytes =>
    let document := (Document.read (Text.Utf8.decode bytes).toList).toOption.getD .null
    return fun source => (Node.ofDocument? source document).getD (Node.emptyUnit source)
  | _ =>
    IO.eprintln ("no syntax tree at " ++ path)
    return Node.emptyUnit

partial def readAll (input : IO.FS.Stream) (found : String) : IO String := do
  let line ← input.getLine
  if line.isEmpty then return found else readAll input (found ++ line)

/-- The input that a command asks for: only the question about an existing file needs any. -/
def inputFor (files : FileTree) (command : Command) : IO String := do
  match command with
  | .translate _ => return ""
  | .init file =>
    match files.isPresent (Path.ofString file) with
    | .ok true => readAll (← IO.getStdin) ""
    | _ => return ""

def writeOut (write : FilePlace × String) : IO Unit := do
  let text (place : FilePlace) : String := ({ anchor := "/", parts := place } : Path).text
  IO.FS.createDirAll (text write.1.dropLast)
  IO.FS.writeFile (text write.1) write.2

def carryOut (command : Command) : IO UInt32 := do
  let files ← filesAt command.paths
  let parse ← match command with
    | .translate request => parsedTree ((Path.ofString request.source).text ++ ".tree")
    | .init _ => pure Node.emptyUnit
  let world : World := { files := files, input := ← inputFor files command, parse := parse }
  let effect := perform (command.act world) files
  IO.print effect.output
  effect.messages.forM fun message => IO.eprintln message
  effect.writes.forM writeOut
  return effect.exitCode.toUInt32

end CommandLine
end JavaToGo

def main (arguments : List String) : IO UInt32 := do
  match JavaToGo.CommandLine.Command.ofArguments? arguments with
  | none =>
    IO.eprintln JavaToGo.CommandLine.usage
    return 2
  | some command => JavaToGo.CommandLine.carryOut command
