import JavaToGo.Text.Quoted

/-!
# Paths and files

Every part of a path but the last has to lead to a directory; two dots lead to the
directory above, and above the root is the root.
-/

namespace JavaToGo

/-- A path: the slashes in front of it and the parts that count. -/
structure Path where
  anchor : String := ""
  parts : List String := []
deriving DecidableEq, Repr, Inhabited

namespace Path

/-- The slashes in front; two of them, and no third one, are kept. -/
def anchorOf : List Char → String
  | '/' :: '/' :: '/' :: _ => "/"
  | '/' :: '/' :: _ => "//"
  | '/' :: _ => "/"
  | _ => ""

/-- Empty parts, and parts that are a single dot, do not count. -/
def ofString (s : String) : Path where
  anchor := anchorOf s.toList
  parts := ((s.toList.splitOn '/').map String.ofList).filter fun p => p != "" && p != "."

/-- The path as it is shown. -/
def text (path : Path) : String :=
  if path.anchor.isEmpty && path.parts.isEmpty then "."
  else path.anchor ++ "/".intercalate path.parts

def isAbsolute (path : Path) : Bool :=
  !path.anchor.isEmpty

/-- Whether a zero character stands in the path; no file has such a name. -/
def hasZero (path : Path) : Bool :=
  path.parts.any fun part => part.toList.contains '\x00'

def parent (path : Path) : Path :=
  { path with parts := path.parts.dropLast }

/-- The directories on the way, the nearest to the path first. -/
def stages (path : Path) : List Path :=
  (List.range (path.parts.length + 1)).reverse.map fun n =>
    { path with parts := path.parts.take n }

end Path

inductive FileEntry where
  | absent
  | directory
  | file (bytes : ByteArray)

/-- The names that lead to a place from the root. -/
abbrev FilePlace := List String

/-- What is found at each place, and the working directory. -/
structure FileTree where
  entry : FilePlace → FileEntry
  home : FilePlace := []

/-- Why a path cannot be followed. -/
inductive PathFault where
  | notFound
  | notDirectory
  | isDirectory
  | fileExists
  | nameTooLong
  | zeroCharacter
deriving DecidableEq, Repr

namespace PathFault

def number : PathFault → Nat
  | .notFound => 2
  | .fileExists => 17
  | .notDirectory => 20
  | .isDirectory => 21
  | .zeroCharacter => 22
  | .nameTooLong => 36

def words : PathFault → String
  | .notFound => "No such file or directory"
  | .fileExists => "File exists"
  | .notDirectory => "Not a directory"
  | .isDirectory => "Is a directory"
  | .zeroCharacter => "Invalid argument"
  | .nameTooLong => "File name too long"

/-- What the system says about a path. -/
def message (fault : PathFault) (path : Path) : String :=
  "[Errno " ++ toString fault.number ++ "] " ++ fault.words ++ ": " ++ Text.quoted path.text

end PathFault

def longestName : Nat := 255

def longestPath : Nat := 4095

namespace FileTree

/-- The tree of some files and directories below the working directory, with the directories that
lead to them. -/
def ofList (home : FilePlace) (files : List (Path × FileEntry)) : FileTree :=
  let places := files.map fun f => (home ++ f.1.parts, f.2)
  { home := home
    entry := fun place =>
      match places.lookup place with
      | some entry => entry
      | none =>
        if place.isPrefixOf home || places.any (place.isPrefixOf ·.1) then .directory
        else .absent }

def set (t : FileTree) (place : FilePlace) (e : FileEntry) : FileTree :=
  { t with entry := fun p => if p = place then e else t.entry p }

section Walking

def stepTo (place : FilePlace) (part : String) : FilePlace :=
  if part = ".." then place.dropLast else place ++ [part]

/-- Follows the parts of a path from a place. -/
def walk (t : FileTree) (place : FilePlace) : List String → Except PathFault FilePlace
  | [] => .ok place
  | part :: parts =>
    match t.entry place with
    | .absent => .error .notFound
    | .file _ => .error .notDirectory
    | .directory =>
      if longestName < part.utf8ByteSize then .error .nameTooLong
      else walk t (stepTo place part) parts

def start (t : FileTree) (path : Path) : FilePlace :=
  if path.isAbsolute then [] else t.home

/-- The place that a path leads to. -/
def resolve (t : FileTree) (path : Path) : Except PathFault FilePlace :=
  if path.hasZero then .error .zeroCharacter
  else if longestPath < path.text.utf8ByteSize then .error .nameTooLong
  else t.walk (t.start path) path.parts

/-- Whether there is a file or a directory. -/
def isPresent (t : FileTree) (path : Path) : Except PathFault Bool :=
  match t.resolve path with
  | .error .nameTooLong => .error .nameTooLong
  | .error _ => .ok false
  | .ok place =>
    match t.entry place with
    | .absent => .ok false
    | _ => .ok true

def isDirectory (t : FileTree) (path : Path) : Bool :=
  match t.resolve path with
  | .error _ => false
  | .ok place =>
    match t.entry place with
    | .directory => true
    | _ => false

end Walking

section Access

def read (t : FileTree) (path : Path) : Except PathFault ByteArray := do
  match t.entry (← t.resolve path) with
  | .file bytes => return bytes
  | .directory => throw .isDirectory
  | .absent => throw .notFound

/-- Writes a file; returns its place too. -/
def write (t : FileTree) (path : Path) (bytes : ByteArray) :
    Except PathFault (FilePlace × FileTree) := do
  let place ← t.resolve path
  match t.entry place with
  | .directory => throw .isDirectory
  | _ => return (place, t.set place (.file bytes))

def makeDirectory (t : FileTree) (path : Path) : Except PathFault FileTree := do
  let place ← t.resolve path
  match t.entry place with
  | .absent => return t.set place .directory
  | _ => throw .fileExists

/-- Makes a directory where there is none. -/
def ensureDirectory (t : FileTree) (path : Path) : Except PathFault FileTree :=
  match t.makeDirectory path with
  | .ok made => .ok made
  | .error fault => if t.isDirectory path then .ok t else .error fault

/-- Makes every directory of a list, longest path first, unless it is there; those further up are
made only when one is missing. -/
def ensureStages (t : FileTree) : List Path → Except PathFault FileTree
  | [] => .ok t
  | path :: above =>
    match t.makeDirectory path with
    | .ok made => .ok made
    | .error .notFound =>
      if above.isEmpty then .error .notFound
      else do (← ensureStages t above).ensureDirectory path
    | .error fault => if t.isDirectory path then .ok t else .error fault

/-- Makes the directories that a path needs. -/
def ensureParents (t : FileTree) (path : Path) : Except PathFault FileTree :=
  t.ensureStages path.parent.stages

def isChange (t : FileTree) (place : FilePlace) (text : String) : Bool :=
  match t.entry place with
  | .file bytes => bytes != text.toUTF8
  | _ => true

end Access

end FileTree

end JavaToGo
