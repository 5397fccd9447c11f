import JavaToGo.Code.Decl

/-!
# Go source files

The text lists the imports and then one group of declarations after the other,
each in the order in which its members were added.  A group takes any declaration.
-/

namespace JavaToGo.Code

/-- A Go file: its declarations are kept in groups. -/
structure SourceFile where
  packageName : String := "converted"
  imports : List Import := []
  interfaces : List Decl := []
  types : List Decl := []
  constBlocks : List Decl := []
  constants : List Decl := []
  vars : List Decl := []
  functions : List Decl := []
  methods : List Decl := []
  failed : List Decl := []
deriving Repr, BEq, Inhabited

/-- The groups of declarations that a file keeps apart. -/
inductive Group where
  | interfaces | types | constBlocks | constants | vars | functions | methods
deriving DecidableEq, Repr, Inhabited

/-- Adds an import, unless its path is there already. -/
def addImport (imports : List Import) (i : Import) : List Import :=
  if imports.any (·.path == i.path) then imports else imports ++ [i]

/-- Imports several paths; the alias given first stays. -/
def addImports (imports added : List Import) : List Import :=
  added.foldl addImport imports

namespace SourceFile

def importing (file : SourceFile) (path : String) (localName : Option String := none) :
    SourceFile :=
  { file with imports := addImport file.imports ⟨path, localName⟩ }

def group (file : SourceFile) : Group → List Decl
  | .interfaces => file.interfaces
  | .types => file.types
  | .constBlocks => file.constBlocks
  | .constants => file.constants
  | .vars => file.vars
  | .functions => file.functions
  | .methods => file.methods

def modifyGroup (file : SourceFile) (f : List Decl → List Decl) : Group → SourceFile
  | .interfaces => { file with interfaces := f file.interfaces }
  | .types => { file with types := f file.types }
  | .constBlocks => { file with constBlocks := f file.constBlocks }
  | .constants => { file with constants := f file.constants }
  | .vars => { file with vars := f file.vars }
  | .functions => { file with functions := f file.functions }
  | .methods => { file with methods := f file.methods }

/-- A file with the imports and declarations of another behind its own. -/
def merge (file other : SourceFile) : SourceFile where
  packageName := file.packageName
  imports := addImports file.imports other.imports
  interfaces := file.interfaces ++ other.interfaces
  types := file.types ++ other.types
  constBlocks := file.constBlocks ++ other.constBlocks
  constants := file.constants ++ other.constants
  vars := file.vars ++ other.vars
  functions := file.functions ++ other.functions
  methods := file.methods ++ other.methods
  failed := file.failed ++ other.failed

/-- All declarations, in the order in which they are written. -/
def decls (file : SourceFile) : List Decl :=
  file.interfaces ++ file.types ++ file.constBlocks ++ file.constants ++ file.vars
    ++ file.functions ++ file.methods ++ file.failed

/-- Whether the file declares nothing; imports do not count. -/
def isEmpty (file : SourceFile) : Bool :=
  file.decls.isEmpty

def headerText (licenseHeader : String) : String :=
  String.ofList (Text.trimNewlines (Text.unixBreaks licenseHeader.toList))

def importsText (imports : List Import) : String :=
  Text.unlines ("import (" :: imports.map (fun i => "\t" ++ i.text) ++ [")"])

/-- The parts of the text that blank lines keep apart. -/
def sections (file : SourceFile) (licenseHeader : String) (packageName : Option String) :
    List String :=
  (if (headerText licenseHeader).isEmpty then [] else [headerText licenseHeader])
    ++ ["package " ++ (presentText packageName).getD file.packageName]
    ++ (if file.imports.isEmpty then [] else [importsText file.imports])
    ++ file.decls.map Decl.text

def text (file : SourceFile) (licenseHeader : String := "") (packageName : Option String := none) :
    String :=
  "\n\n".intercalate (file.sections licenseHeader packageName) ++ "\n"

/-- Whether rendering the file meets no hole. -/
def complete (file : SourceFile) : Bool :=
  file.decls.all Decl.complete

end SourceFile

variable {imports : List Import}

theorem addImport_of_mem {i : Import} (h : i.path ∈ imports.map Import.path) :
    addImport imports i = imports := by
  obtain ⟨j, hj, hpath⟩ := List.mem_map.1 h
  have hany : imports.any (·.path == i.path) = true :=
    List.any_eq_true.2 ⟨j, hj, by simp [hpath]⟩
  simp [addImport, hany]

theorem addImport_of_not_mem {i : Import} (h : i.path ∉ imports.map Import.path) :
    addImport imports i = imports ++ [i] := by
  have hany : imports.any (·.path == i.path) = false := by
    rw [List.any_eq_false]
    intro j hj hpath
    exact h (List.mem_map.2 ⟨j, hj, by simpa using hpath⟩)
  simp [addImport, hany]

theorem imports_addImport_nodup (i : Import) (h : (imports.map Import.path).Nodup) :
    ((addImport imports i).map Import.path).Nodup := by
  by_cases hi : i.path ∈ imports.map Import.path
  · rwa [addImport_of_mem hi]
  · rw [addImport_of_not_mem hi, List.map_append, List.nodup_append]
    refine ⟨h, by simp, ?_⟩
    intro a ha b hb
    have hbi : b = i.path := by simpa using hb
    rintro rfl
    exact hi (hbi ▸ ha)

@[simp] theorem SourceFile.merge_empty (file : SourceFile) (packageName : String) :
    file.merge { packageName := packageName } = file := by
  simp [SourceFile.merge, addImports]

end Code

export Code (Group SourceFile)

end JavaToGo
