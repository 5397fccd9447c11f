import JavaToGo.Document.Value
import JavaToGo.Event
import JavaToGo.Files.Tree
import JavaToGo.Settings
import JavaToGo.Text.Lines

/-!
# Loading settings
-/

namespace JavaToGo

inductive FieldType where
  | text | list | table
deriving DecidableEq, Repr

def FieldType.words : FieldType → String
  | .text => "string [type=string_type"
  | .list => "list [type=list_type"
  | .table => "dictionary [type=dict_type"

/-- A field of the wrong type makes the document invalid. -/
structure FieldProblem where
  /-- The field, and the key or the position inside of it. -/
  location : List String
  wanted : FieldType
  found : Document
deriving Repr, BEq

namespace FieldProblem

def fitting (cs : List Char) (bytes : Nat) : List Char :=
  match cs with
  | [] => []
  | c :: cs => if c.utf8Size ≤ bytes then c :: fitting cs (bytes - c.utf8Size) else []

/-- A text with its middle left out when it is long. -/
def abridged (s : String) : String :=
  if s.utf8ByteSize ≤ 50 then s
  else
    String.ofList (fitting s.toList 25) ++ "..."
      ++ String.ofList (fitting s.toList.reverse 24).reverse

/-- A part of a location; one with a dot is put between quotes. -/
def partText (part : String) : String :=
  if part.toList.contains '.' then "\x60" ++ part ++ "\x60" else part

def message (p : FieldProblem) : String :=
  ".".intercalate (p.location.map partText) ++ "\n  Input should be a valid " ++ p.wanted.words
    ++ ", input_value=" ++ abridged p.found.shown ++ "]"

end FieldProblem

/-- What is wrong with a configuration; the defaults are used instead. -/
inductive ConfigurationCause where
  | empty
  | notAMapping
  | invalid (problems : List FieldProblem)
  | notFound (path : Path)
  | malformed (path : Path) (problem : Document.Problem)
  | unreadable (path : Path) (fault : PathFault)
deriving Repr

namespace ConfigurationCause

def title : ConfigurationCause → String
  | .empty => "Configuration file is empty"
  | .notAMapping => "Configuration root must be a mapping"
  | .invalid _ => "Configuration validation failed"
  | .notFound _ => "Configuration file not found"
  | .malformed .. => "Invalid YAML in configuration file"
  | .unreadable .. => "Cannot read configuration file"

def message (cause : ConfigurationCause) : String :=
  cause.title ++
    match cause with
    | .empty | .notAMapping => ""
    | .invalid problems => ":\n" ++ Text.unlines (problems.map FieldProblem.message)
    | .notFound path => ": " ++ path.text
    | .malformed path problem => ": " ++ problem.message path.text
    | .unreadable path fault => " " ++ path.text ++ ": " ++ fault.message path

end ConfigurationCause

/-- Only the causes that are no problem of the configuration end a run. -/
inductive SettingsError where
  | configuration (cause : ConfigurationCause)
  | keyNotText
  | notText
  | noSuchValue (fault : Document.ReadFault)
  | path (fault : PathFault)
deriving Repr

def defaultSettingsFile : String := "gomorph.yaml"

namespace Settings

section Fields

/-- What a check gives, or all problems that it has found. -/
abbrev Checked := Except (List FieldProblem)

def problemsOf {α : Type} : Checked α → List FieldProblem
  | .ok _ => []
  | .error problems => problems

/-- All results, or the problems of all checks. -/
def allOf {α : Type} : List (Checked α) → Checked (List α)
  | [] => .ok []
  | first :: rest =>
    match first, allOf rest with
    | .ok a, .ok as => .ok (a :: as)
    | first, rest => .error (problemsOf first ++ problemsOf rest)

/-- Bytes count as the text that they encode. -/
def checkText (location : List String) : Document → Checked String
  | .text value => .ok value
  | .bytes content =>
    match String.fromUTF8? ⟨content.toArray⟩ with
    | some value => .ok value
    | none => .error [⟨location, .text, .bytes content⟩]
  | found => .error [⟨location, .text, found⟩]

def checkItems (field : String) (position : Nat) : List Document → List (Checked String)
  | [] => []
  | item :: items =>
    checkText [field, toString position] item :: checkItems field (position + 1) items

def keyText (key : Document) : String :=
  key.asText?.getD key.shown

def checkEntry (field : String) (entry : Document × Document) : Checked (String × String) :=
  let key := keyText entry.1
  match checkText [field, key, "[key]"] entry.1, checkText [field, key] entry.2 with
  | .ok key, .ok value => .ok (key, value)
  | key, value => .error (problemsOf key ++ problemsOf value)

/-- A field that is absent keeps its default. -/
def textField (entries : List (Document × Document)) (name default : String) : Checked String :=
  match Document.fieldOf? name entries with
  | none => .ok default
  | some value => checkText [name] value

def textsField (entries : List (Document × Document)) (name : String) (default : List String) :
    Checked (List String) :=
  match Document.fieldOf? name entries with
  | none => .ok default
  | some (.list items) => allOf (checkItems name 0 items)
  | some found => .error [⟨[name], .list, found⟩]

def tableField (entries : List (Document × Document)) (name : String)
    (default : Table String String) : Checked (Table String String) :=
  match Document.fieldOf? name entries with
  | none => .ok default
  | some (.mapping found) => do return Table.ofList (← allOf (found.map (checkEntry name)))
  | some found => .error [⟨[name], .table, found⟩]

end Fields

/-- The settings that the fields give; keys that are no fields are ignored. -/
def validated (entries : List (Document × Document)) : Checked Settings :=
  let defaults : Settings := {}
  let packageName := textField entries "package_name" defaults.packageName
  let licenseHeader := textField entries "license_header" defaults.licenseHeader
  let typeMappings := tableField entries "type_mappings" defaults.typeMappings
  let stripped := textsField entries "strip_type_prefixes" defaults.strippedPrefixes
  let packages := tableField entries "internal_type_prefixes" defaults.packagePrefixes
  match packageName, licenseHeader, typeMappings, stripped, packages with
  | .ok packageName, .ok licenseHeader, .ok typeMappings, .ok stripped, .ok packages =>
    .ok { packageName := packageName, licenseHeader := licenseHeader,
          typeMappings := typeMappings, strippedPrefixes := stripped,
          packagePrefixes := packages }
  | packageName, licenseHeader, typeMappings, stripped, packages =>
    .error (problemsOf packageName ++ problemsOf licenseHeader
      ++ problemsOf typeMappings ++ problemsOf stripped ++ problemsOf packages)

/-- What reads the text of a configuration, and what checks its fields. -/
structure Loader where
  read : List Char → Except Document.ReadFault Document := Document.read
  validate : List (Document × Document) → Checked Settings := validated

/-- Every key has to be a text before the fields are checked. -/
def ofEntries (entries : List (Document × Document)) (l : Loader := {}) :
    Except SettingsError Settings :=
  if entries.any fun e => e.1.asText?.isNone then .error .keyNotText
  else (l.validate entries).mapError fun problems => .configuration (.invalid problems)

/-- A package without a name gets the default one, and the header the line breaks of Go. -/
def normalized (s : Settings) : Settings :=
  { s with
    packageName := if (Text.trimmed s.packageName).isEmpty then ({} : Settings).packageName
      else s.packageName
    licenseHeader := String.ofList (Text.unixBreaks s.licenseHeader.toList) }

/-- The settings in a document, which has to be a mapping. -/
def ofDocument (document : Document) (l : Loader := {}) : Except SettingsError Settings :=
  match document with
  | .null => .error (.configuration .empty)
  | .mapping entries => do return (← ofEntries entries l).normalized
  | _ => .error (.configuration .notAMapping)

def ofBytes (path : Path) (bytes : ByteArray) (l : Loader := {}) :
    Except SettingsError Settings :=
  match String.fromUTF8? bytes with
  | none => .error .notText
  | some text =>
    match l.read (Text.unixBreaks text.toList) with
    | .error (.malformed problem) => .error (.configuration (.malformed path problem))
    | .error fault => .error (.noSuchValue fault)
    | .ok document => ofDocument document l

def ofFile (files : FileTree) (path : Path) (l : Loader := {}) : Except SettingsError Settings :=
  match files.isPresent path with
  | .error fault => .error (.path fault)
  | .ok false => .error (.configuration (.notFound path))
  | .ok true =>
    match files.read path with
    | .error fault => .error (.configuration (.unreadable path fault))
    | .ok bytes => ofBytes path bytes l

/-- The settings in a file, or the defaults when there is a problem with the configuration, which
is noted. -/
def ofFileOrDefault (files : FileTree) (path : Path) (l : Loader := {}) :
    Except SettingsError Settings × List Event :=
  match ofFile files path l with
  | .error (.configuration cause) => (.ok {}, [.settingsDefaulted cause.message])
  | outcome => (outcome, [])

end Settings

def sampleSettings : String :=
  "package_name: converted\nlicense_header: ''\ntype_mappings:\n  BigDecimal: float64\n"
    ++ "strip_type_prefixes:\n- Abstract\n- LexerTerminals\ninternal_type_prefixes:\n"
    ++ "  ST: internal\n"

end JavaToGo
