import JavaToGo.Declaration.AbstractClass
import JavaToGo.Declaration.Class
import JavaToGo.Declaration.Enum
import JavaToGo.Declaration.Interface
import JavaToGo.Declaration.Record

/-!
# Conversion
-/

namespace JavaToGo

namespace Build

/-- The rule for the kind of the type. -/
def typeDeclarationStep (go : Node → Build Unit) (node : Node) : Build Unit :=
  match node.kind with
  | .classDeclaration =>
    if node.modifiers.isAbstract then abstractClass go node else concreteClass go node
  | .interfaceDeclaration => interface go node
  | .enumDeclaration => enumeration go node
  | .recordDeclaration => record go node
  | _ => stop (.unhandledChild node "program")

def typeDeclarationWithin : Nat → Node → Build Unit
  | 0, _ => stop (.fault .tooDeep)
  | height + 1, node => typeDeclarationStep (typeDeclarationWithin height) node

/-- Types may be declared inside types. -/
def typeDeclaration (node : Node) : Build Unit :=
  typeDeclarationWithin node.height node

/-- What stands at the outermost level and becomes nothing. -/
def isIgnored (node : Node) : Bool :=
  match node.kind with
  | .packageDeclaration | .importDeclaration | .moduleDeclaration | .emptyStatement => true
  | kind => kind.isComment

def declarations : List Node → Build Unit
  | [] => return
  | node :: nodes => do
    let _ ← member node.declarationLocation node (typeDeclaration node)
    declarations nodes

/-- Every declaration at the outermost level has a boundary of its own. -/
def wholeUnit : Build Unit := do
  declarations ((← context).unit.root.children.filter fun n => !isIgnored n)

end Build

def Draft.noteOutcome (d : Draft) (path : String) : Draft :=
  let failures := d.diagnostics.length
  d.note (if failures = 0 then .unitClean path else .unitIncomplete path failures)

/-- How a conversion ends, with what it leaves. -/
structure Conversion where
  outcome : Except Failure Unit
  symbols : Symbols
  draft : Draft

def Draft.ofUnit (unit : CompilationUnit) (log : List Event) : Draft :=
  { Draft.ofPackage unit.settings.packageName with log := log }

/-- First the analysis, then the declarations. -/
def convert (mode : Mode) (unit : CompilationUnit) : Conversion :=
  let (analyzed, findings) := analyze mode unit [] {}
  let draft := Draft.ofUnit unit findings.log
  match analyzed with
  | .error failure => { outcome := .error failure, symbols := findings.symbols, draft := draft }
  | .ok _ =>
    match Build.wholeUnit.runAt mode (Context.ofUnit unit findings.symbols) draft with
    | (.error failure, draft) =>
      { outcome := .error failure, symbols := findings.symbols, draft := draft }
    | (.ok _, draft) =>
      { outcome := .ok (), symbols := findings.symbols, draft := draft.noteOutcome unit.path }

def Draft.render (d : Draft) (settings : Settings) : String :=
  d.file.text settings.licenseHeader

end JavaToGo
