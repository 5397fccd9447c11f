import JavaToGo.Tree.Kind

/-!
# Log events

What a run notes on its way: loading the settings and converting a unit.
-/

namespace JavaToGo

inductive Level where
  | debug | info | warning | error
deriving DecidableEq, Repr

def Level.word : Level → String
  | .debug => "DEBUG"
  | .info => "INFO"
  | .warning => "WARNING"
  | .error => "ERROR"

/-- What a run notes on its way. -/
inductive Event where
  | settingsDefaulted (reason : String)
  | parsed (path : String) (nodes : Nat)
  /-- The analysis is done; how much of each it recorded. -/
  | analyzed (methods constructors types : Nat)
  | analysisFailed (kind : Tree.Kind) (location : String) (message : String)
  | ambiguousMethod (name : String) (arguments : Nat) (chosen : String)
  | ambiguousConstructor (typeName chosen : String)
  | throwPassedThrough (exception location : String)
  | initializerDropped (typeName field : String)
  | abstractConstructorSkipped (typeName location : String)
  | argumentsDropped (constant : String)
  | argumentsMismatched (constant : String) (arguments fields : Nat)
  | enumConstructorSkipped (typeName location : String)
  | memberFailed (location message : String)
  | unitIncomplete (path : String) (failures : Nat)
  | unitClean (path : String)
deriving DecidableEq, Repr

namespace Event

/-- How serious an event is. -/
def level : Event → Level
  | .settingsDefaulted _ => .debug
  | .parsed .. => .debug
  | .analyzed .. => .debug
  | .analysisFailed .. => .warning
  | .ambiguousMethod .. => .warning
  | .ambiguousConstructor .. => .warning
  | .throwPassedThrough .. => .debug
  | .initializerDropped .. => .debug
  | .abstractConstructorSkipped .. => .debug
  | .argumentsDropped _ => .debug
  | .argumentsMismatched .. => .warning
  | .enumConstructorSkipped .. => .debug
  | .memberFailed .. => .error
  | .unitIncomplete .. => .warning
  | .unitClean _ => .info

def message : Event → String
  | .settingsDefaulted reason => "Using default configuration: " ++ reason
  | .parsed path nodes => "Parsed " ++ path ++ " into " ++ toString nodes ++ " nodes"
  | .analyzed methods constructors types =>
    "Analyzed " ++ toString methods ++ " methods, " ++ toString constructors
      ++ " constructors, " ++ toString types ++ " types"
  | .analysisFailed kind location message =>
    "Signature analysis failed for " ++ kind.name ++ " at " ++ location ++ ": " ++ message
  | .ambiguousMethod name arguments chosen =>
    "More than one possible method for " ++ name ++ " with " ++ toString arguments
      ++ " arguments, using " ++ chosen
  | .ambiguousConstructor typeName chosen =>
    "More than one possible constructor for " ++ typeName ++ ", using " ++ chosen
  | .throwPassedThrough exception location =>
    "Passing through throw of " ++ exception ++ " at " ++ location
  | .initializerDropped typeName field =>
    "Dropping initializer of " ++ typeName ++ "." ++ field ++ "; set it in the subclass"
  | .abstractConstructorSkipped typeName location =>
    "Skipping constructor of abstract class " ++ typeName ++ " at " ++ location
  | .argumentsDropped constant =>
    "Dropping constructor arguments of " ++ constant ++ ", no fields to hold them"
  | .argumentsMismatched constant arguments fields =>
    "Enum constant " ++ constant ++ " has " ++ toString arguments ++ " arguments for "
      ++ toString fields ++ " fields, leaving it zero-valued"
  | .enumConstructorSkipped typeName location =>
    "Skipping enum constructor of " ++ typeName ++ " at " ++ location
  | .memberFailed location message => "Error migrating " ++ location ++ ": " ++ message
  | .unitIncomplete path failures =>
    path ++ ": " ++ toString failures ++ " member(s) could not be migrated"
  | .unitClean path => path ++ ": migrated cleanly"

end Event

end JavaToGo
