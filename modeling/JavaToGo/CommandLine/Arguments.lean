import JavaToGo.Settings.Load

/-!
# Arguments
-/

namespace JavaToGo.CommandLine

/-- A request to convert a file. -/
structure Translate where
  source : String
  dest : Option String := none
  strict : Bool := false
  settingsFile : Option String := none
  report : Option String := none
  verbose : Bool := false
deriving DecidableEq, Repr, Inhabited

inductive Command where
  | translate (request : Translate)
  /-- Write a file with the default settings. -/
  | init (path : String)
deriving DecidableEq, Repr

def Translate.paths (request : Translate) : List Path :=
  ([request.source, request.settingsFile.getD defaultSettingsFile] ++ request.dest.toList
    ++ request.report.toList).map Path.ofString

def Command.paths : Command → List Path
  | .translate request => request.paths
  | .init file => [Path.ofString file]

inductive Flag where
  | strict | verbose | settingsFile | report
deriving DecidableEq, Repr

def Flag.takesValue : Flag → Bool
  | .strict | .verbose => false
  | .settingsFile | .report => true

def longFlag? : String → Option Flag
  | "--strict" => some .strict
  | "--verbose" => some .verbose
  | "--config" => some .settingsFile
  | "--report" => some .report
  | _ => none

def shortFlag? : Char → Option Flag
  | 'W' => some .strict
  | 'v' => some .verbose
  | 'c' => some .settingsFile
  | _ => none

/-- What was read: options with their values, and the other arguments. -/
structure Arguments where
  flags : List (Flag × String) := []
  others : List String := []
deriving Repr, Inhabited

namespace Arguments

def addFlag (a : Arguments) (flag : Flag) (value : String) : Arguments :=
  { a with flags := a.flags ++ [(flag, value)] }

def addOther (a : Arguments) (argument : String) : Arguments :=
  { a with others := a.others ++ [argument] }

def has (a : Arguments) (flag : Flag) : Bool :=
  a.flags.any fun f => f.1 = flag

/-- Of an option given twice, the last value counts. -/
def value? (a : Arguments) (flag : Flag) : Option String :=
  ((a.flags.filter fun f => f.1 = flag).getLast?).map Prod.snd

end Arguments

section Reading

/-- A name in front of an equals sign, and the value behind it. -/
def assigned : List Char → String × Option String
  | cs =>
    match cs.dropWhile (· != '=') with
    | [] => (String.ofList cs, none)
    | _ :: value => (String.ofList (cs.takeWhile (· != '=')), some (String.ofList value))

/-- What a group of letters says, with the value of its last option if that is still to come. -/
def readLetters (a : Arguments) : List Char → Option (Arguments × Option Flag)
  | [] => some (a, none)
  | c :: cs =>
    match shortFlag? c with
    | none => none
    | some flag =>
      if flag.takesValue then
        if cs.isEmpty then some (a, some flag)
        else some (a.addFlag flag (String.ofList cs), none)
      else readLetters (a.addFlag flag "") cs

/-- Short options may be joined; a value stands behind an equals sign or in the next argument. -/
def readArgument (a : Arguments) (argument : String) : Option (Arguments × Option Flag) :=
  match argument.toList with
  | '-' :: '-' :: _ =>
    match assigned argument.toList with
    | (name, value) =>
      match longFlag? name, value with
      | none, _ => none
      | some flag, none =>
        some (if flag.takesValue then (a, some flag) else (a.addFlag flag "", none))
      | some flag, some v => if flag.takesValue then some (a.addFlag flag v, none) else none
  | ['-'] => some (a.addOther argument, none)
  | '-' :: letters => readLetters a letters
  | _ => some (a.addOther argument, none)

/-- What the arguments say behind what was read; `waiting` is an option without its value yet. -/
def readArguments (a : Arguments) (waiting : Option Flag) : List String → Option Arguments
  | [] => if waiting.isSome then none else some a
  | argument :: rest =>
    match waiting with
    | some flag => readArguments (a.addFlag flag argument) none rest
    | none =>
      if argument = "--" then some { a with others := a.others ++ rest }
      else
        match readArgument a argument with
        | none => none
        | some (read, waiting) => readArguments read waiting rest

def translateOf? (a : Arguments) : Option Translate :=
  let request (source : String) (dest : Option String) : Translate :=
    { source := source, dest := dest, strict := a.has .strict,
      settingsFile := a.value? .settingsFile, report := a.value? .report,
      verbose := a.has .verbose }
  match a.others with
  | [source] => some (request source none)
  | [source, dest] => some (request source (some dest))
  | _ => none

/-- The path that the arguments of an initialisation name; there are no options. -/
def initOf? (a : Arguments) : Option String :=
  match a.flags, a.others with
  | [], [] => some defaultSettingsFile
  | [], [path] => some path
  | _, _ => none

def withoutDashes : List String → List String
  | "--" :: rest => rest
  | arguments => arguments

/-- The command comes first, behind a double dash or without one. -/
def Command.ofArguments? (arguments : List String) : Option Command :=
  match withoutDashes arguments with
  | "translate" :: rest => do
    let a ← readArguments {} none rest
    return .translate (← translateOf? a)
  | "init" :: rest => do
    let a ← readArguments {} none rest
    return .init (← initOf? a)
  | _ => none

end Reading

end JavaToGo.CommandLine
