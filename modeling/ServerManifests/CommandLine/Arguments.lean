import ServerManifests.Plan.Names

/-!
The words of a command line and the command they give. Words are read from left
to right, and the first that has no place, or that asks for help or for the
version, decides. A parameter takes its value from the rest of its own word or
from the next one; a value of its own word may begin with a dash, a separate one
may not.
-/
namespace ServerManifests.CommandLine

/-- What a command takes besides the logging switch. -/
inductive Parameter where
  | values
  | override
  | releaseName
  | targetNamespace
  | appVersion
  | outputDirectory
  deriving DecidableEq, Repr

namespace Parameter

def long : Parameter → String
  | .values => "values"
  | .override => "set"
  | .releaseName => "release-name"
  | .targetNamespace => "namespace"
  | .appVersion => "app-version"
  | .outputDirectory => "output-dir"

def short? : Parameter → Option Char
  | .values => some 'f'
  | .targetNamespace => some 'n'
  | .outputDirectory => some 'o'
  | _ => none

def isRepeatable : Parameter → Bool
  | .values | .override => true
  | _ => false

/-- A path is not empty; other texts may be. -/
def accepts (parameter : Parameter) (value : String) : Bool :=
  match parameter with
  | .values | .outputDirectory => value ≠ ""
  | _ => true

/-- The variable that gives the value where no word does. -/
def variableName? : Parameter → Option String
  | .releaseName => some "ZENML_RELEASE_NAME"
  | .targetNamespace => some "ZENML_NAMESPACE"
  | _ => none

end Parameter

def logVariable : String := "ZENML_MANIFESTS_LOG_JSON"

/-- Why the words give no command. -/
inductive NoCommand where
  | misuse
  | help
  | version
  deriving DecidableEq, Repr

inductive Verb where
  | render
  | notes
  | schema
  deriving DecidableEq, Repr

namespace Verb

def all : List Verb := [.render, .notes, .schema]

def name : Verb → String
  | .render => "render"
  | .notes => "notes"
  | .schema => "schema"

def ofName? (name : String) : Option Verb := all.find? fun verb => verb.name = name

def parameters : Verb → List Parameter
  | .render =>
    [.values, .override, .releaseName, .targetNamespace, .appVersion, .outputDirectory]
  | .notes => [.values, .override, .releaseName, .targetNamespace, .appVersion]
  | .schema => []

end Verb

/-- What has been given to a verb so far, in the order of the words. -/
structure Given where
  parameters : List (Parameter × String) := []
  logsJson : Bool := false
  deriving DecidableEq, Repr

namespace Given

def all (given : Given) (parameter : Parameter) : List String :=
  (given.parameters.filter fun entry => entry.1 = parameter).map (·.2)

def add (given : Given) (parameter : Parameter) (value : String) : Except NoCommand Given :=
  if !parameter.isRepeatable && !(given.all parameter).isEmpty then .error .misuse
  else if !parameter.accepts value then .error .misuse
  else .ok { given with parameters := given.parameters ++ [(parameter, value)] }

def addLogsJson (given : Given) : Except NoCommand Given :=
  if given.logsJson then .error .misuse else .ok { given with logsJson := true }

end Given

/-- What one word of a verb means. -/
inductive Meaning where
  | parameter (parameter : Parameter) (value : Option String)
  | logsJson
  | help
  | nothing
  deriving DecidableEq, Repr

/-- Cuts a text at its first equals sign. -/
def cutAtEquals (text : List Char) : String × Option String :=
  match text.dropWhile (· ≠ '=') with
  | _ :: value => (.ofList (text.takeWhile (· ≠ '=')), some (.ofList value))
  | [] => (.ofList text, none)

/-- The value that follows a parameter's letter; an equals sign may stand between. -/
def valueAfterLetter : List Char → Option String
  | [] => none
  | '=' :: value => some (.ofList value)
  | value => some (.ofList value)

def Verb.meaning (verb : Verb) (word : String) : Meaning :=
  match word.toList with
  | '-' :: '-' :: text =>
    match cutAtEquals text with
    | ("log-json", none) => .logsJson
    | ("help", none) => .help
    | (name, value) =>
      match verb.parameters.find? fun parameter => parameter.long = name with
      | some parameter => .parameter parameter value
      | none => .nothing
  | '-' :: letter :: text =>
    match verb.parameters.find? fun parameter => parameter.short? = some letter with
    | some parameter => .parameter parameter (valueAfterLetter text)
    | none => if letter = 'h' then .help else .nothing
  | _ => .nothing

/-- A word that may stand as a separate value. -/
def isValue (word : String) : Bool := word = "-" || !word.startsWith "-"

/-- Reads the words after a verb. Two dashes alone end the options, and no word
may follow them. -/
def Verb.read (verb : Verb) (given : Given) : List String → Except NoCommand Given
  | [] => .ok given
  | ["--"] => .ok given
  | word :: rest =>
    match verb.meaning word with
    | .nothing => .error .misuse
    | .help => .error .help
    | .logsJson => do verb.read (← given.addLogsJson) rest
    | .parameter parameter (some value) => do verb.read (← given.add parameter value) rest
    | .parameter parameter none =>
      match rest with
      | [] => .error .misuse
      | value :: rest =>
        if isValue value then do verb.read (← given.add parameter value) rest
        else .error .misuse

/-- The values and the release that a command works on. -/
structure Inputs where
  values : List String
  overrides : List String
  release : Release
  deriving DecidableEq, Repr

inductive Command where
  | render (inputs : Inputs) (outputDirectory : Option String)
  | notes (inputs : Inputs)
  | schema
  deriving DecidableEq, Repr

namespace Given

/-- A word goes before the variable, and the variable before the default. -/
def get (given : Given) (lookup : String → Option String) (parameter : Parameter)
    (fallback : String) : String :=
  ((given.all parameter).head? <|> parameter.variableName?.bind lookup).getD fallback

def inputs (given : Given) (lookup : String → Option String) : Inputs :=
  let base : Release := {}
  { values := given.all .values
    overrides := given.all .override
    release :=
      { base with
        name := given.get lookup .releaseName base.name
        targetNamespace := given.get lookup .targetNamespace base.targetNamespace
        appVersion := given.get lookup .appVersion base.appVersion } }

def command (given : Given) (lookup : String → Option String) : Verb → Command
  | .render => .render (given.inputs lookup) (given.all .outputDirectory).head?
  | .notes => .notes (given.inputs lookup)
  | .schema => .schema

end Given

/-- The logging variable is unset or a truth value. -/
def isLogSetting : Option String → Bool
  | none => true
  | some value => value = "true" || value = "false"

/-- Help on the program or on one of its commands. -/
def helpOn : List String → NoCommand
  | [] => .help
  | [name] => if name = "help" || (Verb.ofName? name).isSome then .help else .misuse
  | _ => .misuse

namespace Command

/-- The logging variable is read where the switch is not given, before the verb
and after it. -/
def ofWords (lookup : String → Option String) (logsJson : Bool) :
    List String → Except NoCommand Command
  | [] => .error .misuse
  | word :: rest =>
    if word = "--log-json" then
      if logsJson then .error .misuse else ofWords lookup true rest
    else if word = "--help" || word.startsWith "-h" then .error .help
    else if word = "--version" || word.startsWith "-V" then .error .version
    else if word = "help" then .error (helpOn rest)
    else
      match Verb.ofName? word with
      | none => .error .misuse
      | some verb => do
        let given ← verb.read {} rest
        if (logsJson && given.logsJson) || isLogSetting (lookup logVariable) then
          return given.command lookup verb
        else .error .misuse

/-- The command that words give, with the lookup of the caller's surroundings. -/
def parse (lookup : String → Option String) (words : List String) :
    Except NoCommand Command :=
  ofWords lookup false words

end Command

end ServerManifests.CommandLine
