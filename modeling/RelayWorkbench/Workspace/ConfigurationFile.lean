import RelayWorkbench.Markup.Json
import RelayWorkbench.Markup.Yaml
import RelayWorkbench.Workspace.SchemaFiles

/-! Configuration files: where one is looked for, and how it is read. -/

namespace RelayWorkbench.Workspace

inductive Notation where
  | yaml
  | json
  deriving DecidableEq, Repr

def Notation.name : Notation → Text
  | yaml => "YAML".toList
  | json => "JSON".toList

def Notation.parse? : Notation → Text → Option Markup.Datum
  | yaml => Markup.Yaml.parse?
  | json => Markup.Json.parse?

inductive ConfigurationError where
  | unreadable (error : FileError)
  /-- The text is no value of its notation, or the value is no configuration. -/
  | malformed (path : Path) (form : Notation) (isValue : Bool)
  | faulty (path : Path) (fault : SchemaFault)
  | unsupported (path : Path)
  | invalidPattern (invalid : InvalidPattern)
  deriving DecidableEq, Repr

def SchemaFault.message : SchemaFault → Text
  | noEntries project => "Project '".toList ++ project ++ "' has empty schema configuration".toList
  | blankEntry project => "Project '".toList ++ project ++ "' has empty schema path".toList

namespace ConfigurationError

/-- The complaint about a configuration at a path. -/
def inFile (path : Path) (complaint : Text) : Text :=
  "Invalid config in ".toList ++ path.text ++ ": ".toList ++ complaint

/-- What is wrong, without the details of a malformed text. -/
def summary : ConfigurationError → Text
  | unreadable error => "Failed to read config: ".toList ++ error.message
  | malformed path form _ => inFile path (form.name ++ " parse error".toList)
  | faulty path fault => inFile path fault.message
  | unsupported path => "Unsupported config format: ".toList ++ path.text
  | invalidPattern invalid => invalid.message

/-- What is wrong, with the reason why a value is no configuration. -/
def message (error : ConfigurationError) : Text :=
  match error with
  | malformed _ _ true =>
    error.summary ++ ": data did not match any variant of untagged enum GraphQLConfig".toList
  | error => error.summary

end ConfigurationError

/-- The names of configuration files; an earlier one is preferred. -/
def configurationNames : List Text :=
  ["relay.config.json", "relay.config.yml", "relay.config.yaml", ".relayrc", ".relayrc.json",
    ".relayrc.yml", ".relayrc.yaml", ".graphqlrc.yml", ".graphqlrc.yaml", ".graphqlrc.json",
    ".graphqlrc", "graphql.config.yml", "graphql.config.yaml", "graphql.config.json"].map
      String.toList

/-- A directory and what is left of its path as its last components are dropped one by one. -/
def ancestors : Nat → Path → List Path
  | 0, directory => [directory]
  | fuel + 1, directory =>
    match directory.parent? with
    | none => [directory]
    | some parent => directory :: ancestors fuel parent

/-- The preferred configuration file of a directory. -/
def configurationIn? (system : FileSystem) (directory : Path) : Option Path :=
  (configurationNames.map fun name => directory.join ⟨name⟩).find? system.isFile

/-- The configuration file for a directory: the first one found as its path is shortened. -/
def findConfiguration? (system : FileSystem) (directory : Path) : Option Path :=
  (ancestors directory.components.length directory).findSome? (configurationIn? system)

/-- The notations to try for a file, in order; none if its name tells of no configuration. -/
def notationsOf (path : Path) : List Notation :=
  match path.extension? with
  | some extension =>
    if extension = "yml".toList || extension = "yaml".toList then [.yaml]
    else if extension = "json".toList then [.json]
    else []
  | none =>
    if path.fileName?.any [".graphqlrc".toList, ".relayrc".toList].contains then [.yaml, .json]
    else []

/-- The configuration a text holds in a notation. -/
def parseConfiguration (path : Path) (contents : Text) (form : Notation) :
    Except ConfigurationError Configuration :=
  match form.parse? contents with
  | none => .error (.malformed path form false)
  | some datum =>
    match Configuration.ofDatum? datum with
    | none => .error (.malformed path form true)
    | some configuration => .ok configuration

/-- The configuration a text holds in the first of some notations that fits; otherwise the
complaint is that of the last one. -/
def parseFirst (path : Path) (contents : Text) :
    List Notation → Except ConfigurationError Configuration
  | [] => .error (.unsupported path)
  | [form] => parseConfiguration path contents form
  | form :: more =>
    match parseConfiguration path contents form with
    | .ok configuration => .ok configuration
    | .error _ => parseFirst path contents more

/-- The configuration that the file at a path holds when its text is `contents`. -/
def readConfiguration (path : Path) (contents : Text) :
    Except ConfigurationError Configuration := do
  let configuration ← parseFirst path contents (notationsOf path)
  match configuration.fault? with
  | some fault => throw (.faulty path fault)
  | none => return configuration

/-- The configuration of the file at a path. -/
def loadConfiguration (system : FileSystem) (path : Path) :
    Except ConfigurationError Configuration := do
  readConfiguration path (← (system.read path).mapError .unreadable)

end RelayWorkbench.Workspace
