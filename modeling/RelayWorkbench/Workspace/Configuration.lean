import RelayWorkbench.Markup.Datum
import RelayWorkbench.Path
import RelayWorkbench.Text.Blank

/-! Configurations: one project, or several by name. Of a project only the schema is read; any
other key is accepted. -/

namespace RelayWorkbench.Workspace

open RelayWorkbench.Markup

/-- A project, by the paths and patterns of its schema. -/
structure Project where
  schema : List Text
  deriving DecidableEq, Repr

inductive Configuration where
  | single (project : Project)
  | named (projects : List (Text × Project))
  deriving DecidableEq, Repr

/-- Whether a schema is not a file but an address on the web. -/
def isRemote (entry : Text) : Bool :=
  "http://".toList.isPrefixOf entry || "https://".toList.isPrefixOf entry

def Project.hasRemote (project : Project) : Bool := project.schema.any isRemote

namespace Configuration

/-- Name of the project whose schema is used, and of a project without a name. -/
def defaultName : Text := "default".toList

def projects : Configuration → List (Text × Project)
  | single project => [(defaultName, project)]
  | named projects => projects

def project? (configuration : Configuration) (name : Text) : Option Project :=
  configuration.projects.lookup name

/-- The project whose schema is used. -/
def default? (configuration : Configuration) : Option Project := configuration.project? defaultName

def isMulti : Configuration → Bool
  | single _ => false
  | named _ => true

end Configuration

/-! Configurations from values -/

namespace Configuration

/-- Whether a key of a map stands for a field. The first field of a record may also be given by
its number, which is zero. -/
def isKey (name : Text) : Datum → Bool
  | .text key => key == name
  | .whole number => number == 0
  | _ => false

/-- Whether a record may have such a key. -/
def isRecordKey : Datum → Bool
  | .text _ | .whole _ => true
  | _ => false

/-- The value of the field of a record. It must be there exactly once. -/
def field? (name : Text) (entries : List (Datum × Datum)) : Option Datum :=
  if !entries.all (fun (key, _) => isRecordKey key) then none
  else
    match entries.filter fun (key, _) => isKey name key with
    | [(_, value)] => some value
    | _ => none

def text? : Datum → Option Text
  | .text value => some value
  | _ => none

/-- The entries of a schema: one text, or a list of texts. -/
def schema? : Datum → Option (List Text)
  | .text entry => some [entry]
  | .list entries => entries.mapM text?
  | _ => none

/-- A project: a record with a schema, or the schema alone in a list. -/
def ofProject? : Datum → Option Project
  | .map entries => do return ⟨← schema? (← field? "schema".toList entries)⟩
  | .list [schema] => do return ⟨← schema? schema⟩
  | _ => none

/-- Projects with one of them put in the place of its name, or at the end. -/
def putProject (name : Text) (project : Project) : List (Text × Project) → List (Text × Project)
  | [] => [(name, project)]
  | (other, known) :: rest =>
    if other = name then (name, project) :: rest else (other, known) :: putProject name project rest

/-- Projects by name; of two with one name the later counts. -/
def ofProjects? : Datum → Option (List (Text × Project))
  | .map entries => do
    let named ← entries.mapM fun (key, value) => do return (← text? key, ← ofProject? value)
    return named.foldl (fun known (name, project) => putProject name project known) []
  | _ => none

/-- A record of several projects, as long as it is one. -/
def ofNamed? : Datum → Option Configuration
  | .map entries => do return named (← ofProjects? (← field? "projects".toList entries))
  | _ => none

/-- The configuration that a value describes: several projects if it can be read so, else one. -/
def ofDatum? (datum : Datum) : Option Configuration :=
  (ofNamed? datum).or ((ofProject? datum).map single)

end Configuration

inductive SchemaFault where
  | noEntries (project : Text)
  | blankEntry (project : Text)
  deriving DecidableEq, Repr

namespace Configuration

/-- The fault of a project, if it has one. -/
def faultOf? (name : Text) (project : Project) : Option SchemaFault :=
  if project.schema.isEmpty then some (.noEntries name)
  else if project.schema.any fun entry => (Text.trim entry).isEmpty then some (.blankEntry name)
  else none

def fault? (configuration : Configuration) : Option SchemaFault :=
  configuration.projects.findSome? fun (name, project) => faultOf? name project

end Configuration

end RelayWorkbench.Workspace
