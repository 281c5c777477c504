import RelayWorkbench.Relay.ClientSchema
import RelayWorkbench.Workspace.ConfigurationFile

/-! The schema of a workspace, which its configuration names. -/

namespace RelayWorkbench.Workspace

open RelayWorkbench.GraphQL

inductive SchemaError where
  | configuration (error : ConfigurationError)
  | noConfiguration (root : Path)
  | noDefaultProject
  | noFiles
  | unreadable (path : Path) (error : FileError)
  deriving DecidableEq, Repr

def SchemaError.message : SchemaError → Text
  | configuration error => error.message
  | noConfiguration root => "No GraphQL config found from ".toList ++ root.text
  | noDefaultProject => "Config has no default project".toList
  | noFiles => "Config lists no schema files".toList
  | unreadable path error =>
    "Failed to read schema file ".toList ++ path.text ++ ": ".toList ++ error.message

/-- The schema files of a workspace, by the configuration found from its root. -/
def workspaceFiles (system : FileSystem) (root : Path) : Except SchemaError (List Path) := do
  let some path := findConfiguration? system root | throw (.noConfiguration root)
  let configuration ← (loadConfiguration system path).mapError .configuration
  let some project := configuration.default? | throw .noDefaultProject
  let directory := path.parent?.getD root
  (schemaFiles system directory project.schema).mapError fun invalid =>
    .configuration (.invalidPattern invalid)

def loadSchema (system : FileSystem) (root : Path) : Except SchemaError Schema := do
  let files ← workspaceFiles system root
  if files.isEmpty then throw .noFiles
  let texts ← files.mapM fun path => (system.read path).mapError (.unreadable path)
  return Relay.clientSchema texts

end RelayWorkbench.Workspace
