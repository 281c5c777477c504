import RelayWorkbench.GraphQL.Schema.BuiltIn

/-! Building a schema from documents. The first definition of a name wins, and so does the
first member of a name within a type. An extension counts wherever it stands: one that comes
before the definition it extends waits for it. Operations and fragments do not matter. -/

namespace RelayWorkbench.GraphQL.Schema

/-- The members of `added` whose keys are not taken, each key once, after those present. -/
def addNew {α κ : Type} [BEq κ] (key : α → κ) (present added : List α) : List α :=
  added.foldl (fun members member =>
    if members.any (key · == key member) then members else members ++ [member]) present

namespace Merge

/-- A type body with the members of an extension of the same kind. -/
def body? : TypeBody → TypeBody → Option TypeBody
  | .scalar, .scalar => some .scalar
  | .object interfaces fields, .object moreInterfaces moreFields =>
    some (.object (addNew id interfaces moreInterfaces) (addNew (·.name) fields moreFields))
  | .interface interfaces fields, .interface moreInterfaces moreFields =>
    some (.interface (addNew id interfaces moreInterfaces) (addNew (·.name) fields moreFields))
  | .union members, .union more => some (.union (addNew id members more))
  | .enum values, .enum more => some (.enum (addNew (·.name) values more))
  | .input fields, .input more => some (.input (addNew (·.name) fields more))
  | _, _ => none

/-- A type body in which the first member of each name is kept. -/
def distinct : TypeBody → TypeBody
  | .scalar => .scalar
  | .object interfaces fields => .object (addNew id [] interfaces) (addNew (·.name) [] fields)
  | .interface interfaces fields =>
    .interface (addNew id [] interfaces) (addNew (·.name) [] fields)
  | .union members => .union (addNew id [] members)
  | .enum values => .enum (addNew (·.name) [] values)
  | .input fields => .input (addNew (·.name) [] fields)

/-- A type with an extension; an extension of another kind changes nothing. -/
def extend (definition extension : TypeDefinition) : TypeDefinition :=
  match body? definition.body extension.body with
  | some body =>
    { definition with body, directives := definition.directives ++ extension.directives }
  | none => definition

end Merge

/-- A directive definition; a built-in one may be replaced once. -/
structure KnownDirective where
  definition : DirectiveDefinition
  builtIn : Bool := false

/-- A schema under construction. -/
structure Draft where
  types : List SchemaType := builtInTypes
  directives : List KnownDirective := builtInDirectives.map ({ definition := ·, builtIn := true })
  /-- The root types of the schema definition, once there is one. -/
  roots : Option (List (OperationKind × Name)) := none
  /-- Extensions of types not defined yet. -/
  waiting : List TypeDefinition := []
  /-- Root types added by extensions of the schema. -/
  addedRoots : List (OperationKind × Name) := []

namespace Draft

def hasType (draft : Draft) (name : Name) : Bool := draft.types.any (·.definition.name == name)

/-- Define a type, with the extensions that waited for it. -/
def defineType (draft : Draft) (definition : TypeDefinition) : Draft :=
  if draft.hasType definition.name then draft
  else
    let (ready, waiting) := draft.waiting.partition (·.name == definition.name)
    let first := { definition with body := Merge.distinct definition.body }
    let extended := { definition := ready.foldl Merge.extend first }
    { draft with types := draft.types ++ [extended], waiting }

/-- Extend a type, now or when it is defined. -/
def extendType (draft : Draft) (extension : TypeDefinition) : Draft :=
  if draft.hasType extension.name then
    let types := draft.types.map fun known =>
      if known.definition.name == extension.name then
        { known with definition := Merge.extend known.definition extension }
      else known
    { draft with types }
  else { draft with waiting := draft.waiting ++ [extension] }

def defineDirective (draft : Draft) (definition : DirectiveDefinition) : Draft :=
  if draft.directives.any (·.definition.name == definition.name) then
    let directives := draft.directives.map fun known =>
      if known.builtIn && known.definition.name == definition.name then { definition } else known
    { draft with directives }
  else { draft with directives := draft.directives ++ [{ definition }] }

def addDefinition (draft : Draft) : Definition → Draft
  | .operation _ => draft
  | .fragment _ => draft
  | .directive definition => draft.defineDirective definition
  | .schema _ definition =>
    if draft.roots.isSome then draft
    else { draft with roots := some (addNew (·.1) [] definition.roots) }
  | .schemaExtension extension => { draft with addedRoots := draft.addedRoots ++ extension.roots }
  | .type _ definition => draft.defineType definition
  | .typeExtension extension => draft.extendType extension

def addDocument (draft : Draft) (document : Document) : Draft :=
  document.definitions.foldl addDefinition draft

/-- The root types when no schema definition names them: the object types with their names. -/
def defaultRoots (draft : Draft) : List (OperationKind × Name) :=
  OperationKind.all.filterMap fun kind =>
    let isRoot := fun (known : SchemaType) =>
      known.definition.name == kind.defaultRoot && known.definition.body.isObject
    if draft.types.any isRoot then some (kind, kind.defaultRoot) else none

/-- The root types. Without a schema definition and without a default root, extensions of the
schema have nothing to extend. -/
def rootTypes (draft : Draft) : List (OperationKind × Name) :=
  match draft.roots with
  | some roots => addNew (·.1) roots draft.addedRoots
  | none =>
    let roots := draft.defaultRoots
    if roots.isEmpty then [] else addNew (·.1) roots draft.addedRoots

def finish (draft : Draft) : Schema where
  types := draft.types
  directives := draft.directives.map (·.definition)
  roots := draft.rootTypes

end Draft

def ofDocuments (documents : List Document) : Schema :=
  (documents.foldl Draft.addDocument {}).finish

end RelayWorkbench.GraphQL.Schema
