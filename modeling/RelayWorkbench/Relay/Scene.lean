import RelayWorkbench.GraphQL.CursorContext
import RelayWorkbench.GraphQL.Replacer

/-! A scene is what a refactoring decides on: a document, the cursor in it and the schema. An
offer is its decision to act. -/

namespace RelayWorkbench.Relay

open RelayWorkbench.GraphQL

structure Scene where
  schema : Schema
  /-- Module name of the host document. -/
  moduleName : Text
  document : Document
  context : CursorContext

/-- A refactoring that can be carried out, with the replacer that does so. -/
structure Offer where
  title : Text
  replacer : Replacer Unit

def Offer.result? (offer : Offer) (document : Document) : Option Document :=
  offer.replacer.apply document

namespace Scene

def definition? (scene : Scene) : Option Definition :=
  scene.document.definitions[scene.context.definition]?

def operation? (scene : Scene) : Option Operation :=
  match scene.definition? with
  | some (.operation stated) => some stated
  | _ => none

def fragment? (scene : Scene) : Option Fragment :=
  match scene.definition? with
  | some (.fragment stated) => some stated
  | _ => none

/-- The first definition, if it is a fragment. -/
def firstFragment? (scene : Scene) : Option Fragment :=
  match scene.document.definitions with
  | .fragment stated :: _ => some stated
  | _ => none

def cursorVariable? (scene : Scene) : Option Name :=
  match scene.context.place.token with
  | .ofVariable name => some name
  | _ => none

/-- The field under the cursor with the type it has in the schema. -/
def cursorField? (scene : Scene) : Option (Field × TypeDefinition) := do
  let field ← scene.context.place.field
  let type ← scene.schema.type? (← scene.context.place.fieldType)
  return (field, type)

/-- The field to show of a type; `id` when nothing is known of it. -/
def shownField (scene : Scene) (typeName : Option Name) : Name :=
  ((typeName.bind scene.schema.type?).bind TypeDefinition.displayField?).getD "id".toList

end Scene

end RelayWorkbench.Relay
