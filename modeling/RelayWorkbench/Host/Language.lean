import RelayWorkbench.Path

/-! The languages of host documents, which decide where GraphQL is looked for. -/

namespace RelayWorkbench.Host

/-- A language whose files carry GraphQL. -/
inductive Language where
  | graphQL
  | typeScript
  | javaScript
  | vue
  | reason
  deriving DecidableEq, Repr

namespace Language

/-- The language of an editor's identifier; identifiers that never carry GraphQL have none. -/
def ofIdentifier? (identifier : String) : Option Language :=
  match identifier with
  | "graphql" => some .graphQL
  | "typescript" | "typescriptreact" => some .typeScript
  | "javascript" | "javascriptreact" => some .javaScript
  | "vue" => some .vue
  | "reason" => some .reason
  | _ => none

/-- The language of a file, by its extension. -/
def ofPath? (path : Path) : Option Language := do
  match String.ofList (← path.extension?) with
  | "graphql" | "gql" => some .graphQL
  | "ts" | "tsx" => some .typeScript
  | "js" | "jsx" | "mjs" | "cjs" => some .javaScript
  | "vue" => some .vue
  | "re" => some .reason
  | _ => none

def identifier : Language → String
  | .graphQL => "graphql"
  | .typeScript => "typescript"
  | .javaScript => "javascript"
  | .vue => "vue"
  | .reason => "reason"

/-- Whether GraphQL stands in tagged template literals. -/
def usesTemplateTags : Language → Bool
  | .typeScript | .javaScript | .vue => true
  | .graphQL | .reason => false

end Language

end RelayWorkbench.Host
