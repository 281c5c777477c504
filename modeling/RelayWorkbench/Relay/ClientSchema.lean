import RelayWorkbench.GraphQL.Document.Parser
import RelayWorkbench.GraphQL.Schema.Build

/-! The schema a Relay client works with: the schema of the server and Relay's own
directives, so that their arguments have types like any other. -/

namespace RelayWorkbench.Relay

open RelayWorkbench.GraphQL

def relayDirectives : List DirectiveDefinition :=
  let operations := ["QUERY", "MUTATION", "SUBSCRIPTION"]
  let connectionArguments :=
    [("key", Schema.required "String"), ("filters", .list (Schema.plain "String") false),
     ("handler", Schema.plain "String")]
  let dynamicKey := ("dynamicKey_UNSTABLE", Schema.plain "String")
  [Schema.directive "refetchable" [("queryName", Schema.required "String")]
    ["FRAGMENT_DEFINITION"],
   Schema.directive "arguments" [] ["FRAGMENT_SPREAD"],
   Schema.directive "argumentDefinitions" [] ["FRAGMENT_DEFINITION"],
   Schema.directive "inline" [] ["FRAGMENT_DEFINITION"],
   Schema.directive "relay_test_operation" [] operations,
   Schema.directive "raw_response_type" [] operations,
   Schema.directive "relay" [("plural", Schema.plain "Boolean"), ("mask", Schema.plain "Boolean")]
    ["FRAGMENT_DEFINITION", "FRAGMENT_SPREAD"],
   Schema.directive "match" [("key", Schema.plain "String")] ["FIELD"],
   Schema.directive "module" [("name", Schema.required "String")] ["FRAGMENT_SPREAD"],
   Schema.directive "connection" (connectionArguments ++ [dynamicKey]) ["FIELD"],
   Schema.directive "stream_connection"
    (connectionArguments ++
      [("label", Schema.required "String"), ("initial_count", Schema.required "Int"),
       ("if", Schema.plain "Boolean"), ("use_customized_batch", Schema.plain "Boolean"),
       dynamicKey])
    ["FIELD"]]

/-- The schema of some files, in order, with Relay's directives after them. Of a file that is
not well formed, what can be read counts. -/
def clientSchema (files : List Text) : Schema :=
  Schema.ofDocuments (files.map Document.recover ++ [⟨relayDirectives.map .directive⟩])

end RelayWorkbench.Relay
