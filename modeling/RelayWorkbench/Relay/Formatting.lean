import RelayWorkbench.GraphQL.Document.Parser
import RelayWorkbench.Relay.Rendering
import RelayWorkbench.Text.Blank

/-! Formatting of host documents. A region is left alone when it is blank, carries comments,
which a printed document cannot keep, is not well formed or is laid out already. -/

namespace RelayWorkbench.Relay

open RelayWorkbench.GraphQL RelayWorkbench.Host

/-- The edit that lays out a region anew. -/
def layoutEdit? (region : Region) : Option TextEdit := do
  if (Text.trim region.content).isEmpty || Lexeme.hasComments region.content then none
  let document ← Document.parse? region.content
  let edit := replacement region document
  if edit.newText = region.content then none else some edit

def layoutEdits (identifier : String) (text : Text) : List TextEdit :=
  ((regions? identifier text).getD []).filterMap layoutEdit?

end RelayWorkbench.Relay
