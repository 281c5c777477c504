import RelayWorkbench.Host.Region

/-! Requests for refactorings. -/

namespace RelayWorkbench.Relay

open RelayWorkbench.Host

/-- A request for what can be done at a selection of a host document. -/
structure Request where
  /-- The editor's identifier of the host language. -/
  language : String
  text : Text
  /-- A selection or a cursor; its ends may be in the wrong order. -/
  selection : Range
  /-- Module name of the host document. -/
  moduleName : Text

/-- The region under the start of the selection. -/
def Request.region? (request : Request) : Option Region :=
  regionAt? request.language request.text request.selection.ordered.start

end RelayWorkbench.Relay
