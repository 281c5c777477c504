import RelayWorkbench.GraphQL.Document.Printer
import RelayWorkbench.Host.Edit
import RelayWorkbench.Host.Envelope
import RelayWorkbench.Host.Region

/-! Printed documents put back into their region. -/

namespace RelayWorkbench.Relay

open RelayWorkbench.GraphQL RelayWorkbench.Host

/-- A document in the envelope of the region text `former`. -/
def render (document : Document) (former : Text) : Text :=
  Envelope.restore document.print former

/-- The edit that replaces a region by a document. A whole file becomes the printed document
and a line feed; an embedded region keeps its envelope. -/
def replacement (region : Region) (document : Document) : TextEdit where
  range := region.hostRange
  newText :=
    if region.isDocument then document.print ++ ['\n'] else render document region.content

end RelayWorkbench.Relay
