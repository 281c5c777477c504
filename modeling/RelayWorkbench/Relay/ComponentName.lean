import RelayWorkbench.Text.Letter

/-! Names of components. -/

namespace RelayWorkbench.Relay

/-- Whether a component may have this name: ASCII letters, digits and underscores, at least one. -/
def isComponentName (name : Text) : Bool := !name.isEmpty && name.all Text.isWordChar

end RelayWorkbench.Relay
