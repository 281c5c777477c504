import RelayWorkbench.GraphQL.Lexeme

/-! References to types: a name or a list, nullable or required. -/

namespace RelayWorkbench.GraphQL

inductive TypeRef where
  | named (name : Name) (required : Bool)
  | list (item : TypeRef) (required : Bool)
  deriving DecidableEq, Repr

namespace TypeRef

def isRequired : TypeRef → Bool
  | named _ required => required
  | list _ required => required

/-- The same type with `!`. -/
def require : TypeRef → TypeRef
  | named name _ => named name true
  | list item _ => list item true

/-- The name inside all lists. -/
def innerName : TypeRef → Name
  | named name _ => name
  | list item _ => item.innerName

/-- The type of an item, if this is a list. -/
def item? : TypeRef → Option TypeRef
  | named _ _ => none
  | list item _ => some item

def print : TypeRef → Text
  | named name required => name ++ (if required then ['!'] else [])
  | list item required => '[' :: item.print ++ ']' :: (if required then ['!'] else [])

end TypeRef

end RelayWorkbench.GraphQL
