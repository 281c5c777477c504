import RelayWorkbench.GraphQL.Document

/-! Arguments built anew, and merging of argument lists by name. -/

namespace RelayWorkbench.GraphQL.Argument

/-- The argument `name: value`. -/
def make (name : Name) (value : Value) : Argument := { name, value }

/-- The argument `name: $name`. -/
def ofVariable (name : Name) : Argument := make name (.ofVariable name)

def ofString (name : Name) (value : Text) : Argument := make name (.ofScalar (.string value))

def ofBoolean (name : Name) (value : Bool) : Argument := make name (.ofScalar (.boolean value))

/-- An integer as GraphQL writes it. -/
def integerText : Int → Text
  | .ofNat number => Nat.toDigits 10 number
  | .negSucc number => '-' :: Nat.toDigits 10 (number + 1)

/-- The entry `name: {type: "...", defaultValue: ...}` of `@argumentDefinitions`. -/
def declaring (name : Name) (type : Text) (default : Option Int) : Argument :=
  let typeField := ("type".toList, Value.ofScalar (.string type))
  let defaultField := default.map fun number =>
    ("defaultValue".toList, Value.ofScalar (.int (integerText number)))
  make name (.object none (typeField :: defaultField.toList))

/-- Put an argument in the place of the first one of its name, or at the end. -/
def put (argument : Argument) : List Argument → List Argument
  | [] => [argument]
  | current :: rest =>
    if current.name = argument.name then argument :: rest else current :: put argument rest

/-- `existing` with each argument of `added` put in, in order. -/
def merge (existing added : List Argument) : List Argument :=
  added.foldl (fun merged argument => put argument merged) existing

def anyNamed (name : Name) (arguments : List Argument) : Bool := arguments.any (·.name == name)

end RelayWorkbench.GraphQL.Argument
