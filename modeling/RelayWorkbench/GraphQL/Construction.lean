import RelayWorkbench.GraphQL.Argument
import RelayWorkbench.GraphQL.Document.Parser

/-! Selections and variable definitions built anew. -/

namespace RelayWorkbench.GraphQL

namespace Selection

/-- A field; without selections it is a leaf. -/
def ofField (name : Name) (selections : List Selection) : Selection :=
  .field { name := { name } } selections

/-- The inline fragment `... on onType`. -/
def onType (onType : Name) (selections : List Selection) : Selection :=
  .inline { onType := some onType } selections

/-- The spread `...name`. -/
def spreadOf (name : Name) : Selection := .spread { name }

end Selection

namespace Operation

/-- Whether an operation declares the variable `$name`. -/
def declares (operation : Operation) (name : Name) : Bool :=
  operation.variableDefinitions.any (·.name == name)

end Operation

namespace VariableDefinition

/-- An operation that declares `$name` with a type as it is written. -/
def probe (name type : Text) : Text :=
  "mutation($".toList ++ name ++ ": ".toList ++ type ++ ") \x7b id \x7d".toList

/-- The definition of `$name` with a written type. The operation that declares it must parse
and declare nothing but this variable, without a default value and without directives. -/
def ofWritten? (name type : Text) : Option VariableDefinition := do
  match ← (Document.parse? (probe name type)).map (·.definitions) with
  | [.operation operation] =>
    match operation.variableDefinitions with
    | [declared] =>
      if declared.name = name && declared.default.isNone && declared.directives.isEmpty then
        some declared
      else none
    | _ => none
  | _ => none

end VariableDefinition

end RelayWorkbench.GraphQL
