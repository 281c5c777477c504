import RelayWorkbench.GraphQL.Document

/-! The standard written form of a document: two spaces of indentation, every selection and
member on a line of its own, an empty line between definitions. -/

namespace RelayWorkbench.GraphQL

/-- Where line breaks may go: on lines indented `level` steps, or nowhere. -/
abbrev Layout := Option Nat

namespace Layout

/-- The layout of what is enclosed. -/
def inner (layout : Layout) : Layout := layout.map (· + 1)

/-- A line break, and the indentation of the line after it. -/
def newLine (level : Nat) : Text := '\n' :: Text.spaces (2 * level)

/-- Items between brackets: each on its own line with a comma after it, or all on one line. -/
def enclose (layout : Layout) (opening closing : Char) (items : List Text) : Text :=
  match layout, items with
  | _, [] => [opening, closing]
  | none, items => opening :: Text.joinWith ", ".toList items ++ [closing]
  | some level, items =>
    opening :: (items.flatMap fun item => newLine (level + 1) ++ item ++ [',']) ++
      newLine level ++ [closing]

/-- Lines between braces, indented one step more than `level`. -/
def braces (level : Nat) (lines : List Text) : Text :=
  match lines with
  | [] => ['{', '}']
  | lines => '{' :: lines.flatMap (newLine (level + 1) ++ ·) ++ newLine level ++ ['}']

end Layout

namespace Scalar

/-- A string with line breaks is a block string where line breaks may go. -/
def printString (layout : Layout) (value : Text) : Text :=
  match layout with
  | some level =>
    if value.contains '\n' && StringValue.fitsBlock value then StringValue.block (2 * level) value
    else StringValue.quoted value
  | none => StringValue.quoted value

def print (layout : Layout) : Scalar → Text
  | null => "null".toList
  | boolean true => "true".toList
  | boolean false => "false".toList
  | int written => written
  | float written => written
  | string value => printString layout value
  | enum name => name
  | ofVariable name => '$' :: name

end Scalar

mutual

def Value.print (layout : Layout) : Value → Text
  | .scalar _ leaf => leaf.print layout
  | .list _ items => layout.enclose '[' ']' (Value.printItems layout.inner items)
  | .object _ fields => layout.enclose '{' '}' (Value.printFields layout.inner fields)

def Value.printItems (layout : Layout) : List Value → List Text
  | [] => []
  | item :: rest => item.print layout :: Value.printItems layout rest

def Value.printFields (layout : Layout) : List (Name × Value) → List Text
  | [] => []
  | (name, value) :: rest =>
    (name ++ ": ".toList ++ value.print layout) :: Value.printFields layout rest

end

def Argument.print (argument : Argument) : Text :=
  argument.name ++ ": ".toList ++ argument.value.print none

/-- Arguments between parentheses; nothing when there are none. -/
def Argument.printAll (arguments : List Argument) : Text :=
  if arguments.isEmpty then []
  else Layout.enclose none '(' ')' (arguments.map Argument.print)

def Directive.print (directive : Directive) : Text :=
  '@' :: directive.name ++ Argument.printAll directive.arguments

def Directive.printAll (directives : List Directive) : Text :=
  directives.flatMap fun directive => ' ' :: directive.print

def FieldHead.print (head : FieldHead) : Text :=
  (match head.label with
    | some label => label.name ++ ": ".toList
    | none => []) ++
    head.name.name ++ Argument.printAll head.arguments ++ Directive.printAll head.directives

def InlineHead.print (head : InlineHead) : Text :=
  "...".toList ++
    (match head.onType with
      | some name => " on ".toList ++ name
      | none => []) ++
    Directive.printAll head.directives

def FragmentSpread.print (made : FragmentSpread) : Text :=
  "...".toList ++ made.name ++ Directive.printAll made.directives

namespace Layout

/-- One line of a selection set, indented `level` steps. -/
def line (level : Nat) (text : Text) : Text := Text.spaces (2 * level) ++ text

/-- The lines of a node with a selection set: the node and an opening brace, what it selects, and
the closing brace. -/
def block (level : Nat) (head : Text) (selected : List Text) : List Text :=
  line level (head ++ [' ', '{']) :: selected ++ [line level ['}']]

end Layout

mutual

/-- The lines of a selection, its first one indented `level` steps. Only an inline fragment is
written with braces when it selects nothing. -/
def Selection.lines (level : Nat) : Selection → List Text
  | .field head [] => [Layout.line level head.print]
  | .field head (first :: more) =>
    Layout.block level head.print (first.lines (level + 1) ++ Selection.linesOfAll (level + 1) more)
  | .inline head [] => [Layout.line level (head.print ++ [' ', '{', '}'])]
  | .inline head (first :: more) =>
    Layout.block level head.print (first.lines (level + 1) ++ Selection.linesOfAll (level + 1) more)
  | .spread made => [Layout.line level made.print]

def Selection.linesOfAll (level : Nat) : List Selection → List Text
  | [] => []
  | selection :: rest => selection.lines level ++ Selection.linesOfAll level rest

end

/-- The selection set of a definition. -/
def Selection.printSet : List Selection → Text
  | [] => ['{', '}']
  | selections => Text.ofLines (['{'] :: Selection.linesOfAll 1 selections ++ [['}']])

def VariableDefinition.print (declared : VariableDefinition) : Text :=
  '$' :: declared.name ++ ": ".toList ++ declared.type.print ++
    (match declared.default with
      | some value => " = ".toList ++ value.print none
      | none => []) ++
    Directive.printAll declared.directives

def Operation.isShorthand (operation : Operation) : Bool :=
  operation.kind = .query && operation.name.isNone && operation.variableDefinitions.isEmpty &&
    operation.directives.isEmpty

/-- An operation; only the first definition of a document may be shorthand. -/
def Operation.print (first : Bool) (operation : Operation) : Text :=
  let body := Selection.printSet operation.selections
  if first && operation.isShorthand then body
  else
    operation.kind.keyword ++
      (match operation.name with
        | some name => ' ' :: name
        | none => []) ++
      (if operation.variableDefinitions.isEmpty then []
        else
          Layout.enclose none '(' ')'
            (operation.variableDefinitions.map VariableDefinition.print)) ++
      Directive.printAll operation.directives ++ ' ' :: body

def Fragment.print (fragment : Fragment) : Text :=
  "fragment ".toList ++ fragment.name ++ " on ".toList ++ fragment.onType ++
    Directive.printAll fragment.directives ++ ' ' :: Selection.printSet fragment.selections

/-- A description and the line break after it. -/
def printDescription (level : Nat) : Option Text → Text
  | none => []
  | some value =>
    (if StringValue.fitsBlock value then StringValue.block (2 * level) value
      else StringValue.quoted value) ++ Layout.newLine level

/-- An argument definition or input field. One with a description always has line breaks. -/
def InputValue.print (layout : Layout) (input : InputValue) : Text :=
  printDescription (layout.getD 0) input.description ++
    input.name ++ ": ".toList ++ input.type.print ++
    (match input.default with
      | some value => " = ".toList ++ value.print layout
      | none => []) ++
    Directive.printAll input.directives

/-- Argument definitions, on lines of their own when one has a description or directive. -/
def InputValue.printArguments (level : Nat) (arguments : List InputValue) : Text :=
  if arguments.isEmpty then []
  else
    let layout : Layout :=
      if arguments.any fun input => input.description.isSome || !input.directives.isEmpty then
        some level
      else none
    layout.enclose '(' ')' (arguments.map (InputValue.print layout.inner))

def FieldDefinition.print (level : Nat) (field : FieldDefinition) : Text :=
  printDescription level field.description ++ field.name ++
    InputValue.printArguments level field.arguments ++ ": ".toList ++ field.type.print ++
    Directive.printAll field.directives

def EnumValue.print (level : Nat) (value : EnumValue) : Text :=
  printDescription level value.description ++ value.name ++ Directive.printAll value.directives

def DirectiveDefinition.print (definition : DirectiveDefinition) : Text :=
  printDescription 0 definition.description ++ "directive @".toList ++ definition.name ++
    InputValue.printArguments 0 definition.arguments ++
    (if definition.repeatable then " repeatable".toList else []) ++ " on ".toList ++
    Text.joinWith " | ".toList definition.locations

namespace TypeBody

def keyword : TypeBody → Text
  | scalar => "scalar".toList
  | object .. => "type".toList
  | interface .. => "interface".toList
  | union _ => "union".toList
  | enum _ => "enum".toList
  | input _ => "input".toList

def printInterfaces (names : List Name) : Text :=
  if names.isEmpty then [] else " implements ".toList ++ Text.joinWith " & ".toList names

/-- Members between braces after a space; nothing when there are none. -/
def printMembers (members : List Text) : Text :=
  if members.isEmpty then [] else ' ' :: Layout.braces 0 members

end TypeBody

/-- A type after its keyword. -/
def TypeDefinition.print (definition : TypeDefinition) : Text :=
  let directives := Directive.printAll definition.directives
  definition.body.keyword ++ ' ' :: definition.name ++
    match definition.body with
    | .scalar => directives
    | .object interfaces fields | .interface interfaces fields =>
      TypeBody.printInterfaces interfaces ++ directives ++
        TypeBody.printMembers (fields.map (FieldDefinition.print 1))
    | .union members =>
      directives ++
        (if members.isEmpty then [] else " = ".toList ++ Text.joinWith " | ".toList members)
    | .enum values => directives ++ TypeBody.printMembers (values.map (EnumValue.print 1))
    | .input fields =>
      directives ++ TypeBody.printMembers (fields.map (InputValue.print (some 1)))

def SchemaDefinition.print (definition : SchemaDefinition) : Text :=
  "schema".toList ++ Directive.printAll definition.directives ++
    TypeBody.printMembers (definition.roots.map fun (kind, name) =>
      kind.keyword ++ ": ".toList ++ name)

def Definition.print (first : Bool) : Definition → Text
  | .operation stated => stated.print first
  | .fragment stated => stated.print
  | .directive stated => stated.print
  | .schema description stated => printDescription 0 description ++ stated.print
  | .schemaExtension stated => "extend ".toList ++ stated.print
  | .type description stated => printDescription 0 description ++ stated.print
  | .typeExtension stated => "extend ".toList ++ stated.print

/-- The standard written form, without a line break at its end. -/
def Document.print (document : Document) : Text :=
  match document.definitions with
  | [] => []
  | first :: more =>
    Text.joinWith ['\n', '\n'] (first.print true :: more.map (Definition.print false))

end RelayWorkbench.GraphQL
