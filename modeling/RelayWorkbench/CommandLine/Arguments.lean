import RelayWorkbench.Text.Basic

/-! The arguments of a command line. At each level, which is the program itself or one of its
commands, they are options, operands and perhaps the name of the command that follows. -/

namespace RelayWorkbench.CommandLine

structure OptionForm where
  name : String
  letter : Option Char := none
  takesValue : Bool := false
  isRepeatable : Bool := false

/-- What an argument, or a part of one, says. -/
inductive Item where
  | flag (name : String)
  | value (name : String) (text : Text)
  | operand (text : Text)
  deriving DecidableEq, Repr

/-- How the arguments of a level end. -/
inductive Ending where
  | complete
  | command (name : Text) (rest : List Text)
  /-- An argument makes no sense here. -/
  | malformed
  deriving DecidableEq, Repr

/-- The arguments of a level as they were read. -/
structure Level where
  items : List Item
  ending : Ending
  deriving DecidableEq, Repr

namespace Level

/-- A level with more items at its front. -/
def after (items : List Item) (level : Level) : Level :=
  { level with items := items ++ level.items }

def malformed : Level := ⟨[], .malformed⟩

end Level

/-- Where the reading of an argument that is made of options stops. -/
inductive OptionEnd where
  | complete
  /-- The value of an option is the next argument. -/
  | awaits (name : String)
  | malformed
  deriving DecidableEq, Repr

def longOption (forms : List OptionForm) (text : Text) : List Item × OptionEnd :=
  let written := text.takeWhile (· ≠ '=')
  let attached := text.drop written.length
  match forms.find? (·.name.toList = written), attached with
  | none, _ => ([], .malformed)
  | some form, [] =>
    if form.takesValue then ([], .awaits form.name) else ([.flag form.name], .complete)
  | some form, _ :: value =>
    if form.takesValue then ([.value form.name value], .complete) else ([], .malformed)

/-- Options in their short forms, without the dash. The first one that takes a value takes the
rest of the argument; an equals sign in front of the value does not count. -/
def shortOptions (forms : List OptionForm) : Text → List Item × OptionEnd
  | [] => ([], .complete)
  | letter :: rest =>
    match forms.find? (·.letter = some letter) with
    | none => ([], .malformed)
    | some form =>
      if form.takesValue then
        match rest with
        | [] => ([], .awaits form.name)
        | '=' :: value => ([.value form.name value], .complete)
        | value => ([.value form.name value], .complete)
      else
        let (items, stop) := shortOptions forms rest
        (.flag form.name :: items, stop)

/-- Whether an argument is made of options, or ends them. A single dash is an operand. -/
def isDashed : Text → Bool
  | '-' :: _ :: _ => true
  | _ => false

namespace Level

/-- Read the arguments of a level. After two dashes everything is an operand. -/
def read (forms : List OptionForm) (commands : List Text) (awaited : Option String) :
    List Text → Level
  | [] => if awaited.isSome then malformed else ⟨[], .complete⟩
  | argument :: rest =>
    match awaited with
    | some name =>
      if isDashed argument then malformed
      else (read forms commands none rest).after [.value name argument]
    | none =>
      if commands.contains argument then ⟨[], .command argument rest⟩
      else if !isDashed argument then (read forms commands none rest).after [.operand argument]
      else if argument = ['-', '-'] then ⟨rest.map .operand, .complete⟩
      else
        let (items, stop) :=
          if argument[1]? = some '-' then longOption forms (argument.drop 2)
          else shortOptions forms (argument.drop 1)
        match stop with
        | .complete => (read forms commands none rest).after items
        | .awaits name => (read forms commands (some name) rest).after items
        | .malformed => malformed.after items

end Level

namespace Item

def option? : Item → Option String
  | flag name | value name _ => some name
  | operand _ => none

def operand? : Item → Option Text
  | operand text => some text
  | _ => none

def valueOf? (name : String) : Item → Option Text
  | value other text => if other = name then some text else none
  | _ => none

end Item

def hasNoRepeats (forms : List OptionForm) (items : List Item) : Bool :=
  forms.all fun form =>
    form.isRepeatable || (items.filter (·.option? = some form.name)).length ≤ 1

def valueOf? (name : String) (items : List Item) : Option Text :=
  items.findSome? (Item.valueOf? name)

def valuesOf (name : String) (items : List Item) : List Text :=
  items.filterMap (Item.valueOf? name)

def hasFlag (name : String) (items : List Item) : Bool := items.contains (.flag name)

def operands (items : List Item) : List Text := items.filterMap Item.operand?

end RelayWorkbench.CommandLine
