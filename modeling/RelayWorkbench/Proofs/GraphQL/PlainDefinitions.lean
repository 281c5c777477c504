import RelayWorkbench.GraphQL.Construction
import RelayWorkbench.Proofs.GraphQL.PrintedTypes

/-! Definitions that are written by hand: operations with some variables and one root field that
takes each of them as an argument, and fragments with one field. -/

namespace RelayWorkbench.GraphQL

namespace Reading

/-- The lexemes of items in parentheses; nothing when there are none. -/
def enclosed {item : Type} (write : item → List Lexeme) (items : List item) : List Lexeme :=
  if items.isEmpty then [] else .mark '(' :: (items.flatMap write ++ [.mark ')'])

/-- The lexemes that declare a variable of a type. -/
def declaring (declared : Name × TypeRef) : List Lexeme :=
  .mark '$' :: .name declared.1 :: .mark ':' :: declared.2.lexemes

/-- The lexemes that pass a variable to the argument of its name. -/
def passing (name : Name) : List Lexeme := [.name name, .mark ':', .mark '$', .name name]

/-- An argument that takes the variable of its name. -/
structure Passes (passed : Name) (argument : Argument) : Prop where
  name : argument.name = passed
  value : ∃ span, argument.value = .scalar span (.ofVariable passed)

/-- A variable without a default value and without directives. -/
def plainVariable (declared : Name × TypeRef) : VariableDefinition :=
  { name := declared.1, type := declared.2 }

variable {back : List Lexeme}

private theorem any_mark {next : Option Lexeme} {char : Char} (other : next ≠ some (.mark char)) :
    next.any (· == .mark char) = false := by
  cases next with
  | none => rfl
  | some lexeme => simpa using other

theorem takes_directives_nil {constant : Bool} {budget : Nat}
    (ends : back.head? ≠ some (.mark '@')) :
    Takes back back (directives constant budget) (· = []) :=
  takes_manyOf_nil (any_mark ends)

private theorem takes_defaultValue_none (ends : back.head? ≠ some (.mark '=')) :
    Takes back back defaultValue (· = none) := by
  simp only [defaultValue]
  exact Takes.acceptMark_of_ne ends (Takes.pure rfl)

private theorem takes_variableDefinition {declared : Name × TypeRef}
    (low : declared.2.height ≤ nestingLimit)
    (ends : back = .mark ')' :: back.tail ∨ back.head?.any (· == .mark '$')) :
    Takes (declaring declared ++ back) back variableDefinition
      fun read => ∃ value ∈ read, plainVariable declared = value := by
  have follows : ∀ char, char ≠ ')' → char ≠ '$' → back.head? ≠ some (.mark char) := by
    intro char notClosing notDollar same
    rcases ends with closing | dollar
    · rw [closing] at same
      cases same
      exact notClosing rfl
    · rw [same] at dollar
      exact notDollar (by simpa using dollar)
  simp only [variableDefinition, declaring, List.cons_append]
  refine Takes.expectMark (Takes.name? (Takes.acceptMark (Takes.peek ?_)))
  rw [if_pos (TypeRef.startsType_lexemes declared.2 back)]
  refine (takes_typeRef low (follows '!' (by decide) (by decide))).next ?_
  refine (takes_defaultValue_none (follows '=' (by decide) (by decide))).next ?_
  refine (takes_directives_nil (follows '@' (by decide) (by decide))).next ?_
  exact Takes.pure ⟨_, rfl, rfl⟩

private theorem takes_value {name : Name} {budget : Nat} :
    Takes (.mark '$' :: .name name :: back) back (value false budget)
      fun read => ∃ span, read = some (.scalar span (.ofVariable name)) := by
  simp only [value, valueWith]
  refine Takes.place fun start => Takes.peek ?_
  simp only [List.head?_cons, scalar?, beq_self_eq_true, if_true, Bool.false_eq_true, if_false]
  exact Takes.advance (Takes.name? (Takes.since fun span => Takes.pure ⟨span, rfl⟩))

private theorem takes_argument (name : Name) (budget : Nat) :
    Takes (passing name ++ back) back (argument false budget)
      fun read => ∃ value ∈ read, Passes name value := by
  simp only [argument, passing, List.cons_append, List.nil_append]
  refine Takes.place fun start => Takes.name? (Takes.acceptMark ?_)
  simp only [if_true]
  refine takes_value.bind fun value => ?_
  rintro ⟨span, rfl⟩
  exact Takes.since fun whole => Takes.pure ⟨_, rfl, rfl, span, rfl⟩

private theorem takes_enclosed {item α : Type} {announces : Lexeme → Bool}
    {reads : Reading (Option α)} {write : item → List Lexeme} {good : item → α → Prop}
    (closes : announces (.mark ')') = false)
    (announced : ∀ each rest, (write each ++ rest).head?.any announces) {items : List item}
    (takes : ∀ each ∈ items, ∀ rest, rest = .mark ')' :: back ∨ rest.head?.any announces →
      Takes (write each ++ rest) rest reads fun read => ∃ value ∈ read, good each value)
    (ends : back.head? ≠ some (.mark '(')) :
    Takes (enclosed write items ++ back) back (do
      if ← acceptMark '(' then
        let read ← someOf announces reads
        expectMark ')'
        return read
      else return []) (List.Forall₂ good items) := by
  unfold enclosed
  cases items with
  | nil => exact Takes.acceptMark_of_ne ends (Takes.pure .nil)
  | cons first rest =>
    simp only [List.isEmpty_cons, Bool.false_eq_true, if_false, List.cons_append,
      List.append_assoc, List.nil_append]
    refine Takes.acceptMark ?_
    simp only [if_true]
    refine (takes_someOf announced (by simpa using closes) takes (List.cons_ne_nil first rest)).bind
      fun read holds => ?_
    exact Takes.expectMark (Takes.pure holds)

theorem takes_variableDefinitions {needed : List (Name × TypeRef)}
    (low : ∀ declared ∈ needed, declared.2.height ≤ nestingLimit)
    (ends : back.head? ≠ some (.mark '(')) :
    Takes (enclosed declaring needed ++ back) back variableDefinitions
      (· = needed.map plainVariable) := by
  have takes : Takes (enclosed declaring needed ++ back) back variableDefinitions
      (List.Forall₂ (fun declared value => plainVariable declared = value) needed) :=
    takes_enclosed (by decide) (fun _ _ => rfl) (fun declared member rest follows =>
      takes_variableDefinition (low declared member) (follows.imp (fun same => by simp [same]) id))
    ends
  refine takes.imp fun read all => ?_
  have same := List.forall₂_map_left_iff.mpr all
  rw [List.forall₂_eq_eq_eq] at same
  exact same.symm

theorem takes_arguments {names : List Name} (budget : Nat)
    (ends : back.head? ≠ some (.mark '(')) :
    Takes (enclosed passing names ++ back) back (arguments false budget)
      (List.Forall₂ Passes names) :=
  takes_enclosed (by decide) (fun _ _ => rfl) (fun name _ rest _ => takes_argument name budget) ends

/-- The lexemes of a field that takes variables. -/
def selecting (name : Name) (passed : List Name) : List Lexeme :=
  .name name :: enclosed passing passed

/-- A field of its own name that passes variables and selects nothing. -/
structure Selects (name : Name) (passed : List Name) (selection : Selection) : Prop where
  field : ∃ head, selection = .field head [] ∧ head.label = none ∧ head.name.name = name ∧
    head.directives = [] ∧ List.Forall₂ Passes passed head.arguments

private theorem takes_ident {name : Name} :
    Takes (.name name :: back) back ident? fun read => ∃ span, read = some ⟨span, name⟩ := by
  unfold ident?
  exact Takes.place fun start => Takes.name? (Takes.pure ⟨_, rfl⟩)

private theorem takes_field {name : Name} {passed : List Name} (budget : Nat)
    (set : Reading (List Selection))
    (ends : ∀ char, char ≠ '\x7d' → back.head? ≠ some (.mark char)) :
    Takes (selecting name passed ++ back) back (field budget set)
      fun read => ∃ value ∈ read, Selects name passed value := by
  have bare : ((selecting name passed ++ back)[1]? == some (.mark ':')) = false := by
    cases passed with
    | nil => simpa [selecting, enclosed, List.head?_eq_getElem?] using ends ':' (by decide)
    | cons first rest => rfl
  simp only [field]
  refine Takes.place fun start => Takes.second ?_
  rw [bare, if_neg Bool.false_ne_true]
  refine Takes.next (Takes.pure rfl) (takes_ident.bind ?_)
  rintro _ ⟨span, rfl⟩
  refine (takes_arguments budget (ends '(' (by decide))).bind fun arguments passes => ?_
  refine (takes_directives_nil (ends '@' (by decide))).next (Takes.atMark ?_)
  rw [if_neg (by simpa using ends '\x7b' (by decide))]
  exact Takes.next (Takes.pure rfl) (Takes.since fun whole =>
    Takes.pure ⟨_, rfl, _, rfl, rfl, rfl, rfl, passes⟩)

def selectingOnly (name : Name) (passed : List Name) : List Lexeme :=
  .mark '\x7b' :: (selecting name passed ++ [.mark '\x7d'])

def SelectsOnly (name : Name) (passed : List Name) (selections : List Selection) : Prop :=
  ∃ selection, selections = [selection] ∧ Selects name passed selection

private theorem takes_selectionSet (name : Name) (passed : List Name) (budget : Nat) :
    Takes (selectingOnly name passed ++ back) back (selectionSet (budget + 1))
      (SelectsOnly name passed) := by
  have parts : selectingOnly name passed ++ back = .mark '\x7b' ::
      ([()].flatMap (fun _ => selecting name passed) ++ .mark '\x7d' :: back) := by
    simp [selectingOnly]
  rw [parts]
  unfold selectionSet
  refine Takes.acceptMark ?_
  simp only [if_true]
  have item : ∀ each ∈ [()], ∀ rest, rest = .mark '\x7d' :: back ∨
      rest.head?.any startsSelection → Takes (selecting name passed ++ rest) rest (do
        if (← peek) == some .spread then spreading budget (selectionSet budget)
        else field budget (selectionSet budget))
        fun read => ∃ value ∈ read, Selects name passed value := by
    intro _ _ rest follows
    refine Takes.peek ?_
    rw [if_neg (by simp [selecting])]
    refine takes_field budget (selectionSet budget) fun char other same => ?_
    rcases follows with rfl | starts
    · cases same
      exact other rfl
    · rw [same] at starts
      exact absurd starts (by simp [startsSelection, isNameLexeme])
  refine (takes_someOf (fun _ _ => rfl) rfl item (List.cons_ne_nil () [])).bind
    fun selections holds => Takes.expectMark (Takes.pure ?_)
  cases holds with
  | cons first none =>
    cases none
    exact ⟨_, rfl, first⟩

private theorem takes_body (name : Name) (passed : List Name) :
    Takes (selectingOnly name passed ++ back) back body (SelectsOnly name passed) := by
  simp only [body]
  exact Takes.atMark (takes_selectionSet name passed 499)

private theorem selectsOnly_respan {name : Name} {passed : List Name} {selections : List Selection}
    (selects : SelectsOnly name passed selections) (move : Respan) :
    SelectsOnly name passed (Selection.respanAll move selections) := by
  obtain ⟨_, rfl, head, rfl, bare, named, plain, passes⟩ := selects
  refine ⟨.field (head.respan move) [], by simp [Selection.respanAll, Selection.respan],
    head.respan move, rfl, by simp [FieldHead.respan, bare], named,
    by simp [FieldHead.respan, plain], ?_⟩
  refine List.forall₂_map_right_iff.mpr (passes.imp fun passed argument passing => ?_)
  obtain ⟨named, span, valued⟩ := passing
  exact ⟨named, move span, by simp [Argument.respan, valued, Value.respan]⟩

end Reading

/-- What an operation is asked to be. -/
structure OperationPlan where
  kind : OperationKind
  name : Option Name
  /-- The variables with their types. -/
  needed : List (Name × TypeRef)
  field : Name
  /-- The arguments of the field, each with the variable of its name. -/
  passed : List Name
  deriving DecidableEq

namespace OperationPlan

open Reading

def lexemes (plan : OperationPlan) : List Lexeme :=
  .name plan.kind.keyword :: (plan.name.toList.map .name ++
    (enclosed declaring plan.needed ++ selectingOnly plan.field plan.passed))

/-- An operation as it was asked for, and nothing more. -/
structure IsOf (plan : OperationPlan) (stated : Operation) : Prop where
  kind : stated.kind = plan.kind
  name : stated.name = plan.name
  declares : stated.variableDefinitions = plan.needed.map plainVariable
  directives : stated.directives = []
  selects : SelectsOnly plan.field plan.passed stated.selections

private theorem takes_operation (plan : OperationPlan)
    (low : ∀ declared ∈ plan.needed, declared.2.height ≤ nestingLimit) {back : List Lexeme} :
    Takes (plan.lexemes ++ back) back (operation plan.kind) fun read =>
      ∃ value ∈ read, ∃ stated, value = .operation stated ∧ plan.IsOf stated := by
  have opens : ∀ char, char ≠ '\x7b' →
      (selectingOnly plan.field plan.passed ++ back).head? ≠ some (.mark char) := by
    intro char other same
    cases same
    exact other rfl
  simp only [operation, lexemes, List.cons_append, List.append_assoc]
  refine Takes.place fun start => Takes.advance ?_
  have rest : ∀ name, Takes (enclosed declaring plan.needed ++
      (selectingOnly plan.field plan.passed ++ back)) back (do
        let variableDefinitions ← variableDefinitions
        let directives ← directives false nestingLimit
        let selections ← body
        let span ← since start
        return some (Definition.operation
          { span, kind := plan.kind, name, variableDefinitions, directives, selections }))
        fun read => ∃ value ∈ read, ∃ stated, value = .operation stated ∧
          { plan with name }.IsOf stated := by
    intro name
    refine (takes_variableDefinitions low (opens '(' (by decide))).next ?_
    refine (takes_directives_nil (opens '@' (by decide))).next ?_
    refine (takes_body plan.field plan.passed).bind fun selections selects => ?_
    exact Takes.since fun span => Takes.pure ⟨_, rfl, _, rfl, rfl, rfl, rfl, rfl, selects⟩
  refine Takes.atName ?_
  obtain ⟨kind, name, needed, field, passed⟩ := plan
  cases name with
  | some name => exact Takes.name? (rest (some name))
  | none =>
    have unnamed : ((enclosed declaring needed ++ (selectingOnly field passed ++ back)).head?.any
        isNameLexeme) = false := by
      cases needed <;> rfl
    simp only [Option.toList_none, List.map_nil, List.nil_append]
    rw [unnamed, if_neg Bool.false_ne_true]
    exact Takes.next (Takes.pure rfl) (rest none)

private theorem takes_definition (plan : OperationPlan)
    (low : ∀ declared ∈ plan.needed, declared.2.height ≤ nestingLimit) {back : List Lexeme} :
    Takes (plan.lexemes ++ back) back definition fun read =>
      ∃ value ∈ read, ∃ stated, value = .operation stated ∧ plan.IsOf stated := by
  have keyword : OperationKind.ofKeyword? plan.kind.keyword = some plan.kind := by
    cases plan.kind <;> decide
  unfold definition
  refine Takes.peek ?_
  simp only [lexemes, List.cons_append, List.head?_cons, definitionOf, keyword, Bool.false_eq_true,
    if_false]
  exact takes_operation plan low

private theorem isOf_respan {plan : OperationPlan} {stated : Operation}
    (planned : plan.IsOf stated) (move : Respan) : plan.IsOf (stated.respan move) := by
  obtain ⟨kind, name, declares, directives, selects⟩ := planned
  refine ⟨kind, name, ?_, by simp [Operation.respan, directives], selectsOnly_respan selects move⟩
  simp only [Operation.respan, declares, List.map_map]
  rfl

/-- A text that spells what is planned is such an operation. -/
theorem exists_parse? (plan : OperationPlan)
    (low : ∀ declared ∈ plan.needed, declared.2.height ≤ nestingLimit) {text : Text}
    (spells : Lexeme.Spells text plan.lexemes) :
    ∃ stated, Document.parse? text = some ⟨[.operation stated]⟩ ∧ plan.IsOf stated := by
  obtain ⟨_, move, parsed, stated, rfl, planned⟩ :=
    Document.exists_parse?_of_takes spells.content_eq (List.cons_ne_nil _ _) fun back =>
      takes_definition plan low
  exact ⟨stated.respan move, parsed, isOf_respan planned move⟩

end OperationPlan

/-- What a fragment is asked to be. -/
structure FragmentPlan where
  name : Name
  onType : Name
  field : Name

namespace FragmentPlan

open Reading

def lexemes (plan : FragmentPlan) : List Lexeme :=
  .name "fragment".toList :: .name plan.name :: .name "on".toList :: .name plan.onType ::
    selectingOnly plan.field []

/-- A fragment as it was asked for, and nothing more. -/
structure IsOf (plan : FragmentPlan) (stated : Fragment) : Prop where
  name : stated.name = plan.name
  onType : stated.onType = plan.onType
  directives : stated.directives = []
  selects : SelectsOnly plan.field [] stated.selections

theorem content_front {name : Name} (named : Lexeme.isName name) (rest : Text) :
    Lexeme.content ("fragment ".toList ++ name ++ " on ".toList ++ rest) =
      .lexeme (.name "fragment".toList) :: .lexeme (.name name) :: .lexeme (.name "on".toList) ::
        Lexeme.content rest := by
  have split : "fragment ".toList ++ name ++ " on ".toList ++ rest =
      "fragment".toList ++ ' ' :: (name ++ ' ' :: ("on".toList ++ ' ' :: rest)) := by
    simp
  have blank : Lexeme.ignored.contains ' ' := by decide
  rw [split, Lexeme.content_name (by decide) rfl, Lexeme.content_ignored blank,
    Lexeme.content_name named rfl, Lexeme.content_ignored blank,
    Lexeme.content_name (by decide) rfl, Lexeme.content_ignored blank]

theorem spells_front {name onType : Name} (named : Lexeme.isName name)
    (typed : Lexeme.isName onType) {text : Text} {lexemes : List Lexeme}
    (spells : Lexeme.Spells text lexemes) (apart : text.head?.any Text.isWordChar = false) :
    Lexeme.Spells ("fragment ".toList ++ name ++ " on ".toList ++ onType ++ text)
      (.name "fragment".toList :: .name name :: .name "on".toList :: .name onType :: lexemes) := by
  intro rest ends
  have behind := Lexeme.Spells.name typed apart spells
  rw [List.append_assoc _ onType, List.append_assoc _ (onType ++ text), content_front named,
    behind rest ends]
  rfl

private theorem takes_fragment (plan : FragmentPlan) (other : plan.name ≠ "on".toList)
    {back : List Lexeme} :
    Takes (plan.lexemes ++ back) back fragment fun read =>
      ∃ value ∈ read, ∃ stated, value = .fragment stated ∧ plan.IsOf stated := by
  obtain ⟨name, onType, field⟩ := plan
  have called : ((Lexeme.name name :: .name "on".toList :: .name onType ::
      (selectingOnly field [] ++ back)).head? == some (.name "on".toList)) = false := by
    simpa using other
  simp only [fragment, lexemes, List.cons_append]
  refine Takes.place fun start => Takes.advance (Takes.atWord ?_)
  rw [called, if_neg Bool.false_ne_true]
  refine Takes.atName ?_
  rw [if_pos (by rfl)]
  refine Takes.name? ?_
  simp only [typeCondition, bind_assoc]
  refine Takes.acceptWord ?_
  simp only [Bool.not_true, Bool.false_eq_true, if_false]
  refine Takes.name? ((takes_directives_nil (by simp [selectingOnly])).next ?_)
  refine (takes_body field []).bind fun selections selects => ?_
  exact Takes.since fun span => Takes.pure ⟨_, rfl, _, rfl, rfl, rfl, rfl, selects⟩

private theorem takes_definition (plan : FragmentPlan) (other : plan.name ≠ "on".toList)
    {back : List Lexeme} :
    Takes (plan.lexemes ++ back) back definition fun read =>
      ∃ value ∈ read, ∃ stated, value = .fragment stated ∧ plan.IsOf stated := by
  have keyword : OperationKind.ofKeyword? "fragment".toList = none := by decide
  unfold definition
  refine Takes.peek ?_
  simp only [lexemes, List.cons_append, List.head?_cons, definitionOf, keyword, Bool.false_eq_true,
    if_false, if_true]
  exact takes_fragment plan other

private theorem isOf_respan {plan : FragmentPlan} {stated : Fragment} (planned : plan.IsOf stated)
    (move : Respan) : plan.IsOf (stated.respan move) := by
  obtain ⟨name, onType, directives, selects⟩ := planned
  exact ⟨name, onType, by simp [Fragment.respan, directives], selectsOnly_respan selects move⟩

/-- A text that spells what is planned is such a fragment. -/
theorem exists_parse? (plan : FragmentPlan) (other : plan.name ≠ "on".toList) {text : Text}
    (spells : Lexeme.Spells text plan.lexemes) :
    ∃ stated, Document.parse? text = some ⟨[.fragment stated]⟩ ∧ plan.IsOf stated := by
  obtain ⟨_, move, parsed, stated, rfl, planned⟩ :=
    Document.exists_parse?_of_takes spells.content_eq (List.cons_ne_nil _ _) fun back =>
      takes_definition plan other
  exact ⟨stated.respan move, parsed, isOf_respan planned move⟩

end FragmentPlan

namespace VariableDefinition

/-- The operation that declares a variable and nothing more. -/
private def probePlan (name : Name) (type : TypeRef) : OperationPlan :=
  ⟨.mutation, none, [(name, type)], "id".toList, []⟩

private theorem spells_probe {name : Name} {type : TypeRef} (named : Lexeme.isName name)
    (legible : type.Legible) :
    Lexeme.Spells (probe name type.print) (probePlan name type).lexemes := by
  have parts : probe name type.print = "mutation".toList ++ '(' :: '$' :: (name ++ ':' :: ' ' ::
      (type.print ++ ')' :: ' ' :: '\x7b' :: ' ' :: ("id".toList ++ [' ', '\x7d']))) := by
    unfold probe
    simp
  have blank : Lexeme.ignored.contains ' ' := by decide
  have behind : Lexeme.Spells (')' :: ' ' :: '\x7b' :: ' ' :: ("id".toList ++ [' ', '\x7d']))
      (.mark ')' :: Reading.selectingOnly "id".toList []) :=
    .mark (by decide) <| .blank blank <| .mark (by decide) <| .blank blank <|
      .name (by decide) rfl <| .blank blank <| .mark (by decide) .nil
  have typed := (TypeRef.spells_print legible.named).append behind rfl
  have whole := Lexeme.Spells.name (by decide : Lexeme.isName "mutation".toList) rfl <|
    .mark (by decide : '(' ∈ Lexeme.marks) <| .mark (by decide : '$' ∈ Lexeme.marks) <|
      .name named rfl <| .mark (by decide : ':' ∈ Lexeme.marks) <| .blank blank typed
  have lexemes : (probePlan name type).lexemes = .name OperationKind.mutation.keyword ::
      .mark '(' :: .mark '$' :: .name name :: .mark ':' :: (type.lexemes ++ .mark ')' ::
        Reading.selectingOnly "id".toList []) := by
    simp only [probePlan, OperationPlan.lexemes, Reading.enclosed, Reading.declaring,
      List.isEmpty_cons, Bool.false_eq_true, if_false, Option.toList_none, List.map_nil,
      List.nil_append, List.flatMap_cons, List.flatMap_nil, List.append_nil, List.cons_append,
      List.append_assoc]
  have keyword : OperationKind.mutation.keyword = "mutation".toList := rfl
  rw [parts, lexemes, keyword]
  exact whole

/-- A variable is defined as it is written, with the type that is printed. -/
theorem ofWritten?_print {name : Name} {type : TypeRef} (named : Lexeme.isName name)
    (legible : type.Legible) : ofWritten? name type.print = some { name, type } := by
  obtain ⟨stated, parsed, planned⟩ := (probePlan name type).exists_parse?
    (List.forall_mem_singleton.mpr legible.shallow) (spells_probe named legible)
  have declares : stated.variableDefinitions = [{ name, type }] := planned.declares
  rw [ofWritten?, parsed]
  simp [declares]

end VariableDefinition

end RelayWorkbench.GraphQL
