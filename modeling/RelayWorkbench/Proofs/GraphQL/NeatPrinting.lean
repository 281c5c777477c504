import RelayWorkbench.Proofs.GraphQL.Leaves
import RelayWorkbench.Proofs.GraphQL.Neat

/-! Printed nodes are neat when their leaves are what they should be: words that can be read, and
strings that spare the host language. -/

namespace RelayWorkbench.GraphQL

open Lexeme (IsWord)
open RelayWorkbench.Host (Language)

/-- A leaf that can be read back, and that the host language reads over. -/
def Lexeme.Suits (language : Language) : Lexeme → Prop
  | name text | int text | float text => IsWord text
  | string value => language.Spares value
  | mark _ | spread => True

variable {language : Language}

theorem Lexeme.Worded.suits {leaf : Lexeme} (worded : leaf.Worded)
    (spares : ∀ value, leaf = .string value → language.Spares value) : leaf.Suits language := by
  cases leaf with
  | name | int | float => exact worded
  | string value => exact spares value rfl
  | mark | spread => trivial

theorem Follows.nil : Follows language [] := .inl rfl

theorem Follows.append {front back : Text} (follows : Follows language front)
    (more : Follows language back) : Follows language (front ++ back) := by
  rcases follows with rfl | ⟨neat, ends⟩
  · exact more
  · refine .inr ⟨neat.follow more, ?_⟩
    cases front with
    | nil => exact absurd rfl neat.ne_nil
    | cons => exact ends

theorem Layout.head?_enclose (layout : Layout) (opening closing : Char) (items : List Text) :
    (layout.enclose opening closing items).head? = some opening := by
  unfold enclose
  split <;> rfl

theorem Layout.follows_enclose (layout : Layout) {α : Type} {items : List α} {print : α → Text}
    (quiet : ∀ item ∈ items, Quiet language (print item)) :
    Follows language (if items.isEmpty then [] else layout.enclose '(' ')' (items.map print)) := by
  split
  · exact .nil
  · refine .inr ⟨?_, by simp [head?_enclose]⟩
    exact layout.neat_enclose (by decide) (by decide) (by decide) (List.forall_mem_map.mpr quiet)

private theorem neat_printString (layout : Layout) {value : Text} (spares : language.Spares value) :
    Neat language (Scalar.printString layout value) := by
  unfold Scalar.printString
  split
  · split
    · next both => exact .block _ (Bool.and_eq_true_iff.mp both).2 spares
    · exact .quoted spares
  · exact .quoted spares

theorem Scalar.neat_print {leaf : Scalar} (suit : ∀ lexeme ∈ leaf.leaves, lexeme.Suits language)
    (layout : Layout) : Neat language (leaf.print layout) := by
  cases leaf with
  | null => exact .of_word (by decide : IsWord "null".toList)
  | boolean value =>
    cases value with
    | true => exact .of_word (by decide : IsWord "true".toList)
    | false => exact .of_word (by decide : IsWord "false".toList)
  | int | float | enum => exact .of_word (suit _ (List.mem_singleton_self _))
  | ofVariable => exact .of_variable (suit _ (List.mem_singleton_self _))
  | string => exact neat_printString layout (suit _ (List.mem_singleton_self _))

theorem TypeRef.neat_print {type : TypeRef} (suit : ∀ leaf ∈ type.leaves, leaf.Suits language) :
    Neat language type.print := by
  have mark : ∀ required : Bool, Follows language (if required then ['!'] else []) := by
    intro required
    cases required with
    | false => exact .nil
    | true => exact .inr ⟨(Quiet.nil).close (by decide) (by decide), nofun⟩
  induction type with
  | named name required =>
    have word : IsWord name := suit _ (List.mem_singleton_self _)
    exact (Neat.of_word word).follow (mark required)
  | list item required ih =>
    have opened : Quiet language ('[' :: item.print) :=
      .filler_append (by decide : Filler ['[']) (ih suit).toQuiet
    have closed : Neat language ('[' :: item.print ++ [']']) := opened.close (by decide) (by decide)
    simpa [print] using closed.follow (mark required)

namespace Value

mutual

theorem neat_print (layout : Layout) : ∀ value : Value,
    (∀ leaf ∈ value.leaves, leaf.Suits language) → Neat language (value.print layout)
  | scalar _ _, suit => Scalar.neat_print suit layout
  | list _ items, suit => layout.neat_enclose (by decide) (by decide) (by decide)
      (quiet_printItems layout.inner items suit)
  | object _ fields, suit => layout.neat_enclose (by decide) (by decide) (by decide)
      (quiet_printFields layout.inner fields suit)

theorem quiet_printItems (layout : Layout) : ∀ items : List Value,
    (∀ leaf ∈ leavesOfItems items, leaf.Suits language) →
      ∀ text ∈ printItems layout items, Quiet language text
  | [], _ => nofun
  | item :: rest, suit => by
    obtain ⟨own, others⟩ := List.forall_mem_append.mp suit
    exact List.forall_mem_cons.mpr
      ⟨(neat_print layout item own).toQuiet, quiet_printItems layout rest others⟩

theorem quiet_printFields (layout : Layout) : ∀ fields : List (Name × Value),
    (∀ leaf ∈ leavesOfFields fields, leaf.Suits language) →
      ∀ text ∈ printFields layout fields, Quiet language text
  | [], _ => nofun
  | (name, value) :: rest, suit => by
    obtain ⟨own, others⟩ := List.forall_mem_append.mp suit
    obtain ⟨word, inside⟩ := List.forall_mem_cons.mp own
    have named : IsWord name := word
    refine List.forall_mem_cons.mpr ⟨?_, quiet_printFields layout rest others⟩
    exact .between (by decide) (by decide) (.of_filler named.filler)
      (neat_print layout value inside).toQuiet

end

end Value

theorem Argument.neat_print {argument : Argument}
    (suit : ∀ leaf ∈ argument.leaves, leaf.Suits language) : Neat language argument.print := by
  obtain ⟨word, value⟩ := forall_leaves.mp suit
  have named : IsWord argument.name := word
  exact .between (by decide) (by decide) (.of_filler named.filler)
    (argument.value.neat_print none value)

theorem Argument.follows_printAll {arguments : List Argument}
    (suit : ∀ argument ∈ arguments, ∀ leaf ∈ argument.leaves, leaf.Suits language) :
    Follows language (printAll arguments) :=
  Layout.follows_enclose none fun argument member => (neat_print (suit argument member)).toQuiet

theorem Directive.neat_print {directive : Directive}
    (suit : ∀ leaf ∈ directive.leaves, leaf.Suits language) : Neat language directive.print := by
  obtain ⟨word, arguments⟩ := forall_leaves.mp suit
  have named : IsWord directive.name := word
  exact .follow (.filler_append (by decide : Filler ['@']) (.of_word named))
    (Argument.follows_printAll arguments)

theorem Directive.follows_printAll {directives : List Directive}
    (suit : ∀ directive ∈ directives, ∀ leaf ∈ directive.leaves, leaf.Suits language) :
    Follows language (printAll directives) := by
  induction directives with
  | nil => exact .nil
  | cons directive rest ih =>
    obtain ⟨own, others⟩ := List.forall_mem_cons.mp suit
    have spaced : Follows language (' ' :: directive.print) :=
      .inr ⟨.filler_append (by decide : Filler [' ']) (neat_print own), nofun⟩
    exact spaced.append (ih others)

private theorem neat_labelled {name : Text} (named : IsWord name) (label : Option Ident) :
    (∀ written ∈ label, IsWord written.name) →
      Neat language ((match label with
        | some label => label.name ++ ": ".toList
        | none => []) ++ name) := by
  intro labelled
  cases label with
  | none => exact .of_word named
  | some label =>
    exact .between (by decide) (by decide) (.of_filler (labelled label rfl).filler)
      (.of_word named)

theorem FieldHead.neat_print {head : FieldHead}
    (suit : ∀ leaf ∈ head.leaves, leaf.Suits language) : Neat language head.print := by
  obtain ⟨labelled, word, arguments, directives⟩ := forall_leaves.mp suit
  exact ((neat_labelled word _ labelled).follow (Argument.follows_printAll arguments)).follow
    (Directive.follows_printAll directives)

private theorem neat_dots : Neat language "...".toList :=
  (Quiet.of_filler (by decide : Filler "..".toList)).close (by decide : Filler ['.']) (by decide)

private theorem follows_onType (type : Option Name) :
    (∀ name ∈ type, IsWord name) →
      Follows language (match type with
        | some name => " on ".toList ++ name
        | none => []) := by
  intro typed
  cases type with
  | none => exact .nil
  | some name => exact .inr ⟨.filler_append (by decide) (.of_word (typed name rfl)), nofun⟩

theorem InlineHead.neat_print {head : InlineHead}
    (suit : ∀ leaf ∈ head.leaves, leaf.Suits language) : Neat language head.print := by
  obtain ⟨typed, directives⟩ := forall_leaves.mp suit
  exact (neat_dots.follow (follows_onType _ typed)).follow (Directive.follows_printAll directives)

theorem FragmentSpread.neat_print {made : FragmentSpread}
    (suit : ∀ leaf ∈ made.leaves, leaf.Suits language) : Neat language made.print := by
  obtain ⟨word, directives⟩ := forall_leaves.mp suit
  have named : IsWord made.name := word
  exact .follow (.filler_append (by decide : Filler "...".toList) (.of_word named))
    (Directive.follows_printAll directives)

namespace Selection

private theorem quiet_line (level : Nat) {text : Text} (quiet : Quiet language text) :
    Quiet language (Layout.line level text) :=
  .filler_append (filler_spaces _) quiet

private theorem quiet_block (level : Nat) {head : Text} (neat : Neat language head)
    {selected : List Text} (quiet : ∀ line ∈ selected, Quiet language line) :
    ∀ line ∈ Layout.block level head selected, Quiet language line := by
  have opens : Quiet language (head ++ [' ', '{']) := neat.toQuiet.append_filler (by decide)
  have closes : Quiet language ['}'] := .of_filler (by decide)
  simp only [Layout.block, List.cons_append, List.forall_mem_cons, List.forall_mem_append]
  exact ⟨quiet_line level opens, quiet, quiet_line level closes, nofun⟩

mutual

theorem quiet_lines (level : Nat) : ∀ selection : Selection,
    (∀ leaf ∈ selection.leaves, leaf.Suits language) →
      ∀ line ∈ selection.lines level, Quiet language line
  | field head [], suit => by
    have neat := FieldHead.neat_print (List.forall_mem_append.mp suit).1
    simpa [lines] using quiet_line level neat.toQuiet
  | field head (first :: more), suit => by
    obtain ⟨own, others⟩ := List.forall_mem_append.mp suit
    obtain ⟨one, rest⟩ := List.forall_mem_append.mp others
    exact quiet_block level (FieldHead.neat_print own) (List.forall_mem_append.mpr
      ⟨quiet_lines (level + 1) first one, quiet_linesOfAll (level + 1) more rest⟩)
  | inline head [], suit => by
    have neat := InlineHead.neat_print (List.forall_mem_append.mp suit).1
    have braces : Quiet language (head.print ++ [' ', '{', '}']) :=
      neat.toQuiet.append_filler (by decide)
    simpa [lines] using quiet_line level braces
  | inline head (first :: more), suit => by
    obtain ⟨own, others⟩ := List.forall_mem_append.mp suit
    obtain ⟨one, rest⟩ := List.forall_mem_append.mp others
    exact quiet_block level (InlineHead.neat_print own) (List.forall_mem_append.mpr
      ⟨quiet_lines (level + 1) first one, quiet_linesOfAll (level + 1) more rest⟩)
  | spread made, suit => by
    simpa [lines] using quiet_line level (FragmentSpread.neat_print suit).toQuiet

theorem quiet_linesOfAll (level : Nat) : ∀ selections : List Selection,
    (∀ leaf ∈ leavesOfAll selections, leaf.Suits language) →
      ∀ line ∈ linesOfAll level selections, Quiet language line
  | [], _ => nofun
  | selection :: rest, suit => by
    obtain ⟨own, others⟩ := List.forall_mem_append.mp suit
    exact List.forall_mem_append.mpr
      ⟨quiet_lines level selection own, quiet_linesOfAll level rest others⟩

end

theorem neat_printSet {selections : List Selection}
    (suit : ∀ selection ∈ selections, ∀ leaf ∈ selection.leaves, leaf.Suits language) :
    Neat language (printSet selections) := by
  have opens : Quiet language ['{'] := .of_filler (by decide)
  have closes : Neat language ['}'] := Quiet.nil.close (by decide) (by decide)
  have lines := quiet_linesOfAll 1 selections (forall_leavesOfAll.mpr suit)
  cases selections with
  | nil => exact opens.close (by decide) (by decide)
  | cons first more => exact Neat.ofLines_concat (List.forall_mem_cons.mpr ⟨opens, lines⟩) closes

private theorem neat_append_printSet {head : Text} (neat : Neat language head)
    {selections : List Selection}
    (suit : ∀ selection ∈ selections, ∀ leaf ∈ selection.leaves, leaf.Suits language) :
    Neat language (head ++ ' ' :: printSet selections) :=
  .append_cons (by decide) neat.toQuiet (neat_printSet suit)

end Selection

private theorem follows_default (layout : Layout) (default : Option Value) :
    (∀ value ∈ default, ∀ leaf ∈ value.leaves, leaf.Suits language) →
      Follows language (match default with
        | some value => " = ".toList ++ value.print layout
        | none => []) := by
  intro suit
  cases default with
  | none => exact .nil
  | some value =>
    exact .inr ⟨.filler_append (by decide) (value.neat_print layout (suit value rfl)), nofun⟩

theorem VariableDefinition.neat_print {declared : VariableDefinition}
    (suit : ∀ leaf ∈ declared.leaves, leaf.Suits language) : Neat language declared.print := by
  obtain ⟨word, typed, default, directives⟩ := forall_leaves.mp suit
  have named : IsWord declared.name := word
  have type : Neat language ('$' :: declared.name ++ ": ".toList ++ declared.type.print) :=
    .between (by decide) (by decide) (.of_filler named.filler_variable) (TypeRef.neat_print typed)
  exact (type.follow (follows_default none _ default)).follow
    (Directive.follows_printAll directives)

private theorem neat_keyword (kind : OperationKind) : Neat language kind.keyword := by
  cases kind <;> exact .of_word (by decide)

private theorem follows_name (name : Option Name) :
    (∀ written ∈ name, IsWord written) →
      Follows language (match name with
        | some name => ' ' :: name
        | none => []) := by
  intro named
  cases name with
  | none => exact .nil
  | some name =>
    exact .inr ⟨.filler_append (by decide : Filler [' ']) (.of_word (named name rfl)), by simp⟩

theorem Operation.neat_print {operation : Operation}
    (suit : ∀ leaf ∈ operation.leaves, leaf.Suits language) (first : Bool) :
    Neat language (operation.print first) := by
  obtain ⟨named, declares, directives, selections⟩ := forall_leaves.mp suit
  have parenthesized : Follows language (if operation.variableDefinitions.isEmpty then []
      else Layout.enclose none '(' ')'
        (operation.variableDefinitions.map VariableDefinition.print)) :=
    Layout.follows_enclose none fun declared member =>
      (VariableDefinition.neat_print (declares declared member)).toQuiet
  have head := (((neat_keyword operation.kind).follow (follows_name _ named)).follow
    parenthesized).follow (Directive.follows_printAll directives)
  unfold print
  split
  · exact Selection.neat_printSet selections
  · exact Selection.neat_append_printSet head selections

theorem Fragment.neat_print {fragment : Fragment}
    (suit : ∀ leaf ∈ fragment.leaves, leaf.Suits language) : Neat language fragment.print := by
  obtain ⟨named, typed, directives, selections⟩ := forall_leaves.mp suit
  have name : Neat language ("fragment ".toList ++ fragment.name) :=
    .filler_append (by decide) (.of_word named)
  have type : Neat language
      ("fragment ".toList ++ fragment.name ++ " on ".toList ++ fragment.onType) :=
    .between (by decide) (by decide) name.toQuiet (.of_word typed)
  exact Selection.neat_append_printSet (type.follow (Directive.follows_printAll directives))
    selections

private theorem quiet_description (level : Nat) {description : Option Text}
    (spares : ∀ value ∈ description, language.Spares value) :
    Quiet language (printDescription level description) := by
  unfold printDescription
  split
  · exact .nil
  · next value =>
    have spares := spares value rfl
    have written : Quiet language (if StringValue.fitsBlock value then
        StringValue.block (2 * level) value else StringValue.quoted value) := by
      split
      · next fits => exact (Neat.block _ fits spares).toQuiet
      · exact (Neat.quoted spares).toQuiet
    exact written.append_filler (filler_newLine level)

private theorem neat_described (level : Nat) {description : Option Text}
    (spares : ∀ value ∈ description, language.Spares value) {name : Name} (named : IsWord name) :
    Neat language (printDescription level description ++ name) :=
  .append (quiet_description level spares) (.of_word named) (by simpa using named.head?_ne [])

theorem InputValue.neat_print {input : InputValue}
    (suit : ∀ leaf ∈ input.leaves, leaf.Suits language) (layout : Layout) :
    Neat language (input.print layout) := by
  obtain ⟨described, named, typed, default, directives⟩ := forall_leaves.mp suit
  have name := neat_described (layout.getD 0) described named
  have type : Neat language (printDescription (layout.getD 0) input.description ++ input.name ++
      ": ".toList ++ input.type.print) :=
    .between (by decide) (by decide) name.toQuiet (TypeRef.neat_print typed)
  exact (type.follow (follows_default layout _ default)).follow
    (Directive.follows_printAll directives)

theorem InputValue.follows_printArguments (level : Nat) {arguments : List InputValue}
    (suit : ∀ argument ∈ arguments, ∀ leaf ∈ argument.leaves, leaf.Suits language) :
    Follows language (printArguments level arguments) :=
  Layout.follows_enclose _ fun argument member => (neat_print (suit argument member) _).toQuiet

theorem FieldDefinition.neat_print {field : FieldDefinition}
    (suit : ∀ leaf ∈ field.leaves, leaf.Suits language) (level : Nat) :
    Neat language (field.print level) := by
  obtain ⟨described, named, arguments, typed, directives⟩ := forall_leaves.mp suit
  have name := (neat_described level described named).follow
    (InputValue.follows_printArguments level arguments)
  have type : Neat language (printDescription level field.description ++ field.name ++
      InputValue.printArguments level field.arguments ++ ": ".toList ++ field.type.print) :=
    .between (by decide) (by decide) name.toQuiet (TypeRef.neat_print typed)
  exact type.follow (Directive.follows_printAll directives)

theorem EnumValue.neat_print {value : EnumValue}
    (suit : ∀ leaf ∈ value.leaves, leaf.Suits language) (level : Nat) :
    Neat language (value.print level) := by
  obtain ⟨described, named, directives⟩ := forall_leaves.mp suit
  exact (neat_described level described named).follow (Directive.follows_printAll directives)

private theorem neat_names {separator : Text} (fills : Filler separator) (written : separator ≠ [])
    {names : List Name} (words : ∀ name ∈ names, IsWord name) (some : names ≠ []) :
    Neat language (Text.joinWith separator names) :=
  .joinWith fills written (fun name member => .of_word (words name member)) some

private theorem DirectiveDefinition.quiet_head {definition : DirectiveDefinition}
    (suit : ∀ leaf ∈ definition.leaves, leaf.Suits language) :
    Quiet language (printDescription 0 definition.description ++ "directive @".toList ++
      definition.name ++ InputValue.printArguments 0 definition.arguments ++
      (if definition.repeatable then " repeatable".toList else [])) := by
  obtain ⟨described, named, arguments, -⟩ := forall_leaves.mp suit
  have name : Neat language (printDescription 0 definition.description ++ "directive @".toList ++
      definition.name) :=
    .between (by decide) (by decide) (quiet_description 0 described) (.of_word named)
  have repeatable : Follows language
      (if definition.repeatable then " repeatable".toList else []) := by
    split
    · exact .inr ⟨.filler_append (by decide : Filler [' '])
        (.of_word (by decide : IsWord "repeatable".toList)), nofun⟩
    · exact .nil
  exact ((name.follow (InputValue.follows_printArguments 0 arguments)).follow repeatable).toQuiet

theorem DirectiveDefinition.quiet_print {definition : DirectiveDefinition}
    (suit : ∀ leaf ∈ definition.leaves, leaf.Suits language) :
    Quiet language definition.print := by
  obtain ⟨-, -, -, located⟩ := forall_leaves.mp suit
  exact .between (by decide) (by decide) (quiet_head suit)
    (.joinWith (by decide) (by decide) fun location member =>
      (Neat.of_word (located location member)).toQuiet)

theorem DirectiveDefinition.neat_print {definition : DirectiveDefinition}
    (suit : ∀ leaf ∈ definition.leaves, leaf.Suits language)
    (somewhere : definition.locations ≠ []) : Neat language definition.print := by
  obtain ⟨-, -, -, located⟩ := forall_leaves.mp suit
  exact .between (by decide) (by decide) (quiet_head suit)
    (neat_names (by decide) (by decide) located somewhere)

namespace TypeBody

theorem isWord_keyword : ∀ body : TypeBody, IsWord body.keyword
  | scalar => (by decide : IsWord "scalar".toList)
  | object .. => (by decide : IsWord "type".toList)
  | interface .. => (by decide : IsWord "interface".toList)
  | union _ => (by decide : IsWord "union".toList)
  | enum _ => (by decide : IsWord "enum".toList)
  | input _ => (by decide : IsWord "input".toList)

theorem follows_printInterfaces {names : List Name} (words : ∀ name ∈ names, IsWord name) :
    Follows language (printInterfaces names) := by
  unfold printInterfaces
  split
  · exact .nil
  · next some =>
    refine .inr ⟨.filler_append (by decide) (neat_names (by decide) (by decide) words ?_), nofun⟩
    simpa using some

theorem follows_printMembers {members : List Text}
    (quiet : ∀ member ∈ members, Quiet language member) :
    Follows language (printMembers members) := by
  unfold printMembers
  split
  · exact .nil
  · exact .inr ⟨.filler_append (by decide : Filler [' ']) (Layout.neat_braces 0 quiet), nofun⟩

end TypeBody

theorem TypeDefinition.neat_print {definition : TypeDefinition}
    (suit : ∀ leaf ∈ definition.leaves, leaf.Suits language) : Neat language definition.print := by
  obtain ⟨named, directed, members⟩ := forall_leaves.mp suit
  have name : Neat language (definition.body.keyword ++ ' ' :: definition.name) :=
    .append_cons (by decide) (.of_filler definition.body.isWord_keyword.filler) (.of_word named)
  have directives := Directive.follows_printAll directed
  refine name.follow ?_
  cases same : definition.body with
  | scalar => exact directives
  | object interfaces fields | interface interfaces fields =>
    rw [same] at members
    obtain ⟨implemented, fields⟩ := List.forall_mem_append.mp members
    rw [List.forall_mem_map] at implemented
    rw [List.forall_mem_flatMap] at fields
    refine ((TypeBody.follows_printInterfaces implemented).append directives).append
      (TypeBody.follows_printMembers ?_)
    simpa using fun field member => (FieldDefinition.neat_print (fields field member) 1).toQuiet
  | union names =>
    rw [same] at members
    have words : ∀ name ∈ names, IsWord name := fun name member =>
      members _ (List.mem_map_of_mem member)
    refine directives.append ?_
    split
    · exact .nil
    · next some =>
      refine .inr ⟨.filler_append (by decide) (neat_names (by decide) (by decide) words ?_), nofun⟩
      simpa using some
  | enum values =>
    rw [same] at members
    have values := List.forall_mem_flatMap.mp members
    refine directives.append (TypeBody.follows_printMembers ?_)
    simpa using fun value member => (EnumValue.neat_print (values value member) 1).toQuiet
  | input fields =>
    rw [same] at members
    have fields := List.forall_mem_flatMap.mp members
    refine directives.append (TypeBody.follows_printMembers ?_)
    simpa using fun field member => (InputValue.neat_print (fields field member) (some 1)).toQuiet

theorem SchemaDefinition.neat_print {definition : SchemaDefinition}
    (suit : ∀ leaf ∈ definition.leaves, leaf.Suits language) : Neat language definition.print := by
  obtain ⟨directives, named⟩ := forall_leaves.mp suit
  have keyword : Neat language "schema".toList := .of_word (by decide)
  refine (keyword.follow (Directive.follows_printAll directives)).follow
    (TypeBody.follows_printMembers ?_)
  exact List.forall_mem_map.mpr fun root member => .between (by decide) (by decide)
    (neat_keyword root.1).toQuiet (Neat.of_word (named root member)).toQuiet

theorem Definition.neat_print {stated : Definition}
    (suit : ∀ leaf ∈ stated.leaves, leaf.Suits language) (located : stated.isLocated)
    (first : Bool) : Neat language (stated.print first) := by
  cases stated with
  | operation stated => exact Operation.neat_print suit first
  | fragment stated => exact Fragment.neat_print suit
  | directive stated =>
    exact DirectiveDefinition.neat_print suit (by simpa [isLocated] using located)
  | schema description stated =>
    obtain ⟨described, own⟩ := List.forall_mem_append.mp suit
    exact .append (quiet_description 0 (forall_leavesOfDescription.mp described))
      (SchemaDefinition.neat_print own) nofun
  | schemaExtension stated =>
    exact .filler_append (by decide) (SchemaDefinition.neat_print suit)
  | type description stated =>
    obtain ⟨described, own⟩ := List.forall_mem_append.mp suit
    refine .append (quiet_description 0 (forall_leavesOfDescription.mp described))
      (TypeDefinition.neat_print own) ?_
    rw [TypeDefinition.print, List.append_assoc]
    exact stated.body.isWord_keyword.head?_ne _
  | typeExtension stated => exact .filler_append (by decide) (TypeDefinition.neat_print suit)

theorem Definition.quiet_print {stated : Definition}
    (suit : ∀ leaf ∈ stated.leaves, leaf.Suits language) (first : Bool) :
    Quiet language (stated.print first) := by
  cases stated with
  | directive stated => exact DirectiveDefinition.quiet_print suit
  | operation | fragment | schema | schemaExtension | type | typeExtension =>
    exact (neat_print suit rfl first).toQuiet

/-- A document is printed from its leaves and from what means nothing. -/
theorem Document.quiet_print {document : Document}
    (suit : ∀ leaf ∈ document.leaves, leaf.Suits language) : Quiet language document.print := by
  have suit := forall_leaves.mp suit
  unfold print
  split
  · exact .nil
  · next first more same =>
    rw [same] at suit
    obtain ⟨own, others⟩ := List.forall_mem_cons.mp suit
    refine .joinWith (by decide) (by decide)
      (List.forall_mem_cons.mpr ⟨Definition.quiet_print own true, ?_⟩)
    exact List.forall_mem_map.mpr fun stated member =>
      Definition.quiet_print (others stated member) false

theorem Document.neat_print {document : Document}
    (suit : ∀ leaf ∈ document.leaves, leaf.Suits language)
    (located : ∀ stated ∈ document.definitions, stated.isLocated)
    (written : document.definitions ≠ []) : Neat language document.print := by
  have suit := forall_leaves.mp suit
  unfold print
  split
  · next none => exact absurd none written
  · next first more same =>
    rw [same] at suit located
    obtain ⟨own, others⟩ := List.forall_mem_cons.mp suit
    obtain ⟨here, there⟩ := List.forall_mem_cons.mp located
    refine .joinWith (by decide) (by decide)
      (List.forall_mem_cons.mpr ⟨Definition.neat_print own here true, ?_⟩) (by simp)
    exact List.forall_mem_map.mpr fun stated member =>
      Definition.neat_print (others stated member) (there stated member) false

/-- A text that begins with something else than white space. -/
def Begins (text : Text) : Prop := ∃ first rest, text = first :: rest ∧ Text.isBlank first = false

theorem Begins.append {front : Text} (begins : Begins front) (back : Text) :
    Begins (front ++ back) := by
  obtain ⟨first, rest, rfl, written⟩ := begins
  exact ⟨first, rest ++ back, rfl, written⟩

theorem Begins.of_word {text : Text} (word : IsWord text) : Begins text := by
  obtain ⟨first, rest, rfl⟩ := List.exists_cons_of_ne_nil word.1
  exact ⟨first, rest, rfl, Lexeme.isBlank_of_inWord (word.2 first (List.mem_cons_self ..))⟩

private theorem begins_described (level : Nat) (description : Option Text) {printed : Text}
    (begins : Begins printed) : Begins (printDescription level description ++ printed) := by
  unfold printDescription
  split
  · exact begins
  · next value =>
    have written : Begins (if StringValue.fitsBlock value then StringValue.block (2 * level) value
        else StringValue.quoted value) := by
      split
      · exact ⟨'"', _, StringValue.block_eq .., by decide⟩
      · exact ⟨'"', _, rfl, by decide⟩
    exact (written.append _).append _

private theorem begins_printSet (selections : List Selection) :
    Begins (Selection.printSet selections) := by
  cases selections with
  | nil => exact ⟨'{', _, rfl, by decide⟩
  | cons first more =>
    simp only [Selection.printSet, List.cons_append]
    rw [Text.ofLines_cons ['{'] (by simp)]
    exact ⟨'{', _, rfl, by decide⟩

theorem Definition.begins_print (stated : Definition) (first : Bool) :
    Begins (stated.print first) := by
  have keyword : ∀ {word : Text}, IsWord word → ∀ rest, Begins (word ++ rest) :=
    fun word => (Begins.of_word word).append
  have type : ∀ stated : TypeDefinition, Begins stated.print := by
    intro stated
    rw [TypeDefinition.print, List.append_assoc]
    exact keyword stated.body.isWord_keyword _
  cases stated with
  | operation stated =>
    unfold print Operation.print
    dsimp only
    split
    · exact begins_printSet stated.selections
    · simp only [List.append_assoc]
      cases stated.kind <;> exact keyword (by decide) _
  | fragment stated =>
    have opens : Begins "fragment ".toList := ⟨'f', _, rfl, by decide⟩
    exact ((((opens.append _).append _).append _).append _).append _
  | directive stated =>
    have opens : Begins "directive @".toList := ⟨'d', _, rfl, by decide⟩
    have described := begins_described 0 stated.description opens
    exact ((((described.append _).append _).append _).append _).append _
  | schema description stated => exact begins_described 0 description ⟨'s', _, rfl, by decide⟩
  | schemaExtension stated => exact ⟨'e', _, rfl, by decide⟩
  | type description stated => exact begins_described 0 description (type stated)
  | typeExtension stated => exact ⟨'e', _, rfl, by decide⟩

theorem Document.begins_print {document : Document} (written : document.definitions ≠ []) :
    Begins document.print := by
  unfold print
  split
  · next none => exact absurd none written
  · next first more _ =>
    obtain ⟨char, rest, same, plain⟩ := first.begins_print true
    rw [same]
    cases more with
    | nil => exact ⟨char, rest, by simp [Text.joinWith], plain⟩
    | cons second more => exact ⟨char, _, by simp [Text.joinWith]; rfl, plain⟩

end RelayWorkbench.GraphQL
