import RelayWorkbench.Proofs.GraphQL.Names
import RelayWorkbench.Proofs.GraphQL.PlainDefinitions
import RelayWorkbench.Proofs.Host.WrittenBlocks
import RelayWorkbench.Relay.Scaffold

/-! Texts of modules. What is written between the quotes of a module spells one definition, and
behind a file in which all blocks close the block of the module is found. -/

namespace RelayWorkbench.Relay.Scaffold

open RelayWorkbench.GraphQL RelayWorkbench.Host

section Parentheses

variable {item : Type} {print : item → Text} {write : item → List Lexeme} {items : List item}

private theorem spells_joined (spells : ∀ each ∈ items, Lexeme.Spells (print each) (write each)) :
    Lexeme.Spells (Text.joinWith ", ".toList (items.map print)) (items.flatMap write) := by
  induction items with
  | nil => exact .nil
  | cons first rest ih =>
    obtain ⟨own, others⟩ := List.forall_mem_cons.mp spells
    cases rest with
    | nil =>
      rw [List.map_singleton, List.flatMap_singleton, Text.joinWith, List.intercalate_singleton]
      exact own
    | cons second rest =>
      rw [List.map_cons, List.map_cons, List.flatMap_cons, Text.joinWith,
        List.intercalate_cons_cons, List.append_assoc]
      exact own.append (.blanks (Text.forall_of_all (by decide +kernel)) (ih others)) rfl

/-- Items in parentheses are spelled by what the items are spelled by. -/
theorem spells_parenthesized
    (spells : ∀ each ∈ items, Lexeme.Spells (print each) (write each)) :
    Lexeme.Spells (parenthesized (items.map print)) (Reading.enclosed write items) := by
  cases items with
  | nil => exact .nil
  | cons first rest =>
    exact .mark (by decide) ((spells_joined spells).append (.mark (by decide) .nil) rfl)

theorem notMem_parenthesized {texts : List Text} (plain : ∀ text ∈ texts, '|' ∉ text) :
    '|' ∉ parenthesized texts := by
  unfold parenthesized
  split
  · exact List.not_mem_nil
  · next some =>
    have written : texts ≠ [] := fun none => some (List.isEmpty_iff.mpr none)
    have joined : '|' ∉ Text.joinWith ", ".toList texts :=
      Text.joinWith_induction (motive := fun text => '|' ∉ text) (fun own others =>
        List.not_mem_append (List.not_mem_append own (by decide)) others) plain written
    exact List.not_mem_append (List.not_mem_cons_of_ne_of_not_mem (by decide) joined) (by decide)

theorem head?_parenthesized (texts : List Text) :
    (parenthesized texts).head?.any Text.isWordChar = false := by
  unfold parenthesized
  split <;> rfl

end Parentheses

section Arguments

variable {arguments : List InputValue}

/-- An argument as a variable with a type. -/
abbrev declared (argument : InputValue) : Name × TypeRef := (argument.name, argument.type)

/-- Arguments that have names and types that can be read. -/
abbrev AllLegible (arguments : List InputValue) : Prop :=
  ∀ argument ∈ arguments, Lexeme.isName argument.name ∧ argument.type.Legible

theorem spells_variablesText (legible : AllLegible arguments) :
    Lexeme.Spells (variablesText arguments)
      (Reading.enclosed Reading.declaring (arguments.map declared)) := by
  have pairs : variablesText arguments = parenthesized ((arguments.map declared).map
      fun pair => '$' :: pair.1 ++ ": ".toList ++ pair.2.print) := by
    simp only [variablesText, List.map_map, Function.comp_def]
  rw [pairs]
  refine spells_parenthesized (List.forall_mem_map.mpr fun argument member => ?_)
  obtain ⟨named, readable⟩ := legible argument member
  have typed := TypeRef.spells_print readable.named
  rw [List.append_assoc]
  exact .mark (by decide) (.name named rfl (.mark (by decide) (.blank (by decide) typed)))

theorem spells_argumentsText (legible : AllLegible arguments) :
    Lexeme.Spells (argumentsText arguments)
      (Reading.enclosed Reading.passing (arguments.map (·.name))) := by
  have names : argumentsText arguments = parenthesized ((arguments.map (·.name)).map
      fun name => name ++ ": $".toList ++ name) := by
    simp only [argumentsText, List.map_map, Function.comp_def]
  rw [names]
  refine spells_parenthesized (List.forall_mem_map.mpr fun argument member => ?_)
  have named := (legible argument member).1
  have own : Lexeme.Spells argument.name [.name argument.name] := fun _ ends =>
    Lexeme.content_name named ends
  rw [List.append_assoc]
  exact .name named rfl (.mark (by decide) (.blank (by decide) (.mark (by decide) own)))

private theorem notMem_print {type : TypeRef} (named : ∀ leaf ∈ type.leaves, leaf.Named) :
    '|' ∉ type.print := by
  have bang : ∀ required : Bool, '|' ∉ (if required then ['!'] else []) := by decide
  induction type with
  | named name required =>
    have own : Lexeme.isName name := named _ (List.mem_singleton_self _)
    exact List.not_mem_append (Lexeme.notMem_of_isName own (by decide)) (bang required)
  | list item required ih =>
    have inside : '|' ∉ '[' :: item.print :=
      List.not_mem_cons_of_ne_of_not_mem (by decide) (ih named)
    have ends : '|' ∉ ']' :: if required then ['!'] else [] :=
      List.not_mem_cons_of_ne_of_not_mem (by decide) (bang required)
    exact List.not_mem_append inside ends

theorem head?_variablesText (arguments : List InputValue) :
    (variablesText arguments).head?.any Text.isWordChar = false := head?_parenthesized _

theorem head?_argumentsText (arguments : List InputValue) :
    (argumentsText arguments).head?.any Text.isWordChar = false := head?_parenthesized _

theorem notMem_variablesText (legible : AllLegible arguments) : '|' ∉ variablesText arguments := by
  refine notMem_parenthesized (List.forall_mem_map.mpr fun argument member => ?_)
  obtain ⟨named, readable⟩ := legible argument member
  have own : '|' ∉ argument.name := Lexeme.notMem_of_isName named (by decide)
  have dollared : '|' ∉ '$' :: argument.name :=
    List.not_mem_cons_of_ne_of_not_mem (by decide) own
  exact List.not_mem_append (List.not_mem_append dollared (by decide)) (notMem_print readable.named)

theorem notMem_argumentsText (legible : AllLegible arguments) : '|' ∉ argumentsText arguments := by
  refine notMem_parenthesized (List.forall_mem_map.mpr fun argument member => ?_)
  have own : '|' ∉ argument.name := Lexeme.notMem_of_isName (legible argument member).1 (by decide)
  exact List.not_mem_append (List.not_mem_append own (by decide)) own

end Arguments

/-- What stands in the block of a module. -/
def blockText (head selection : Text) : Text :=
  "\n  ".toList ++ (head ++ (" \x7b\n    ".toList ++ (selection ++ "\n  \x7d\n".toList)))

theorem spells_blockText {head selection : Text} {front back : List Lexeme}
    (heads : Lexeme.Spells head front) (selects : Lexeme.Spells selection back) :
    Lexeme.Spells (blockText head selection)
      (front ++ .mark '\x7b' :: (back ++ [.mark '\x7d'])) := by
  have ends : "\n  \x7d\n".toList = "\n  ".toList ++ ['\x7d', '\n'] := rfl
  have opens : " \x7b\n    ".toList = ' ' :: '\x7b' :: "\n    ".toList := rfl
  have closing : Lexeme.Spells ("\n  ".toList ++ ['\x7d', '\n']) [.mark '\x7d'] :=
    .blanks (Text.forall_of_all (by decide +kernel)) (.mark (by decide) (.blank (by decide) .nil))
  have blank : ∀ char ∈ "\n    ".toList, Lexeme.ignored.contains char :=
    Text.forall_of_all (by decide +kernel)
  have inside := Lexeme.Spells.blanks blank (selects.append closing rfl)
  rw [blockText, ends, opens]
  exact .blanks (Text.forall_of_all (by decide +kernel))
    (heads.append (.blank (by decide) (.mark (by decide) inside)) rfl)

/-- The text of a module up to its block. -/
def moduleFront (kind : ModuleKind) (name : Text) : Text :=
  "module ".toList ++ name ++ " = ".toList ++ ("[%".toList ++ kind.extensionPoint ++ "\n  ".toList)

theorem moduleText_eq (kind : ModuleKind) (name head selection : Text) :
    moduleText kind name head selection = moduleFront kind name ++ QuotedBlock.opening ++
      (blockText head selection ++ QuotedBlock.closing ++ "\n];".toList) := by
  have literals : " = [%".toList = " = ".toList ++ "[%".toList ∧
      "\n  \x7b|\n  ".toList = "\n  ".toList ++ (QuotedBlock.opening ++ "\n  ".toList) ∧
      "\n  \x7d\n|\x7d\n];".toList =
        "\n  \x7d\n".toList ++ (QuotedBlock.closing ++ "\n];".toList) := by
    decide +kernel
  obtain ⟨named, opens, closes⟩ := literals
  unfold moduleText
  rw [named, opens, closes]
  unfold moduleFront blockText
  simp only [List.append_assoc]

/-- The text of a module begins with its name. -/
theorem prefix_moduleText (kind : ModuleKind) (name head selection : Text) :
    "module ".toList ++ name ++ " = [%".toList <+: moduleText kind name head selection := by
  have front : moduleText kind name head selection = "module ".toList ++ name ++ " = [%".toList ++
      (kind.extensionPoint ++ "\n  \x7b|\n  ".toList ++ head ++ " \x7b\n    ".toList ++ selection ++
        "\n  \x7d\n|\x7d\n];".toList) := by
    unfold moduleText
    simp only [List.append_assoc]
  exact front ▸ List.prefix_append _ _

theorem separator_eq_replicate (text : Text) :
    ∃ count, separator text = List.replicate count '\n' := by
  unfold separator
  split
  · exact ⟨0, rfl⟩
  · exact ⟨0, rfl⟩
  · exact ⟨1, rfl⟩
  · exact ⟨2, rfl⟩

section Inserting

variable (kind : ModuleKind) (text : Text) {name head selection : Text}

private theorem notMem_before (named : Lexeme.isName name) :
    '\x7b' ∉ separator text ++ moduleFront kind name := by
  obtain ⟨count, blank⟩ := separator_eq_replicate text
  have feeds : '\x7b' ∉ separator text := by
    rw [blank]
    exact fun member => absurd (List.eq_of_mem_replicate member) (by decide)
  have point : '\x7b' ∉ "[%".toList ++ kind.extensionPoint ++ "\n  ".toList := by
    rcases kind with _ | _ | _ | _ <;> decide +kernel
  have literals : '\x7b' ∉ "module ".toList ∧ '\x7b' ∉ " = ".toList := by decide +kernel
  have own : '\x7b' ∉ name := Lexeme.notMem_of_isName named (by decide)
  exact List.not_mem_append feeds (List.not_mem_append
    (List.not_mem_append (List.not_mem_append literals.1 own) literals.2) point)

private theorem head?_before (name : Text) :
    (separator text ++ moduleFront kind name).head? ≠ some '|' := by
  obtain ⟨count, blank⟩ := separator_eq_replicate text
  have begins : (moduleFront kind name).head? = some 'm' := rfl
  rw [blank]
  cases count with
  | zero => simp [begins]
  | succ count => simp [List.replicate_succ]

private theorem announces_before (name : Text) :
    QuotedBlock.announces (separator text ++ moduleFront kind name) := by
  have point : QuotedBlock.announces ("[%".toList ++ kind.extensionPoint ++ "\n  ".toList) := by
    rcases kind with _ | _ | _ | _ <;> decide +kernel
  exact QuotedBlock.announces_append (QuotedBlock.announces_append point)

private theorem closesAfter_blockText (plainHead : '|' ∉ head) (plainSelection : '|' ∉ selection) :
    Language.reason.closesAfter (blockText head selection) := by
  have literals : '|' ∉ "\n  ".toList ∧ '|' ∉ " \x7b\n    ".toList ∧ '|' ∉ "\n  \x7d\n".toList := by
    decide +kernel
  obtain ⟨begins, opens, ends⟩ := literals
  have plain : '|' ∉ blockText head selection :=
    List.not_mem_append begins <| List.not_mem_append plainHead <|
      List.not_mem_append opens <| List.not_mem_append plainSelection ends
  exact QuotedBlock.closesAfter_of_notMem plain

/-- The block of a module behind a file. -/
def writtenBlock (named : Lexeme.isName name) (plainHead : '|' ∉ head)
    (plainSelection : '|' ∉ selection) : QuotedBlock.Written where
  before := separator text ++ moduleFront kind name
  body := blockText head selection
  behind := "\n];\n".toList
  opens := notMem_before kind text named
  apart := head?_before kind text name
  announced := announces_before kind text name
  closes := closesAfter_blockText plainHead plainSelection
  written := List.cons_ne_nil _ _
  plain := by decide +kernel

/-- A file with a module at its end has the regions it had, and that of the module. -/
theorem regionsIn_insertModule (named : Lexeme.isName name) (plainHead : '|' ∉ head)
    (plainSelection : '|' ∉ selection) (closed : QuotedBlock.Closed text) :
    ∃ region, regionsIn .reason (insertModule text (moduleText kind name head selection) none) =
        regionsIn .reason text ++ [region] ∧ region.content = blockText head selection := by
  let block := writtenBlock kind text named plainHead plainSelection
  have behind : "\n];\n".toList = "\n];".toList ++ ['\n'] := rfl
  have inserted : insertModule text (moduleText kind name head selection) none =
      text ++ block.text := by
    have appended : insertModule text (moduleText kind name head selection) none =
        text ++ separator text ++ moduleText kind name head selection ++ ['\n'] := rfl
    rw [appended, moduleText_eq]
    simp only [block, QuotedBlock.Written.text, writtenBlock, behind, List.append_assoc]
  have found := block.regionsIn_append closed
  rw [← inserted] at found
  exact ⟨block.region text, found, block.content_region text⟩

end Inserting

end RelayWorkbench.Relay.Scaffold
