import RelayWorkbench.Proofs.GraphQL.Names
import RelayWorkbench.Proofs.GraphQL.PlainDefinitions
import RelayWorkbench.Proofs.GraphQL.Reads
import RelayWorkbench.Proofs.StatefulRun
import RelayWorkbench.Relay.FragmentExtraction

/-! The fragment a component is named after. Its name is a name of GraphQL, and the head that is
written for it reads as a fragment of that name on the type of the extracted selections. -/

namespace RelayWorkbench.Relay.ExtractionCommand

open RelayWorkbench.GraphQL

theorem isComponentName_of_isName {name : Text} (named : Lexeme.isName name) :
    isComponentName name := by
  have word := Lexeme.all_isWordChar named
  cases name with
  | nil => cases named
  | cons char rest => simpa [isComponentName] using word

theorem isName_fragmentName (command : ExtractionCommand) {component : Text}
    (named : Lexeme.isName component) (typed : Lexeme.isName command.parentType) :
    Lexeme.isName (command.fragmentName component) :=
  Lexeme.isName_append_underscore (Lexeme.isName_capitalize named)
    (Lexeme.all_isWordChar (Lexeme.isName_uncapitalize typed))

theorem fragmentName_ne_on (command : ExtractionCommand) (component : Text) :
    command.fragmentName component ≠ "on".toList :=
  Lexeme.append_underscore_ne (by decide) _ _

/-- The head of a fragment with a placeholder for its selections. -/
private def headPlan (name onType : Name) : FragmentPlan := ⟨name, onType, "__typename".toList⟩

private theorem spells_head {name onType : Name} (named : Lexeme.isName name)
    (typed : Lexeme.isName onType) :
    Lexeme.Spells ("fragment ".toList ++ name ++ " on ".toList ++ onType ++
      " \x7b __typename \x7d".toList) (headPlan name onType).lexemes := by
  have parts : " \x7b __typename \x7d".toList =
      ' ' :: '\x7b' :: ' ' :: ("__typename".toList ++ [' ', '\x7d']) := rfl
  have blank : Lexeme.ignored.contains ' ' := by decide
  refine FragmentPlan.spells_front named typed ?_ rfl
  rw [parts]
  exact .blank blank <| .mark (by decide) <| .blank blank <| .name (by decide) rfl <|
    .blank blank <| .mark (by decide) .nil

theorem fragmentText?_eq (command : ExtractionCommand) {name : Name} (named : Lexeme.isName name)
    (other : name ≠ "on".toList) (typed : Lexeme.isName command.parentType)
    (selections : List Selection) :
    ∃ fragment : Fragment, command.fragmentText? name selections =
        some (Document.print ⟨[.fragment fragment]⟩) ∧
      fragment.name = name ∧ fragment.onType = command.parentType ∧ fragment.directives = [] ∧
        fragment.selections = selections := by
  obtain ⟨stated, parses, planned⟩ := (headPlan name command.parentType).exists_parse? other
    (spells_head named typed)
  refine ⟨{ stated with selections }, ?_, planned.name, planned.onType, planned.directives, rfl⟩
  simp only [fragmentText?]
  rw [parses]
  rfl

section ParentType

/-- What is neither passed over nor the start of a name is not read as a name. -/
private theorem readPiece_of_not {char : Char} (meant : Lexeme.ignored.contains char = false)
    (code : char ≠ '#') (other : Lexeme.isNameStart char = false) (rest : Text) :
    (Lexeme.readPiece char rest).1 = .fault ∨
      ∃ lexeme, (Lexeme.readPiece char rest).1 = .lexeme lexeme ∧
        Reading.isNameLexeme lexeme = false := by
  simp only [Lexeme.readPiece, meant, code, other, Bool.false_eq_true, if_false]
  split
  · exact .inr ⟨_, rfl, rfl⟩
  split
  · unfold Lexeme.readString
    split
    · split
      · exact .inr ⟨_, rfl, rfl⟩
      · exact .inl rfl
    · split
      · dsimp only
        split
        · exact .inr ⟨_, rfl, rfl⟩
        · exact .inl rfl
      · exact .inl rfl
  split
  · unfold Lexeme.readNumber
    split
    next sign afterSign _ =>
    dsimp only
    split
    · split
      · exact .inr ⟨_, rfl, rfl⟩
      · exact .inr ⟨_, rfl, rfl⟩
    · exact .inl rfl
  split
  · exact .inr ⟨_, rfl, rfl⟩
  · exact .inl rfl

open Reading in
private theorem reads_typeCondition {back : List Lexeme} :
    Reads (·.rest = .name "on".toList :: back) typeCondition
      fun _ _ => back.head?.any isNameLexeme := by
  rintro ⟨_, index, clean⟩ rfl ends
  cases back with
  | nil => cases ends
  | cons next rest =>
    cases next with
    | name => rfl
    | mark | spread | int | float | string => cases ends

private theorem atWord_of_ne {name word : Name} (other : name ≠ word) (rest : List Lexeme)
    (index : Nat) (clean : Bool) :
    (Reading.atWord word).run ⟨.name name :: rest, index, clean⟩ =
      (false, ⟨.name name :: rest, index, clean⟩) := by
  have apart : (some (Lexeme.name name) == some (Lexeme.name word)) = false := by simpa using other
  exact congrArg (·, _) apart

open Reading in
/-- What is read of a fragment behind its name. -/
private def behindName (start : Nat) (name : Option Name) : Reading (Option Definition) := do
  let onType ← typeCondition
  let directives ← directives false nestingLimit
  let selections ← body
  let span ← since start
  return name.bind fun name => onType.map fun onType =>
    .fragment { span, name, onType, directives, selections }

open Reading in
private theorem run_fragment_eq {name : Name} (other : name ≠ "on".toList) (back : List Lexeme) :
    fragment.run ⟨.name "fragment".toList :: .name name :: back, 0, true⟩ =
      (behindName 0 (some name)).run ⟨back, 2, true⟩ := by
  have begun : (advance.run (place.run
      ⟨.name "fragment".toList :: .name name :: back, 0, true⟩).2).2 =
        ⟨.name name :: back, 1, true⟩ := rfl
  simp only [fragment, run_bind, begun, atWord_of_ne other, Bool.false_eq_true, if_false]
  rfl

open Reading in
/-- Behind the `on` of a fragment a name is expected. -/
private theorem head?_of_read {name : Name} (other : name ≠ "on".toList) {back : List Lexeme}
    (clean : (Document.read
      (.name "fragment".toList :: .name name :: .name "on".toList :: back)).2) :
    back.head?.any isNameLexeme := by
  have reads : Reads (·.rest = .name "on".toList :: back) (behindName 0 (some name))
      fun _ _ => back.head?.any isNameLexeme :=
    Reads.bind reads_typeCondition fun _ _ holds _ => holds
  refine reads ⟨.name "on".toList :: back, 2, true⟩ rfl ?_
  rw [← run_fragment_eq other]
  -- The other definitions are read after this one.
  have passes (cursor : Cursor) : Cursor.Passes cursor
      ((many (fun _ => true) definition (back.length + 3)).run cursor).2 := Passing.passes cursor
  exact (passes _).clean clean

private theorem all_isWordChar_parentType {command : ExtractionCommand} {component : Text}
    (named : Lexeme.isName (command.fragmentName component)) :
    (Text.uncapitalize command.parentType).all Text.isWordChar := by
  have word := Lexeme.all_isWordChar named
  rw [fragmentName, List.all_append, List.all_cons, Bool.and_eq_true, Bool.and_eq_true] at word
  exact word.2.2

/-- A text with a word in lower case begins neither a comment nor a blank. -/
private theorem isMeant_of_uncapitalize {char : Char} {rest : Text}
    (word : (Text.uncapitalize (char :: rest)).all Text.isWordChar) :
    rest.all Text.isWordChar ∧ Lexeme.ignored.contains char = false ∧ char ≠ '#' := by
  rw [Text.uncapitalize, List.all_append, Bool.and_eq_true] at word
  have apart : ∀ other ∈ '#' :: Lexeme.ignored,
      (Text.lowerCase.apply other).all Text.isWordChar = false :=
    Text.forall_of_all (by decide +kernel)
  refine ⟨word.2, Bool.eq_false_iff.mpr fun ignores => ?_, ?_⟩
  · have off := apart char (List.mem_cons_of_mem _ (by simpa using ignores))
    exact Bool.false_ne_true (off.symm.trans word.1)
  · rintro rfl
    exact Bool.false_ne_true ((apart '#' List.mem_cons_self).symm.trans word.1)

/-- The text of a fragment is that of one on a type with a name. -/
theorem isName_parentType {command : ExtractionCommand} {component : Text}
    {selections : List Selection} {printed : Text}
    (named : Lexeme.isName (command.fragmentName component))
    (made : command.fragmentText? (command.fragmentName component) selections = some printed) :
    Lexeme.isName command.parentType := by
  obtain ⟨definitions, parsed, -⟩ := Option.bind_eq_some_iff.mp made
  obtain ⟨document, parsed, -⟩ := Option.map_eq_some_iff.mp parsed
  rw [Document.parse?_eq, List.append_assoc _ command.parentType,
    FragmentPlan.content_front named] at parsed
  obtain ⟨_, clean, -⟩ := Option.map_eq_some_iff.mp parsed
  simp only [Document.ofContent?] at clean
  split at clean
  swap
  · cases clean
  next sound =>
  obtain ⟨clean, lexed⟩ := Bool.and_eq_true_iff.mp sound
  have starts := head?_of_read (fragmentName_ne_on command component) clean
  have word := all_isWordChar_parentType named
  cases same : command.parentType with
  | nil =>
    have mark : Lexeme.content " \x7b __typename \x7d".toList =
        [.lexeme (.mark '\x7b'), .lexeme (.name "__typename".toList), .lexeme (.mark '\x7d')] := by
      decide +kernel
    rw [same, List.nil_append, mark] at starts
    cases starts
  | cons char rest =>
    rw [same] at starts lexed word
    obtain ⟨words, meant, code⟩ := isMeant_of_uncapitalize word
    cases first : Lexeme.isNameStart char with
    | true => simp [Lexeme.isName, first, words]
    | false =>
      rw [List.cons_append, Lexeme.content_cons] at starts lexed
      rcases readPiece_of_not meant code first (rest ++ " \x7b __typename \x7d".toList) with
        fault | ⟨lexeme, read, other⟩
      · rw [fault] at lexed
        cases lexed
      · rw [read] at starts
        exact absurd starts (Bool.eq_false_iff.mp other)

end ParentType

end RelayWorkbench.Relay.ExtractionCommand
