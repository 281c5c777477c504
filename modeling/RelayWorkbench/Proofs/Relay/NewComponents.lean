import RelayWorkbench.Proofs.Host.WrittenBlocks
import RelayWorkbench.Proofs.Relay.FragmentHead
import RelayWorkbench.Proofs.Relay.OwnedSets
import RelayWorkbench.Proofs.Relay.Performing
import RelayWorkbench.Proofs.Relay.Reindenting

/-! Files of new components. The one region of such a file is the fragment with the selections that
were extracted. -/

namespace RelayWorkbench.Relay

open RelayWorkbench.GraphQL RelayWorkbench.Host

/-- A document that is nothing but a fragment. -/
abbrev alone (fragment : Fragment) : Document := ⟨[.fragment fragment]⟩

/-- Selections without their places. -/
abbrev eraseAll (selections : List Selection) : List Selection :=
  Selection.respanAll (fun _ => none) selections

/-- A fragment is read from a text, up to places. -/
structure FragmentIn (text name onType : Text) (selections : List Selection) (read : Fragment) :
    Prop where
  parsed : Document.parse? text = some (alone read)
  name : read.name = name
  onType : read.onType = onType
  directives : read.directives = []
  selections : eraseAll read.selections = eraseAll selections

theorem erase_alone {fragment : Fragment} (bare : fragment.directives = []) :
    (alone fragment).erase = alone {
      name := fragment.name
      onType := fragment.onType
      selections := eraseAll fragment.selections } := by
  simp only [Document.erase, Document.respan, List.map_cons, List.map_nil, Definition.respan,
    Fragment.respan, bare]

/-- What is read of a fragment on its own is a fragment that says the same. -/
theorem exists_fragmentIn {fragment : Fragment} {text : Text} (bare : fragment.directives = [])
    (back : (alone fragment).IsReadFrom text) :
    ∃ read, FragmentIn text fragment.name fragment.onType fragment.selections read := by
  obtain ⟨found, parsed, alike⟩ := back
  obtain ⟨definitions⟩ := found
  obtain ⟨stated, rfl⟩ : ∃ stated, definitions = [stated] := by
    have single := congrArg List.length (congrArg Document.definitions alike)
    simpa [Document.erase, Document.respan, List.length_eq_one_iff] using single
  have same : stated.respan (fun _ => none) = .fragment (fragment.respan fun _ => none) := by
    simpa [Document.erase, Document.respan, Definition.respan] using alike
  cases stated with
  | fragment read =>
    have inside : read.respan (fun _ => none) = fragment.respan fun _ => none := by
      simpa [Definition.respan] using same
    simp only [Fragment.respan, Fragment.mk.injEq] at inside
    obtain ⟨-, called, typed, directives, selections⟩ := inside
    rw [bare, List.map_nil, List.map_eq_nil_iff] at directives
    exact ⟨read, parsed, called, typed, directives, selections⟩
  | operation | directive | schema | schemaExtension | type | typeExtension => cases same

private theorem closesAfter_componentBlock {fragment : Text}
    (plain : ¬ "|\x7d".toList <:+: fragment) :
    Language.reason.closesAfter (componentBlock fragment) := by
  have spares := Text.spares_indented (Language.spares_reason_iff.mpr plain) 2
  have feed : Language.reason.Harmless ['\n'] := .of_forall (Text.forall_of_all (by decide))
  have front := (feed.append (Language.Harmless.spaces 2)).append_spares spares
  have block : componentBlock fragment =
      ['\n'] ++ Text.spaces 2 ++ Text.indented 2 [] fragment ++ ['\n'] := by
    rw [componentBlock, Envelope.indent_eq]
    simp
  have harmless : Language.reason.Harmless (componentBlock fragment) := by
    rw [block]
    refine ⟨front.append feed.toSpares fun last _ first here => ?_, fun last ends => ?_⟩
    · cases here
      exact .of_second (by decide) (by decide) last
    · rw [List.getLast?_append_of_ne_nil _ (List.cons_ne_nil _ _)] at ends
      cases ends
      decide
  exact harmless.closesAfter (by decide)

private theorem notMem_componentFront {parentType : Text} (typed : Lexeme.isName parentType) :
    '\x7b' ∉ componentFront parentType := by
  have own : '\x7b' ∉ parentType := Lexeme.notMem_of_isName typed (by decide)
  have literals : '\x7b' ∉ "module ".toList ∧ '\x7b' ∉ "Fragment".toList ∧
      '\x7b' ∉ " = [%relay.fragment\n  ".toList := by decide +kernel
  obtain ⟨front, suffix, announced⟩ := literals
  unfold componentFront
  exact List.not_mem_append
    (List.not_mem_append front (List.not_mem_append own suffix)) announced

private theorem notMem_componentBack {parentType : Text} (typed : Lexeme.isName parentType) :
    '|' ∉ componentBack parentType := by
  have own : '|' ∉ parentType := Lexeme.notMem_of_isName typed (by decide)
  have prop : '|' ∉ Text.uncapitalize parentType :=
    Lexeme.notMem_of_isName (Lexeme.isName_uncapitalize typed) (by decide)
  have literals : '|' ∉ "\n];\n\n[@react.component]\nlet make = (~".toList ∧
      '|' ∉ ") => \x7b\n  let ".toList ∧ '|' ∉ " = ".toList ∧ '|' ∉ "Fragment".toList ∧
      '|' ∉ ".use(".toList ∧ '|' ∉ ");\n\n  React.null;\n\x7d;\n".toList := by
    decide +kernel
  obtain ⟨make, binds, equal, suffix, use, ends⟩ := literals
  unfold componentBack
  dsimp only
  simp only [List.append_assoc]
  exact List.not_mem_append make <| List.not_mem_append prop <| List.not_mem_append binds <|
    List.not_mem_append prop <| List.not_mem_append equal <| List.not_mem_append own <|
    List.not_mem_append suffix <| List.not_mem_append use <| List.not_mem_append prop ends

private theorem head?_componentFront (parentType : Text) :
    (componentFront parentType).head? ≠ some '|' := by
  have begins : (componentFront parentType).head? = some 'm' := rfl
  rw [begins]
  decide

private theorem announces_componentFront (parentType : Text) :
    QuotedBlock.announces (componentFront parentType) :=
  QuotedBlock.announces_append (by decide +kernel)

/-- The block of the fragment of a component. -/
def componentWritten (parentType fragment : Text) (typed : Lexeme.isName parentType)
    (plain : ¬ "|\x7d".toList <:+: fragment) : QuotedBlock.Written where
  before := componentFront parentType
  body := componentBlock fragment
  behind := componentBack parentType
  opens := notMem_componentFront typed
  apart := head?_componentFront parentType
  announced := announces_componentFront parentType
  closes := closesAfter_componentBlock plain
  written := List.cons_ne_nil _ _
  plain := notMem_componentBack typed

namespace ExtractionCommand

/-- The source of a component has one region, the block of its fragment. -/
theorem regionsIn_componentSource (command : ExtractionCommand) {fragment : Text}
    (typed : Lexeme.isName command.parentType) (plain : ¬ "|\x7d".toList <:+: fragment) :
    ∃ block : Region, regionsIn .reason (command.componentSource fragment) = [block] ∧
      block.content = componentBlock fragment := by
  let block := componentWritten command.parentType fragment typed plain
  have found := block.regionsIn_append (.code rfl : QuotedBlock.Closed [])
  exact ⟨block.region [], by rw [componentSource_eq]; exact found, block.content_region []⟩

/-- The selections that a command lists of the set that its target owns. -/
def Lists (command : ExtractionCommand) (document : Document) (selections : List Selection) :
    Prop :=
  ∃ path node former, document.nodeAt? path = some node ∧ node.ownsAt command.target ∧
    node.selections? = some former ∧ selections = former.filter (lists command.selected)

theorem lists_of_extracted? {command : ExtractionCommand} {document : Document}
    {selections : List Selection} (extracted : command.extracted? document = some selections) :
    command.Lists document selections := by
  obtain ⟨set, first, made⟩ := Option.bind_eq_some_iff.mp extracted
  have owner : set.owner = command.target := by simpa using List.find?_some first
  obtain ⟨path, node, reached, owns, owned⟩ :=
    OwnedSet.exists_node (List.mem_of_find?_eq_some first)
  dsimp only at made
  split at made
  · cases made
  · cases made
    exact ⟨path, node, set.selections, reached, owner ▸ owns, owned, rfl⟩

/-- The file of a new component holds a fragment of the selections that were extracted. If the
fragment reads from its printed form, in which no block ends, then it is read from the one region of
the file. -/
theorem regions_of_perform {command : ExtractionCommand} {request : Request}
    {choice : ExtractionChoice} {source : Path} {made : ExtractedComponent}
    (performed : command.perform request choice source = .ok made) :
    ∃ region document selections fragment, request.region? = some region ∧
      Document.parse? region.content = some document ∧
      command.extracted? document = some selections ∧ command.Lists document selections ∧
      fragment.name = made.fragmentName ∧ fragment.onType = command.parentType ∧
      fragment.directives = [] ∧ fragment.selections = selections ∧
      made.file.contents = command.componentSource (alone fragment).print ∧
      (¬ "|\x7d".toList <:+: (alone fragment).print →
        (alone fragment).IsReadFrom (alone fragment).print →
        ∃ block read, regions? "reason" made.file.contents = some [block] ∧
          FragmentIn block.content made.fragmentName command.parentType selections read) := by
  obtain ⟨region, document, performs⟩ := exists_performs performed
  obtain ⟨selections, printed, extracted, prints, contents⟩ := performs.written
  have named := performs.called ▸ performs.named
  have typed : Lexeme.isName command.parentType :=
    isName_parentType named (performs.called ▸ prints)
  obtain ⟨fragment, same, name, onType, bare, holds⟩ := command.fragmentText?_eq named
    (command.fragmentName_ne_on choice.component) typed selections
  rw [← performs.called, prints] at same
  obtain rfl := Option.some.inj same
  rw [← performs.called] at name
  refine ⟨region, document, selections, fragment, performs.here, performs.parsed, extracted,
    lists_of_extracted? extracted, name, onType, bare, holds, contents, fun plain back => ?_⟩
  obtain ⟨block, found, content⟩ := command.regionsIn_componentSource typed plain
  obtain ⟨read, inside⟩ := exists_fragmentIn bare (isReadFrom_componentBlock back)
  rw [name, onType, holds, ← content] at inside
  exact ⟨block, read, by rw [contents, ← found]; rfl, inside⟩

/-- The file of a component holds the field that was selected. -/
theorem regions_of_perform_field :
    let request : Request := {
      language := "graphql"
      text := "\x7b user \x7b\nid\nname \x7d \x7d".toList
      selection := ⟨⟨1, 0⟩, ⟨1, 2⟩⟩
      moduleName := "Page".toList }
    let command : ExtractionCommand :=
      { parentType := "User".toList, target := ⟨2, 18⟩, selected := [⟨9, 11⟩] }
    ∃ made block read,
      command.perform request ⟨"Card".toList, true⟩ ⟨"Page.re".toList⟩ = .ok made ∧
      regions? "reason" made.file.contents = some [block] ∧
      FragmentIn block.content "Card_user".toList "User".toList
        [Selection.ofField "id".toList []] read := by
  intro request command
  let written : Text := "fragment Card_user on User \x7b\n  id\n\x7d".toList
  let expected : Document := alone {
    name := "Card_user".toList
    onType := "User".toList
    selections := [Selection.ofField "id".toList []] }
  have succeeds : (command.perform request ⟨"Card".toList, true⟩ ⟨"Page.re".toList⟩).toOption.map
      (·.fragmentName) = some "Card_user".toList := by decide +kernel
  obtain ⟨made, performed, called⟩ := Option.map_eq_some_iff.mp succeeds
  have performed : command.perform request ⟨"Card".toList, true⟩ ⟨"Page.re".toList⟩ = .ok made := by
    cases outcome : command.perform request ⟨"Card".toList, true⟩ ⟨"Page.re".toList⟩ with
    | error failure => rw [outcome] at performed; cases performed
    | ok other => rw [outcome] at performed; cases performed; rfl
  obtain ⟨region, document, selections, fragment, here, parsed, extracted, -, name, onType, bare,
    holds, -, reads⟩ := regions_of_perform performed
  -- The extracted selections are the one field.
  have whole : request.region? = some (.document request.text) := by decide +kernel
  have said : Lexeme.content request.text = ([.mark '\x7b', .name "user".toList, .mark '\x7b',
      .name "id".toList, .name "name".toList, .mark '\x7d', .mark '\x7d'] : List Lexeme).map
        .lexeme := by decide +kernel
  have spans : Document.lexemeSpans request.text =
      [⟨0, 1⟩, ⟨2, 6⟩, ⟨7, 8⟩, ⟨9, 11⟩, ⟨12, 16⟩, ⟨17, 18⟩, ⟨19, 20⟩] := by decide +kernel
  have field : ((Document.parse? request.text).bind command.extracted?).map eraseAll =
      some [Selection.ofField "id".toList []] := by
    rw [Document.parse?_eq, said, spans]
    rfl
  obtain rfl := Option.some.inj (here.symm.trans whole)
  have parsed : Document.parse? request.text = some document := parsed
  rw [parsed, Option.bind_some, extracted, Option.map_some] at field
  have erased : eraseAll selections = [Selection.ofField "id".toList []] := Option.some.inj field
  have alike : (alone fragment).erase = expected.erase := by
    rw [erase_alone bare, name, onType, holds, called, erased]
    rfl
  -- The fragment is read from what it is printed as.
  have printed : (alone fragment).print = written := by
    rw [Document.print_eq_of_erase_eq alike]
    decide +kernel
  have saidAgain : Lexeme.content written = ([.name "fragment".toList, .name "Card_user".toList,
      .name "on".toList, .name "User".toList, .mark '\x7b', .name "id".toList, .mark '\x7d'] :
        List Lexeme).map .lexeme := by decide +kernel
  have reread : (Document.parse? written).map Document.erase = some expected.erase := by
    rw [Document.parse?_eq, saidAgain, Option.map_map]
    simp only [Function.comp_def, Document.erase_respan]
    rfl
  have back : (alone fragment).IsReadFrom written := by
    obtain ⟨read, parsed, same⟩ := Option.map_eq_some_iff.mp reread
    exact ⟨read, parsed, same.trans alike.symm⟩
  rw [printed] at reads
  obtain ⟨block, read, found, inside⟩ := reads (by decide +kernel) back
  rw [called] at inside
  exact ⟨made, block, read, performed, found, inside.parsed, inside.name, inside.onType,
    inside.directives, inside.selections.trans (erased.trans rfl)⟩

end ExtractionCommand

end RelayWorkbench.Relay
