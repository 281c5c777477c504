import RelayWorkbench.Proofs.GraphQL.LegibleSchemas
import RelayWorkbench.Proofs.Relay.ModuleTexts

/-! Modules that are scaffolded. The module has a name that the file has no module of, and inserted
at the end of the file it is one more region, which reads as the definition that was asked for. -/

namespace RelayWorkbench.Relay

open RelayWorkbench.GraphQL RelayWorkbench.Host

/-- What there is to pick from. -/
def ModuleKind.candidates (schema : Schema) : ModuleKind → List Name
  | fragment => Scaffold.fragmentCandidates schema
  | operation kind => Scaffold.rootFieldCandidates schema kind

/-- The name of a module unless it is taken. -/
def ModuleKind.usualName (picked : Name) : ModuleKind → Text
  | fragment => picked ++ "Fragment".toList
  | operation kind => Scaffold.defaultModuleName kind picked

namespace Scaffold

/-- However many questions it takes, the name is not taken in the end, and it is the first one or
one of the answers. -/
theorem free_of_freeModuleName {document name free : Text} {answers : List (Option Text)}
    {asked : List Prompt} (chosen : freeModuleName document name answers = (some free, asked)) :
    isTaken document free = false ∧ (free = name ∨ some free ∈ answers) := by
  induction answers generalizing name asked with
  | nil =>
    simp only [freeModuleName] at chosen
    split at chosen
    · cases chosen
    · next available =>
      cases chosen
      exact ⟨Bool.eq_false_iff.mpr available, .inl rfl⟩
  | cons answer more ih =>
    simp only [freeModuleName] at chosen
    split at chosen
    · cases answer with
      | none => cases chosen
      | some other =>
        obtain ⟨same, -⟩ := Prod.mk.inj chosen
        obtain ⟨untaken, origin⟩ := ih (Prod.ext same rfl)
        refine ⟨untaken, .inr ?_⟩
        rcases origin with rfl | later
        · exact List.mem_cons_self
        · exact List.mem_cons_of_mem _ later
    · next available =>
      cases chosen
      exact ⟨Bool.eq_false_iff.mpr available, .inl rfl⟩

theorem exists_name {document name made : Text} {answers : List (Option Text)}
    {make : Text → Text}
    (produced : (freeModuleName document name answers).1.map make = some made) :
    ∃ free, made = make free ∧ ¬ "module ".toList ++ free ++ " =".toList <:+: document ∧
      (free = name ∨ some free ∈ answers) := by
  obtain ⟨free, chosen, rfl⟩ := Option.map_eq_some_iff.mp produced
  obtain ⟨untaken, origin⟩ := free_of_freeModuleName (Prod.ext chosen rfl)
  refine ⟨free, rfl, fun inside => ?_, origin⟩
  have taken : isTaken document free := Text.occursIn_iff.mpr inside
  exact Bool.false_ne_true (untaken.symm.trans taken)

/-- The arguments that an operation has variables for: all of them, but in a query only those that
must have a value. -/
def neededArguments (kind : OperationKind) (field : FieldDefinition) : List InputValue :=
  field.arguments.filter fun argument => kind != .query || argument.type.isRequired

/-- The operation that is asked for with a root field. -/
def operationPlan (kind : OperationKind) (component : Name) (field : FieldDefinition) :
    OperationPlan where
  kind := kind
  name := some (operationName kind component field.name)
  needed := (neededArguments kind field).map declared
  field := field.name
  passed := (neededArguments kind field).map (·.name)

/-- The fragment that is asked for with a type. -/
def fragmentPlan (component name onType : Name) : FragmentPlan :=
  ⟨fragmentName component name, onType, "id".toList⟩

/-- A definition is what a module is to define, for what was picked. -/
inductive Defines (schema : Schema) (component name : Name) :
    ModuleKind → Name → Definition → Prop where
  | fragment {onType : Name} {stated : Fragment}
      (planned : (fragmentPlan component name onType).IsOf stated) :
      Defines schema component name .fragment onType (.fragment stated)
  | operation {kind : OperationKind} {item : Name} {field : FieldDefinition} {stated : Operation}
      (known : (rootFields schema kind).find? (·.name == item) = some field)
      (planned : (operationPlan kind component field).IsOf stated) :
      Defines schema component name (.operation kind) item (.operation stated)

/-- Parts of a module that write a definition between its quotes. -/
structure Writes (head selection : Text) (stated : Definition) : Prop where
  plainHead : '|' ∉ head
  plainSelection : '|' ∉ selection
  parsed : Document.parse? (blockText head selection) = some ⟨[stated]⟩

section Fragments

variable {component name onType : Name}

theorem isName_fragmentName (called : Lexeme.isName component) (named : Lexeme.isName name) :
    Lexeme.isName (fragmentName component name) := by
  have word := Lexeme.all_isWordChar named
  have less : (Text.eraseFirst "Fragment".toList name).all Text.isWordChar := by
    unfold Text.eraseFirst
    split
    · next before after cut =>
      rw [Text.eq_of_cut? cut, List.all_append, List.all_append] at word
      simp only [Bool.and_eq_true] at word
      rw [List.all_append, word.1.1, word.2, Bool.and_self]
    · exact word
  exact Lexeme.isName_append_underscore called (Lexeme.all_isWordChar_uncapitalize less)

theorem exists_fragment (called : Lexeme.isName component) (named : Lexeme.isName name)
    (typed : Lexeme.isName onType) :
    ∃ stated, (fragmentPlan component name onType).IsOf stated ∧
      Writes ("fragment ".toList ++ fragmentName component name ++ " on ".toList ++ onType)
        "id".toList (.fragment stated) := by
  have own := isName_fragmentName called named
  have heads := FragmentPlan.spells_front own typed .nil rfl
  rw [List.append_nil] at heads
  have selects : Lexeme.Spells "id".toList [.name "id".toList] := fun _ ends =>
    Lexeme.content_name (by decide) ends
  have other : fragmentName component name ≠ "on".toList :=
    Lexeme.append_underscore_ne (by decide) _ _
  obtain ⟨stated, parsed, planned⟩ := (fragmentPlan component name onType).exists_parse? other
    (spells_blockText heads selects)
  have literals : '|' ∉ "fragment ".toList ∧ '|' ∉ " on ".toList ∧ '|' ∉ "id".toList := by
    decide +kernel
  obtain ⟨keyword, condition, only⟩ := literals
  have nameless : '|' ∉ fragmentName component name := Lexeme.notMem_of_isName own (by decide)
  have typeless : '|' ∉ onType := Lexeme.notMem_of_isName typed (by decide)
  exact ⟨stated, planned, List.not_mem_append (List.not_mem_append (List.not_mem_append keyword
    nameless) condition) typeless, only, parsed⟩

theorem isName_of_mem_fragmentCandidates {schema : Schema} (legible : schema.Legible)
    (offered : onType ∈ fragmentCandidates schema) : Lexeme.isName onType := by
  obtain ⟨known, kept, rfl⟩ := List.mem_map.mp offered
  have named := legible.types known (List.mem_filter.mp kept).1
  exact (TypeDefinition.forall_leaves.mp named).1

end Fragments

section Operations

variable (kind : OperationKind) {component : Name} {field : FieldDefinition}

theorem isName_operationName (called : Lexeme.isName component)
    (named : Lexeme.isName field.name) :
    Lexeme.isName (operationName kind component field.name) := by
  have words : ("Query".toList).all Text.isWordChar ∧ ("Mutation".toList).all Text.isWordChar ∧
      ("Subscription".toList).all Text.isWordChar := by decide +kernel
  obtain ⟨query, mutation, subscription⟩ := words
  cases kind with
  | query => exact Lexeme.isName_append called query
  | subscription => exact Lexeme.isName_append called subscription
  | mutation =>
    have inner := Lexeme.all_isWordChar (Lexeme.isName_capitalize named)
    exact Lexeme.isName_append (Lexeme.isName_append_underscore called inner) mutation

theorem legible_of_mem_rootFields {schema : Schema} {kind : OperationKind}
    (legible : schema.Legible) (member : field ∈ rootFields schema kind) :
    Lexeme.isName field.name ∧ AllLegible field.arguments := by
  unfold rootFields at member
  split at member
  · next fields found =>
    obtain ⟨root, -, known⟩ := Option.bind_eq_some_iff.mp found
    exact legible.of_mem_fields known member
  · cases member

theorem exists_rootField {schema : Schema} {kind : OperationKind} {name : Name}
    (offered : name ∈ rootFieldCandidates schema kind) :
    ∃ field, (rootFields schema kind).find? (·.name == name) = some field := by
  obtain ⟨field, member, rfl⟩ := List.mem_map.mp offered
  exact Option.isSome_iff_exists.mp (List.find?_isSome.mpr ⟨field, member, by simp⟩)

theorem exists_operation (called : Lexeme.isName component) (named : Lexeme.isName field.name)
    (legible : AllLegible field.arguments) :
    ∃ stated, (operationPlan kind component field).IsOf stated ∧
      Writes (kind.keyword ++ ' ' :: operationName kind component field.name ++
          variablesText (neededArguments kind field))
        (field.name ++ argumentsText (neededArguments kind field)) (.operation stated) := by
  have own := isName_operationName kind called named
  have needed : AllLegible (neededArguments kind field) := fun argument member =>
    legible argument (List.mem_filter.mp member).1
  have keyword : Lexeme.isName kind.keyword := by cases kind <;> decide +kernel
  have heads : Lexeme.Spells (kind.keyword ++ (' ' ::
      (operationName kind component field.name ++ variablesText (neededArguments kind field)))) _ :=
    .name keyword rfl <| .blank (by decide) <|
      .name own (head?_variablesText _) (spells_variablesText needed)
  have selects : Lexeme.Spells (field.name ++ argumentsText (neededArguments kind field)) _ :=
    .name named (head?_argumentsText _) (spells_argumentsText needed)
  obtain ⟨stated, parsed, planned⟩ := (operationPlan kind component field).exists_parse?
    (List.forall_mem_map.mpr fun argument member => (needed argument member).2.shallow)
    (spells_blockText heads selects)
  have parts : kind.keyword ++ (' ' ::
      (operationName kind component field.name ++ variablesText (neededArguments kind field))) =
      kind.keyword ++ ' ' :: operationName kind component field.name ++
        variablesText (neededArguments kind field) := by
    simp only [List.append_assoc, List.cons_append]
  rw [parts] at parsed
  have plain : ∀ {word}, Lexeme.isName word → '|' ∉ word := fun named =>
    Lexeme.notMem_of_isName named (by decide)
  exact ⟨stated, planned, List.not_mem_append (List.not_mem_append (plain keyword)
    (List.not_mem_cons_of_ne_of_not_mem (by decide) (plain own))) (notMem_variablesText needed),
    List.not_mem_append (plain named) (notMem_argumentsText needed), parsed⟩

end Operations

section Scaffolding

variable {schema : Schema} {component document made : Text} {answers : Answers}
  {asked : List Prompt}

/-- The module of some name that is made for an item that was picked. -/
structure Makes (schema : Schema) (kind : ModuleKind) (component document : Text)
    (answers : Answers) (made : Text) (item name : Name) : Prop where
  picks : answers.pick (kind.candidates schema) = some item
  origin : name = kind.usualName item ∨ some name ∈ answers.names
  untaken : ¬ "module ".toList ++ name ++ " =".toList <:+: document
  text : ∃ head selection, made = moduleText kind name head selection ∧
    (Lexeme.isName name → ∃ stated, Writes head selection stated ∧
      Defines schema component name kind item stated)

private theorem makes_of_fragment (legible : schema.Legible) (called : Lexeme.isName component)
    (among : ∀ item, answers.pick (fragmentCandidates schema) = some item →
      item ∈ fragmentCandidates schema)
    (scaffolded : fragment schema component document answers = (some made, asked)) :
    ∃ item name, Makes schema .fragment component document answers made item name := by
  simp only [fragment] at scaffolded
  split at scaffolded
  · cases scaffolded
  · next item picks =>
    obtain ⟨produced, -⟩ := Prod.mk.inj scaffolded
    obtain ⟨name, rfl, untaken, origin⟩ := exists_name produced
    refine ⟨item, name, picks, origin, untaken, _, _, rfl, fun named => ?_⟩
    have typed := isName_of_mem_fragmentCandidates legible (among item picks)
    obtain ⟨stated, planned, writes⟩ := exists_fragment called named typed
    exact ⟨_, writes, .fragment planned⟩

private theorem makes_of_operation {kind : OperationKind} (legible : schema.Legible)
    (called : Lexeme.isName component)
    (among : ∀ item, answers.pick (rootFieldCandidates schema kind) = some item →
      item ∈ rootFieldCandidates schema kind)
    (scaffolded : operation kind schema component document answers = (some made, asked)) :
    ∃ item name, Makes schema (.operation kind) component document answers made item name := by
  simp only [operation] at scaffolded
  split at scaffolded
  · cases scaffolded
  split at scaffolded
  · cases scaffolded
  · next item picks =>
    obtain ⟨produced, -⟩ := Prod.mk.inj scaffolded
    obtain ⟨name, rfl, untaken, origin⟩ := exists_name produced
    obtain ⟨field, known⟩ := exists_rootField (among item picks)
    obtain rfl : field.name = item := by simpa using List.find?_some known
    obtain ⟨listed, arguments⟩ :=
      legible_of_mem_rootFields legible (List.mem_of_find?_eq_some known)
    refine ⟨field.name, name, picks, origin, untaken, _, _, rfl, fun _ => ?_⟩
    obtain ⟨stated, planned, writes⟩ := exists_operation kind called listed arguments
    rw [known]
    exact ⟨_, writes, .operation known planned⟩

end Scaffolding

/-- What is scaffolded is found and read again. The module has a name of which the file has no
module. At the end of the file it is one more region, which reads as the one definition that is made
for what was picked. -/
theorem regions_of_scaffold {files : List Text} {kind : ModuleKind} {component text made : Text}
    {answers : Answers} {asked : List Prompt} (called : Lexeme.isName component)
    (closed : QuotedBlock.Closed text)
    (among : ∀ item, answers.pick (kind.candidates (clientSchema files)) = some item →
      item ∈ kind.candidates (clientSchema files))
    (scaffolded : scaffold kind (clientSchema files) component text answers = (some made, asked)) :
    ∃ item name, answers.pick (kind.candidates (clientSchema files)) = some item ∧
      (name = kind.usualName item ∨ some name ∈ answers.names) ∧
      "module ".toList ++ name ++ " = [%".toList <+: made ∧
      ¬ "module ".toList ++ name ++ " =".toList <:+: text ∧
      (Lexeme.isName name → ∃ regions region stated, regions? "reason" text = some regions ∧
        regions? "reason" (insertModule text made none) = some (regions ++ [region]) ∧
        Document.parse? region.content = some ⟨[stated]⟩ ∧
        Defines (clientSchema files) component name kind item stated) := by
  have legible := legible_clientSchema files
  obtain ⟨item, name, makes⟩ :
      ∃ item name, Makes (clientSchema files) kind component text answers made item name := by
    cases kind with
    | fragment => exact makes_of_fragment legible called among scaffolded
    | operation kind => exact makes_of_operation legible called among scaffolded
  obtain ⟨head, selection, rfl, holds⟩ := makes.text
  refine ⟨item, name, makes.picks, makes.origin, prefix_moduleText kind name head selection,
    makes.untaken, fun named => ?_⟩
  obtain ⟨stated, writes, defines⟩ := holds named
  obtain ⟨region, found, content⟩ :=
    regionsIn_insertModule kind text named writes.plainHead writes.plainSelection closed
  exact ⟨_, region, stated, rfl, congrArg some found, by rw [content, writes.parsed], defines⟩

/-- A query in a file that has a module `Query` already. Only the argument that must have a value
gets a variable. -/
theorem regions_of_scaffold_query :
    let files := ["type Query \x7b user(id: ID!, locale: String): Int \x7d".toList]
    let text := "module Query = [%relay.query \x7b|query A \x7b a \x7d|\x7d];\n".toList
    let made := ("module Users = [%relay.query\n  \x7b|\n  query PageQuery($id: ID!) \x7b\n" ++
      "    user(id: $id)\n  \x7d\n|\x7d\n];").toList
    let answers : Answers := { pick := List.head?, names := [some "Users".toList] }
    let asked := [.pick "Select root field" ["user".toList], renamePrompt "Query".toList]
    ∃ regions region stated,
      scaffold (.operation .query) (clientSchema files) "Page".toList text answers =
        (some made, asked) ∧
      regions? "reason" text = some regions ∧ regions.length = 1 ∧
      regions? "reason" (insertModule text made none) = some (regions ++ [region]) ∧
      Document.parse? region.content = some ⟨[.operation stated]⟩ ∧
      OperationPlan.IsOf ⟨.query, some "PageQuery".toList,
        [("id".toList, .named "ID".toList true)], "user".toList, ["id".toList]⟩ stated := by
  intro files text made answers asked
  have scaffolded : scaffold (.operation .query) (clientSchema files) "Page".toList text answers =
      (some made, asked) := by decide +kernel
  have offered : ModuleKind.candidates (clientSchema files) (.operation .query) =
      ["user".toList] := by decide +kernel
  have closed : QuotedBlock.Closed text := .block rfl rfl (.code rfl)
  obtain ⟨item, name, picks, origin, -, untaken, holds⟩ :=
    regions_of_scaffold (by decide +kernel) closed
      (fun item picks => List.mem_of_head? picks) scaffolded
  rw [offered] at picks
  obtain rfl : "user".toList = item := Option.some.inj picks
  have taken : "module Query =".toList <:+: text := by decide +kernel
  obtain rfl : name = "Users".toList := by
    rcases origin with rfl | answered
    · exact absurd taken untaken
    · simpa [answers] using answered
  obtain ⟨regions, region, _, before, after, parsed, defines⟩ := holds (by decide +kernel)
  have plan : ((rootFields (clientSchema files) .query).find? (·.name == "user".toList)).map
      (operationPlan .query "Page".toList) = some ⟨.query, some "PageQuery".toList,
        [("id".toList, .named "ID".toList true)], "user".toList, ["id".toList]⟩ := by
    decide +kernel
  have single : (regions? "reason" text).map List.length = some 1 := by decide +kernel
  rw [before, Option.map_some] at single
  cases defines with
  | @operation _ _ field stated known planned =>
    rw [known, Option.map_some] at plan
    exact ⟨regions, region, stated, scaffolded, before, Option.some.inj single, after, parsed,
      Option.some.inj plan ▸ planned⟩

end Scaffold

end RelayWorkbench.Relay
