import RelayWorkbench.Proofs.GraphQL.CursorWords
import RelayWorkbench.Proofs.GraphQL.Directives
import RelayWorkbench.Proofs.GraphQL.NeatPrinting
import RelayWorkbench.Proofs.GraphQL.Reprinting
import RelayWorkbench.Proofs.Relay.OfferedEdits
import RelayWorkbench.Proofs.Replacer.Leaves

/-! The leaves of what is offered. A refactoring adds names that are written in the document or in
the schema, and strings that are made of such names and of the name of the module. -/

namespace RelayWorkbench.GraphQL

open RelayWorkbench.Host (Language)

variable {language : Language}

theorem TypeRef.suits_of_worded {type : TypeRef} (worded : ∀ leaf ∈ type.leaves, leaf.Worded) :
    ∀ leaf ∈ type.leaves, leaf.Suits language := by
  induction type with
  | named name =>
    have word : Lexeme.IsWord name := worded _ (List.mem_singleton_self _)
    exact List.forall_mem_singleton.mpr word
  | list item _ ih => exact ih worded

theorem TypeRef.spares_print {type : TypeRef} (worded : ∀ leaf ∈ type.leaves, leaf.Worded) :
    language.Spares type.print :=
  (neat_print (suits_of_worded worded)).toQuiet.harmless.toSpares

/-- A variable that is declared as it is written has a name and a type, and nothing else. -/
theorem VariableDefinition.suits_of_ofWritten? {name type : Text} {declared : VariableDefinition}
    (written : ofWritten? name type = some declared) :
    ∀ leaf ∈ declared.leaves, leaf.Suits language := by
  rw [ofWritten?] at written
  cases parsed : Document.parse? (probe name type) with
  | none =>
    rw [parsed] at written
    cases written
  | some document =>
    have worded := Document.forall_leaves.mp (Document.leaves_of_parse? parsed)
    rw [parsed] at written
    simp only [Option.map_some, Option.bind_eq_bind, Option.bind_some] at written
    split at written
    · next operation only =>
      split at written
      · next single alone =>
        split at written
        · next checked =>
          cases written
          simp only [Bool.and_eq_true, decide_eq_true_eq, Option.isNone_iff_eq_none,
            List.isEmpty_iff] at checked
          have own := worded (.operation operation) (by simp [only])
          have leaves := forall_leaves.mp
            ((Operation.forall_leaves.mp own).2.1 declared (by simp [alone]))
          refine forall_leaves.mpr ⟨leaves.1, TypeRef.suits_of_worded leaves.2.1, ?_, ?_⟩
          · simp [checked.1.2]
          · simp [checked.2]
        · cases written
      · cases written
    · cases written

end RelayWorkbench.GraphQL

namespace RelayWorkbench.Relay

open RelayWorkbench.GraphQL
open RelayWorkbench.Host (Language)

namespace Scene

/-- A scene of which all words can be written into a host document. -/
structure Suits (language : Language) (scene : Scene) : Prop where
  schema : scene.schema.Worded
  moduleName : language.Spares scene.moduleName
  document : ∀ leaf ∈ scene.document.leaves, leaf.Suits language
  place : CursorContext.PlaceWorded scene.context.place

variable {language : Language} {scene : Scene} {offer : Offer}

private theorem spares_of_word {text : Text} (word : Lexeme.IsWord text) : language.Spares text :=
  word.filler.harmless.toSpares

/-- A name that is put behind the name of the module begins with a letter. -/
private theorem Suits.spares_name (suits : scene.Suits language) {ending : Text}
    (word : Lexeme.IsWord ending) : language.Spares (scene.moduleName ++ ending) := by
  refine suits.moduleName.append (spares_of_word word) fun last _ first here => ?_
  have inside := word.2 first (List.mem_of_head? here)
  refine .of_second ?_ ?_ last <;> rintro rfl <;> revert inside <;> decide

private theorem Suits.word_shownField (suits : scene.Suits language) (typeName : Option Name) :
    Lexeme.IsWord (scene.shownField typeName) := by
  have id : Lexeme.IsWord "id".toList := by decide
  unfold shownField
  cases shown : (typeName.bind scene.schema.type?).bind TypeDefinition.displayField? with
  | none => exact id
  | some name =>
    obtain ⟨type, found, shown⟩ := Option.bind_eq_some_iff.mp shown
    obtain ⟨called, -, known⟩ := Option.bind_eq_some_iff.mp found
    have own := (TypeDefinition.forall_leaves.mp (suits.schema.of_type? known)).2.2
    unfold TypeDefinition.displayField? at shown
    dsimp only at shown
    split at shown
    · cases shown
      exact id
    · obtain ⟨field, member, rfl⟩ := List.mem_map.mp (List.mem_of_head? shown)
      exact (FieldDefinition.forall_leaves.mp (Schema.leaves_of_mem_fields own member)).2.1

private theorem Suits.of_fragment? {stated : Fragment} (suits : scene.Suits language)
    (here : scene.fragment? = some stated) : ∀ leaf ∈ stated.leaves, leaf.Suits language := by
  unfold fragment? at here
  split at here
  · next found =>
    cases here
    exact Document.forall_leaves.mp suits.document _ (List.mem_of_getElem? found)
  · cases here

private theorem suits_ofString {name value : Text} (word : Lexeme.IsWord name)
    (spares : language.Spares value) :
    ∀ leaf ∈ (Argument.ofString name value).leaves, leaf.Suits language :=
  Argument.forall_leaves.mpr ⟨word, List.forall_mem_singleton.mpr spares⟩

private theorem suits_ofVariable {name : Name} (word : Lexeme.IsWord name) :
    ∀ leaf ∈ (Argument.ofVariable name).leaves, leaf.Suits language :=
  Argument.forall_leaves.mpr ⟨word, List.forall_mem_singleton.mpr word⟩

private theorem suits_declaring {name type : Text} (word : Lexeme.IsWord name)
    (spares : language.Spares type) {default : Option Int}
    (written : ∀ number ∈ default, Lexeme.IsWord (Argument.integerText number)) :
    ∀ leaf ∈ (Argument.declaring name type default).leaves, leaf.Suits language := by
  refine Argument.forall_leaves.mpr ⟨word, Value.forall_leaves_object.mpr ?_⟩
  refine List.forall_mem_cons.mpr ⟨⟨(by decide : Lexeme.IsWord "type".toList),
    List.forall_mem_singleton.mpr spares⟩, ?_⟩
  intro field member
  obtain ⟨number, given, rfl⟩ := Option.map_eq_some_iff.mp (Option.mem_toList.mp member)
  exact ⟨(by decide : Lexeme.IsWord "defaultValue".toList),
    List.forall_mem_singleton.mpr (written number given)⟩

private theorem suits_operation {name : Name} {arguments : List Argument}
    (named : Lexeme.IsWord name)
    (given : ∀ argument ∈ arguments, ∀ leaf ∈ argument.leaves, leaf.Suits language)
    (stated : Operation) (sound : ∀ leaf ∈ stated.leaves, leaf.Suits language) :
    ∀ leaf ∈ (Directed.addDirective name arguments stated).leaves, leaf.Suits language := by
  obtain ⟨called, declared, directed, below⟩ := Operation.forall_leaves.mp sound
  exact Operation.forall_leaves.mpr
    ⟨called, declared, Directive.forall_leaves_add named given directed, below⟩

private theorem suits_fragment {name : Name} {arguments : List Argument}
    (named : Lexeme.IsWord name)
    (given : ∀ argument ∈ arguments, ∀ leaf ∈ argument.leaves, leaf.Suits language)
    (stated : Fragment) (sound : ∀ leaf ∈ stated.leaves, leaf.Suits language) :
    ∀ leaf ∈ (Directed.addDirective name arguments stated).leaves, leaf.Suits language := by
  obtain ⟨called, typed, directed, below⟩ := Fragment.forall_leaves.mp sound
  exact Fragment.forall_leaves.mpr
    ⟨called, typed, Directive.forall_leaves_add named given directed, below⟩

private theorem suits_ofField {name : Name} (word : Lexeme.IsWord name)
    {selections : List Selection}
    (below : ∀ selection ∈ selections, Replacer.SelectionOf (Lexeme.Suits language) selection) :
    Replacer.SelectionOf (Lexeme.Suits language) (.ofField name selections) :=
  Selection.forall_leaves_field.mpr
    ⟨FieldHead.forall_leaves.mpr
      ⟨by simp, word, List.forall_mem_nil _, List.forall_mem_nil _⟩, below⟩

private theorem keeps_declareVariable (offered : Refactoring.declareVariable? scene = some offer) :
    offer.replacer.Keeps (Lexeme.Suits language) := by
  obtain ⟨name, stated, type, declared, -, -, -, -, written, rfl⟩ :=
    Refactoring.declareVariable?_eq_some offered
  refine .onOperation fun former sound => ?_
  obtain ⟨called, existing, directed, below⟩ := Operation.forall_leaves.mp sound
  have own : ∀ leaf ∈ declared.leaves, leaf.Suits language :=
    VariableDefinition.suits_of_ofWritten? written
  exact Operation.forall_leaves.mpr ⟨called,
    List.forall_mem_append.mpr ⟨existing, List.forall_mem_singleton.mpr own⟩, directed, below⟩

private theorem keeps_markTestOperation
    (offered : Refactoring.markTestOperation? scene = some offer) :
    offer.replacer.Keeps (Lexeme.Suits language) := by
  obtain ⟨stated, -, -, rfl⟩ := Refactoring.markTestOperation?_eq_some offered
  exact .onOperation (suits_operation (by decide) (List.forall_mem_nil _))

private theorem keeps_expandUnion (suits : scene.Suits language)
    (offered : Refactoring.expandUnion? scene = some offer) :
    offer.replacer.Keeps (Lexeme.Suits language) := by
  obtain ⟨made, type, members, here, body, -, rfl⟩ := Refactoring.expandUnion?_eq_some offered
  obtain ⟨-, known⟩ := cursorField?_iff.mp here
  obtain ⟨called, -, known⟩ := Option.bind_eq_some_iff.mp known
  have own := (TypeDefinition.forall_leaves.mp (suits.schema.of_type? known)).2.2
  rw [body] at own
  have words : ∀ member ∈ members, Lexeme.IsWord member := fun member among =>
    own (.name member) (List.mem_map_of_mem among)
  refine .onField fun former sound => Selection.forall_leaves_field.mpr
    ⟨(Selection.forall_leaves_field.mp sound).1, ?_⟩
  refine List.forall_mem_cons.mpr ⟨suits_ofField (by decide) (List.forall_mem_nil _), ?_⟩
  refine List.forall_mem_map.mpr fun member among => Selection.forall_leaves_inline.mpr
    ⟨InlineHead.forall_leaves.mpr ⟨?_, List.forall_mem_nil _⟩, List.forall_mem_singleton.mpr
      (suits_ofField (suits.word_shownField _) (List.forall_mem_nil _))⟩
  rintro name ⟨⟩
  exact words member among

private theorem keeps_offerDirective (stated : Fragment) (title : Text) {name : Name}
    {arguments : List Argument} (named : Lexeme.IsWord name)
    (given : ∀ argument ∈ arguments, ∀ leaf ∈ argument.leaves, leaf.Suits language) :
    (Refactoring.offerDirective stated title name arguments).replacer.Keeps
      (Lexeme.Suits language) :=
  .onFragment (suits_fragment named given)

private theorem keeps_declareArgument (suits : scene.Suits language)
    (offered : Refactoring.declareArgument? scene = some offer) :
    offer.replacer.Keeps (Lexeme.Suits language) := by
  obtain ⟨name, stated, type, cursor, -, -, expected, rfl⟩ :=
    Refactoring.declareArgument?_eq_some offered
  have word : Lexeme.IsWord name := by
    exact suits.place.token _ (cursorVariable?_iff.mp cursor)
  have spares : language.Spares type.print :=
    TypeRef.spares_print (suits.place.argumentType type expected)
  exact keeps_offerDirective stated _ (by decide) (List.forall_mem_singleton.mpr
    (suits_declaring word spares (by simp)))

private theorem keeps_makeInline (offered : Refactoring.makeInline? scene = some offer) :
    offer.replacer.Keeps (Lexeme.Suits language) := by
  obtain ⟨stated, -, -, rfl⟩ := Refactoring.makeInline?_eq_some offered
  exact keeps_offerDirective stated _ (by decide) (List.forall_mem_nil _)

private theorem keeps_makeRefetchable (suits : scene.Suits language)
    (offered : Refactoring.makeRefetchable? scene = some offer) :
    offer.replacer.Keeps (Lexeme.Suits language) := by
  obtain ⟨stated, -, -, rfl⟩ := Refactoring.makeRefetchable?_eq_some offered
  have query := suits_ofString (by decide : Lexeme.IsWord "queryName".toList)
    (suits.spares_name (by decide : Lexeme.IsWord "RefetchQuery".toList))
  exact keeps_offerDirective stated _ (by decide) (List.forall_mem_singleton.mpr query)

private theorem keeps_makePlural (offered : Refactoring.makePlural? scene = some offer) :
    offer.replacer.Keeps (Lexeme.Suits language) := by
  obtain ⟨stated, -, -, rfl⟩ := Refactoring.makePlural?_eq_some offered
  have plural : ∀ leaf ∈ (Argument.ofBoolean "plural".toList true).leaves, leaf.Suits language :=
    Argument.forall_leaves.mpr
      ⟨(by decide : Lexeme.IsWord "plural".toList), List.forall_mem_nil _⟩
  exact keeps_offerDirective stated _ (by decide) (List.forall_mem_singleton.mpr plural)

/-- A pagination of which all that is written can be read over. -/
private structure SuitsPagination (language : Language) (pagination : Pagination) : Prop where
  queryName : language.Spares pagination.queryName
  key : language.Spares pagination.key
  shown : Lexeme.IsWord pagination.shown

private theorem Suits.pagination (suits : scene.Suits language) (made : Field)
    (type : TypeDefinition) : SuitsPagination language (.ofField scene made type) := by
  have named : ∀ name ∈ scene.fragment?.map (·.name), Lexeme.IsWord name := by
    intro name present
    obtain ⟨stated, here, rfl⟩ := Option.map_eq_some_iff.mp present
    exact (Fragment.forall_leaves.mp (suits.of_fragment? here)).1
  have words : ∀ word ∈ (scene.fragment?.map (·.name)).toList ++ scene.context.place.path,
      Lexeme.IsWord word := List.forall_mem_append.mpr
    ⟨fun name member => named name (Option.mem_toList.mp member), suits.place.path⟩
  have key : Quiet language (Pagination.connectionKey (scene.fragment?.map (·.name))
      scene.context.place.path) :=
    .joinWith (by decide) (by decide) fun word member => .of_filler (words word member).filler
  exact ⟨suits.spares_name (by decide), key.harmless.toSpares, suits.word_shownField _⟩

namespace SuitsPagination

variable {pagination : Pagination}

private theorem field (suits : SuitsPagination language pagination) {former : Field}
    (sound : Replacer.SelectionOf (Lexeme.Suits language) (.field former.head former.selections)) :
    Replacer.SelectionOf (Lexeme.Suits language)
      (.field (pagination.field former).head (pagination.field former).selections) := by
  obtain ⟨own, below⟩ := Selection.forall_leaves_field.mp sound
  obtain ⟨label, name, arguments, directives⟩ := FieldHead.forall_leaves.mp own
  have key := suits_ofString (by decide : Lexeme.IsWord "key".toList) suits.key
  have connected := Directive.forall_leaves_add (by decide : Lexeme.IsWord "connection".toList)
    (List.forall_mem_singleton.mpr key) directives
  have merged := Argument.forall_mem_merge arguments
    (List.forall_mem_cons.mpr ⟨suits_ofVariable (by decide : Lexeme.IsWord "first".toList),
      List.forall_mem_singleton.mpr
        (suits_ofVariable (by decide : Lexeme.IsWord "after".toList))⟩)
  refine Selection.forall_leaves_field.mpr
    ⟨FieldHead.forall_leaves.mpr ⟨label, name, merged, connected⟩, ?_⟩
  have shown : Replacer.SelectionOf (Lexeme.Suits language) (.ofField pagination.shown []) :=
    suits_ofField suits.shown (List.forall_mem_nil _)
  have node := suits_ofField (by decide : Lexeme.IsWord "node".toList)
    (List.forall_mem_singleton.mpr shown)
  have edges := suits_ofField (by decide : Lexeme.IsWord "edges".toList)
    (List.forall_mem_singleton.mpr node)
  unfold Pagination.field
  dsimp only
  split
  · exact List.forall_mem_singleton.mpr edges
  · exact below

private theorem fragment (suits : SuitsPagination language pagination) {former : Fragment}
    (sound : ∀ leaf ∈ former.leaves, leaf.Suits language) :
    ∀ leaf ∈ (pagination.fragment former).leaves, leaf.Suits language := by
  have query := suits_ofString (by decide : Lexeme.IsWord "queryName".toList) suits.queryName
  have first : ∀ leaf ∈ (Argument.declaring "first".toList "Int".toList (some 5)).leaves,
      leaf.Suits language := suits_declaring (by decide) (spares_of_word (by decide)) (by decide)
  have after : ∀ leaf ∈ (Argument.declaring "after".toList "String".toList none).leaves,
      leaf.Suits language := suits_declaring (by decide) (spares_of_word (by decide))
        (by simp)
  exact suits_fragment (by decide)
    (List.forall_mem_cons.mpr ⟨first, List.forall_mem_singleton.mpr after⟩) _
    (suits_fragment (by decide) (List.forall_mem_singleton.mpr query) _ sound)

private theorem keeps (suits : SuitsPagination language pagination) :
    pagination.replacer.Keeps (Lexeme.Suits language) where
  field _ _ sound := Replacer.Keeps.of_target (suits.field sound)
  fragment _ _ sound := Replacer.Keeps.of_target (suits.fragment sound)

end SuitsPagination

private theorem keeps_pagination (suits : scene.Suits language)
    (offered : Pagination.offer? scene = some offer) :
    offer.replacer.Keeps (Lexeme.Suits language) := by
  obtain ⟨made, type, -, -, -, rfl⟩ := Pagination.offer?_eq_some_iff.mp offered
  exact (suits.pagination made type).keeps

/-- Whatever is offered keeps words and strings that can be written into the host document. -/
theorem Suits.keeps_of_mem (suits : scene.Suits language) {decision : Decision}
    (among : decision ∈ decisions) (offered : decision scene = some offer) :
    offer.replacer.Keeps (Lexeme.Suits language) := by
  simp only [decisions, List.mem_cons, List.not_mem_nil, or_false] at among
  rcases among with rfl | rfl | rfl | rfl | rfl | rfl | rfl | rfl
  · exact keeps_declareVariable offered
  · exact keeps_pagination suits offered
  · exact keeps_markTestOperation offered
  · exact keeps_expandUnion suits offered
  · exact keeps_declareArgument suits offered
  · exact keeps_makeInline offered
  · exact keeps_makeRefetchable suits offered
  · exact keeps_makePlural offered

end Scene

end RelayWorkbench.Relay
