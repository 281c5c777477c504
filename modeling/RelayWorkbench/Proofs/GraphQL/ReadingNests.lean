import RelayWorkbench.Proofs.GraphQL.ReadingPlaces

/-! Reading puts nodes where their lexemes are. The names of a field are lexemes of their own, its
arguments stand behind them and its directives behind those, and a selection set stands behind its
opening brace. -/

namespace RelayWorkbench.GraphQL.Reading

-- The instances of long steps are found bind by bind.
set_option synthInstance.maxSize 1000

open From (skip advanced)

variable {α β : Type} {lexemes : List Lexeme} {first : Nat}

private theorem reads_labelled {step : Reading α} [Passing step] {after : α → Cursor → Prop}
    {start : Nat} {label : Option Ident} (reads : Reads (From lexemes first) step after) :
    Reads (fun cursor => From lexemes first cursor ∧
        ∀ ident ∈ label, ident.Stands lexemes id start cursor.index) step
      fun value cursor => after value cursor ∧
        ∀ ident ∈ label, ident.Stands lexemes id start cursor.index :=
  reads_keeping (fun last => ∀ ident ∈ label, ident.Stands lexemes id start last)
    (fun _ _ ordered stands ident member => (stands ident member).widen ordered) reads

/-- A selection set whose owner has read up to `first`. -/
private def Nests (lexemes : List Lexeme) (set : Reading (List Selection)) : Prop :=
  ∀ first, Reads (From lexemes first) set fun selections cursor =>
    From lexemes first cursor ∧ Selection.AllStand lexemes id (first + 1) cursor.index selections

/-- A selection, if one is read, from `first` on. -/
private abbrev StandsFrom (lexemes : List Lexeme) (first : Nat) (read : Option Selection)
    (cursor : Cursor) : Prop :=
  Placed (Selection.Stands lexemes id) lexemes first read cursor

private theorem someOf_nests {announces : Lexeme → Bool} {item : Reading (Option Selection)}
    [Passing item] (reads : ∀ first, Reads (fun cursor => From lexemes first cursor ∧
      cursor.rest.head?.any announces) item (StandsFrom lexemes first)) (first : Nat) :
    Reads (From lexemes first) (someOf announces item) fun selections cursor =>
      From lexemes first cursor ∧
        Selection.AllStand lexemes id first cursor.index selections :=
  (someOf_placed Selection.widens reads first).imp fun _ _ ⟨here, line⟩ =>
    ⟨here, Selection.allStand_iff.mpr line⟩

/-- An inline fragment that started at `start`, from its selection set on. -/
private theorem inline_nests {set : Reading (List Selection)} [Passing set]
    (nests : Nests lexemes set) (start : Nat) (onType : Option Name)
    (directives : List Directive) :
    Reads (PlacedAll (Directive.Lies id) lexemes (start + 1) directives)
      (set >>= fun selections => since start >>= fun span =>
        pure (some (.inline { span, onType, directives } selections)))
      (StandsFrom lexemes start) := by
  refine Reads.each (fun origin => From lexemes origin.index)
    fun origin ⟨here, line⟩ => ⟨here.start, ?_⟩
  refine Reads.bind (nests origin.index) fun selections => ?_
  refine Reads.bind (reads_since start) fun span => Reads.pure ?_
  rintro cursor ⟨⟨after, stands⟩, rfl⟩
  have begun := here.behind
  have behind := after.behind
  refine ⟨after.lower (by omega), ?_⟩
  rintro _ ⟨⟩
  exact ⟨start, origin.index, cursor.index, ⟨rfl, Nat.le_refl _, by omega, Nat.le_refl _⟩, by omega,
    behind, line.widen Directive.widens (Nat.le_succ _) (Nat.le_refl _), stands⟩

private theorem spreading_nests {set : Reading (List Selection)} [Passing set]
    (nests : Nests lexemes set) (budget first : Nat) :
    Reads (fun cursor => From lexemes first cursor ∧ cursor.rest ≠ []) (spreading budget set)
      (StandsFrom lexemes first) := by
  simp only [spreading]
  refine placed_start Selection.widens fun start => advanced (Reads.peek fun next => ?_)
  have directed : Reads (From lexemes (start + 1)) (directives false budget)
      (PlacedAll (Directive.Lies id) lexemes (start + 1)) :=
    directives_placed false budget (start + 1)
  have braces : ∀ {read : List Directive}, Reads
      (PlacedAll (Directive.Lies id) lexemes (start + 1) read) (atMark '\x7b')
        fun _ => PlacedAll (Directive.Lies id) lexemes (start + 1) read :=
    (placedAll_keeping Directive.widens reads_from).imp fun _ _ held => held
  suffices reads : Reads (From lexemes (start + 1)) _ (StandsFrom lexemes start) from
    reads.weaken fun _ behind => behind.1
  split
  · refine Reads.ite (fun _ => ?_) fun _ => ?_
    · exact skip fun onType => directed.bind fun read => braces.bind fun opened =>
        Reads.ite (fun _ => Reads.fault) fun _ => inline_nests nests start onType read
    · refine skip fun _ => directed.bind fun read => placed_ends (InLine _ (start + 1) · read) ?_
      rintro last before line _ ⟨⟩
      exact ⟨start, last, ⟨rfl, Nat.le_refl _, before, Nat.le_refl _⟩,
        line.widen Directive.widens (Nat.le_succ _) (Nat.le_refl _)⟩
  · exact directed.bind fun read => braces.bind fun opened =>
      Reads.ite (fun _ => Reads.fault) fun _ => inline_nests nests start none read
  · exact directed.bind fun read => braces.bind fun opened =>
      Reads.ite (fun _ => Reads.fault) fun _ => inline_nests nests start none read
  · exact Reads.fault

/-- A field that started at `start` and of which some parts were read up to `last`. -/
private def Headed (lexemes : List Lexeme) (start : Nat) (label name : Option Ident)
    (arguments : List Argument) (directives : List Directive) (last : Nat) : Prop :=
  ∀ ident ∈ name, ∀ span, FieldHead.Stands lexemes id start last
    { span, label, name := ident, arguments, directives }

/-- A field that started at `start`, when all but its selection set was read up to `opens`. -/
private theorem field_ends {start opens : Nat} {label name : Option Ident}
    {arguments : List Argument} {directives : List Directive} (before : start ≤ opens)
    (headed : Headed lexemes start label name arguments directives opens)
    (selections : List Selection) :
    Reads (fun cursor => From lexemes opens cursor ∧
        Selection.AllStand lexemes id (opens + 1) cursor.index selections)
      (since start >>= fun span => pure (name.map fun name =>
        .field { span, label, name, arguments, directives } selections))
      (StandsFrom lexemes start) := by
  refine Reads.bind (reads_since start) fun span => Reads.pure ?_
  rintro cursor ⟨⟨here, inside⟩, rfl⟩
  refine ⟨here.lower before, fun selection same => ?_⟩
  obtain ⟨ident, present, rfl⟩ := Option.map_eq_some_iff.mp same
  obtain ⟨place, -, -, -, after, under⟩ := (headed ident present none).name
  have behind := here.behind
  exact ⟨start, opens, cursor.index, ⟨rfl, Nat.le_refl _, by omega, Nat.le_refl _⟩, behind,
    headed ident present _, inside⟩

/-- A field that started at `start`, from its name on. -/
private theorem field_goes {set : Reading (List Selection)} [Passing set]
    (nests : Nests lexemes set) (budget start : Nat) (label : Option Ident) :
    Reads (fun cursor => From lexemes start cursor ∧
        ∀ ident ∈ label, ident.Stands lexemes id start cursor.index)
      (do
        let name ← ident?
        let arguments ← arguments false budget
        let directives ← directives false budget
        let selections ← if ← atMark '{' then set else pure []
        let span ← since start
        return name.map fun name => .field { span, label, name, arguments, directives } selections)
      (StandsFrom lexemes start) := by
  refine (reads_labelled reads_ident?).bind fun name => ?_
  -- Each part of the field starts where the one before it ends.
  refine Reads.each (fun origin => From lexemes origin.index)
    fun named ⟨⟨here, stands⟩, labelled⟩ => ⟨here.start, ?_⟩
  refine (arguments_placed false budget named.index).bind fun arguments => ?_
  refine Reads.each (fun origin => From lexemes origin.index)
    fun given ⟨hereGiven, given_line⟩ => ⟨hereGiven.start, ?_⟩
  refine (directives_placed false budget given.index).bind fun directives => ?_
  refine Reads.each (fun origin => From lexemes origin.index)
    fun origin ⟨hereDirected, line⟩ => ⟨hereDirected.start, skip fun braces => ?_⟩
  have whole : Headed lexemes start label name arguments directives origin.index :=
    fun ident member span => ⟨named.index, given.index, {
      label := labelled
      name := stands ident member
      arguments := given_line
      directives := line
      behind := hereGiven.behind
      before := hereDirected.behind }⟩
  have before : start ≤ origin.index := by
    have begun := here.behind
    have behind := hereGiven.behind
    have ended := hereDirected.behind
    omega
  refine Reads.ite (fun _ => ?_) fun _ => ?_
  · exact Reads.bind (nests origin.index) fun selections => field_ends before whole selections
  · have none : Reads (From lexemes origin.index) (pure []) fun selections cursor =>
        From lexemes origin.index cursor ∧
          Selection.AllStand lexemes id (origin.index + 1) cursor.index selections :=
      Reads.pure fun _ here => ⟨here, trivial⟩
    exact none.bind fun selections => field_ends before whole selections

private theorem field_nests {set : Reading (List Selection)} [Passing set]
    (nests : Nests lexemes set) (budget first : Nat) :
    Reads (From lexemes first) (field budget set) (StandsFrom lexemes first) := by
  simp only [field]
  suffices reads : Reads (fun cursor => From lexemes first cursor ∧ True) _
      (StandsFrom lexemes first) from reads.weaken fun _ start => ⟨start, trivial⟩
  refine placed_start Selection.widens fun start => ?_
  suffices reads : Reads (From lexemes start) _ (StandsFrom lexemes start) from
    reads.weaken fun _ here => here.1
  refine skip fun next => Reads.ite (fun _ => ?_) fun _ => ?_
  · have labelled : Reads (From lexemes start) ident? fun label cursor =>
        From lexemes start cursor ∧
          ∀ ident ∈ label, ident.Stands lexemes id start cursor.index :=
      reads_ident?.imp fun _ _ ⟨here, stands⟩ => ⟨here.lower (Nat.le_succ _), stands⟩
    refine labelled.bind fun label => ?_
    refine (reads_labelled reads_from).bind fun _ => ?_
    exact field_goes nests budget start label
  · exact (field_goes nests budget start none).weaken fun _ here => ⟨here, nofun⟩

private theorem selectionSet_nests (budget : Nat) : Nests lexemes (selectionSet budget) := by
  induction budget with
  | zero =>
    intro first
    unfold selectionSet
    refine skip fun opened => Reads.ite (fun _ => ?_) fun _ =>
      Reads.pure fun _ here => ⟨here, trivial⟩
    exact skip fun _ => Reads.pure fun _ here => ⟨here, trivial⟩
  | succ budget ih =>
    intro first
    unfold selectionSet
    refine Reads.bind (reads_acceptMark '\x7b') fun accepted =>
      Reads.ite (fun opened => ?_) fun refused =>
        Reads.pure fun _ here => ⟨by simpa [refused] using here, trivial⟩
    simp only [opened, if_true]
    refine Reads.bind (someOf_nests ?_ (first + 1)) fun selections => ?_
    · intro first
      refine Reads.peek fun next => Reads.ite (fun spreads => ?_) fun _ => ?_
      · refine (spreading_nests ih budget first).weaken ?_
        rintro cursor ⟨⟨start, -⟩, rfl⟩
        exact ⟨start, rest_ne_nil (by simpa using spreads)⟩
      · exact (field_nests ih budget first).weaken fun cursor ⟨⟨start, _⟩, _⟩ => start
    · refine (reads_keeping (fun last => Selection.AllStand lexemes id (first + 1) last selections)
        (fun _ _ ordered stands => stands.widen (Nat.le_refl _) ordered) reads_from).bind
          fun _ => Reads.pure fun _ ⟨here, stands⟩ => ⟨here.lower (Nat.le_succ _), stands⟩

/-- A definition, if one is read, from `first` on. -/
private abbrev DefinedFrom (lexemes : List Lexeme) (first : Nat) (read : Option Definition)
    (cursor : Cursor) : Prop :=
  Placed (Definition.Stands lexemes id) lexemes first read cursor

/-- An owner that started at `start`, when its selection set behind `opens` was read. -/
private theorem owner_ends {start opens : Nat} (behind : start ≤ opens)
    {read : Option Span → Option Definition} {selections : List Selection}
    {directives : List Directive} (line : InLine (Directive.Lies id) start opens directives)
    (owner : ∀ span stated node, read span = some stated → Node.ofDefinition? stated = some node →
      node.span = span ∧ node.selections? = some selections ∧
        Directed.directives node = directives ∧ ∀ made, node ≠ .field made) :
    Reads (fun cursor => From lexemes opens cursor ∧ start < cursor.index ∧
        Selection.AllStand lexemes id (opens + 1) cursor.index selections)
      (since start >>= fun span => pure (read span)) (DefinedFrom lexemes start) := by
  refine Reads.bind (reads_since start) fun span => Reads.pure ?_
  rintro cursor ⟨⟨here, wide, inside⟩, rfl⟩
  refine ⟨here.lower behind, fun stated same node navigable => ?_⟩
  obtain ⟨spanned, owned, directed, plain⟩ := owner _ stated node same navigable
  refine ⟨start, opens, cursor.index, ⟨spanned, Nat.le_refl _, wide, Nat.le_refl _⟩, behind,
    here.behind, fun made field => absurd field (plain made), directed ▸ line,
    fun others present => ?_⟩
  cases owned.symm.trans present
  exact inside

/-- An owner that started at `start`, from its directives on. -/
private theorem directed_ends (start : Nat) {read : Option Span → List Directive →
      List Selection → Option Definition}
    (owner : ∀ span directives selections stated node, read span directives selections =
      some stated → Node.ofDefinition? stated = some node → node.span = span ∧
        node.selections? = some selections ∧ Directed.directives node = directives ∧
          ∀ made, node ≠ .field made) :
    Reads (From lexemes (start + 1)) (do
        let directives ← directives false nestingLimit
        let selections ← body
        let span ← since start
        return read span directives selections)
      (DefinedFrom lexemes start) := by
  refine (directives_placed false nestingLimit (start + 1)).bind fun directives => ?_
  refine Reads.each (fun origin => From lexemes origin.index)
    fun origin ⟨here, line⟩ => ⟨here.start, ?_⟩
  have begun := here.behind
  have opened : Reads (From lexemes origin.index) body fun selections cursor =>
      From lexemes origin.index cursor ∧ start < cursor.index ∧
        Selection.AllStand lexemes id (origin.index + 1) cursor.index selections := by
    unfold body
    refine skip fun braces => Reads.ite (fun _ => ?_) fun _ => Reads.fault
    exact (selectionSet_nests nestingLimit origin.index).imp fun _ _ ⟨after, stands⟩ =>
      ⟨after, Nat.lt_of_lt_of_le begun after.behind, stands⟩
  exact opened.bind fun selections => owner_ends (Nat.le_of_succ_le begun)
    (line.widen Directive.widens (Nat.le_succ _) (Nat.le_refl _)) fun span stated node =>
      owner span directives selections stated node

private theorem operation_nests (kind : OperationKind) (first : Nat) :
    Reads (fun cursor => From lexemes first cursor ∧ cursor.rest ≠ []) (operation kind)
      (DefinedFrom lexemes first) := by
  simp only [operation]
  refine placed_start Definition.widens fun start => advanced (skip fun named =>
    Reads.ite (fun _ => skip fun name => ?_) fun _ => skip fun name => ?_)
  all_goals
    refine skip fun declared => directed_ends start ?_
    rintro span directives selections _ _ ⟨⟩ ⟨⟩
    exact ⟨rfl, rfl, rfl, nofun⟩

private theorem fragment_nests (first : Nat) :
    Reads (fun cursor => From lexemes first cursor ∧ cursor.rest ≠ []) fragment
      (DefinedFrom lexemes first) := by
  simp only [fragment]
  refine placed_start Definition.widens fun start => advanced (skip fun nameless =>
    Reads.ite (fun _ => Reads.fault) fun _ => skip fun named =>
      Reads.ite (fun _ => skip fun name => ?_) fun _ => Reads.fault)
  refine skip fun onType => directed_ends start ?_
  intro span directives selections stated node same navigable
  obtain ⟨called, -, typed⟩ := Option.bind_eq_some_iff.mp same
  obtain ⟨on, -, rfl⟩ := Option.map_eq_some_iff.mp typed
  cases navigable
  exact ⟨rfl, rfl, rfl, nofun⟩

/-- A selection set that does stand there ends behind its opening brace. -/
private theorem selectionSet_moves (budget first : Nat) :
    Reads (fun cursor => From lexemes first cursor ∧ cursor.rest.head? = some (.mark '\x7b'))
      (selectionSet (budget + 1)) fun _ => From lexemes (first + 1) := by
  unfold selectionSet
  have accepts : Reads (fun cursor => From lexemes first cursor ∧
        cursor.rest.head? = some (.mark '\x7b'))
      (acceptMark '\x7b') fun accepted cursor =>
        accepted = true ∧ From lexemes (first + 1) cursor := by
    intro cursor ⟨start, next⟩ clean
    rw [run_acceptMark, if_pos (by simpa using next)] at clean ⊢
    exact ⟨rfl, reads_advance cursor ⟨start, rest_ne_nil next⟩ clean⟩
  refine accepts.bind fun accepted => Reads.ite (fun _ => ?_) fun refused => ?_
  · exact reads_from.weaken fun cursor start => start.2
  · exact Reads.pure fun cursor start => absurd start.1 refused

private theorem shorthand_nests (first : Nat) :
    Reads (fun cursor => From lexemes first cursor ∧ cursor.rest.head? = some (.mark '\x7b'))
      shorthand (DefinedFrom lexemes first) := by
  simp only [shorthand]
  refine placed_start Definition.widens fun start => ?_
  have opens : Reads (fun cursor => From lexemes start cursor ∧
        cursor.rest.head? = some (.mark '\x7b'))
      (selectionSet nestingLimit) fun selections cursor => From lexemes start cursor ∧
        start < cursor.index ∧
          Selection.AllStand lexemes id (start + 1) cursor.index selections :=
    ((selectionSet_moves 499 start).and
      ((selectionSet_nests nestingLimit start).weaken fun _ starts => starts.1)).imp
        fun _ _ ⟨moved, here, stands⟩ => ⟨here, moved.behind, stands⟩
  have none : InLine (Directive.Lies id) start start [] := trivial
  refine Reads.bind opens fun selections => owner_ends (Nat.le_refl _) none ?_
  rintro span _ _ ⟨⟩ ⟨⟩
  exact ⟨rfl, rfl, rfl, nofun⟩

/-- A definition that is neither an operation nor a fragment. -/
private abbrev Neutral (read : Option Definition) : Prop :=
  ∀ stated, read = some stated → Node.ofDefinition? stated = none

private theorem neutral_nests {step : Reading (Option Definition)} [Passing step]
    (neutral : Reads (From lexemes first) step fun read _ => Neutral read) :
    Reads (From lexemes first) step (DefinedFrom lexemes first) :=
  (reads_from.and neutral).imp fun _ _ ⟨behind, plain⟩ => ⟨behind, fun stated same node navigable =>
    by rw [plain stated same] at navigable; cases navigable⟩

private theorem neutral_some {stated : Definition} (plain : Node.ofDefinition? stated = none) :
    Neutral (some stated) := by
  rintro _ ⟨⟩
  exact plain

private theorem neutral_map {make : α → Definition} (plain : ∀ value,
    Node.ofDefinition? (make value) = none) (read : Option α) : Neutral (read.map make) := by
  intro stated same
  obtain ⟨value, -, rfl⟩ := Option.map_eq_some_iff.mp same
  exact plain value

private theorem directiveDefinition_neutral (description : Option Text) (first : Nat) :
    Reads (From lexemes first) (directiveDefinition description) fun read _ => Neutral read := by
  simp only [directiveDefinition]
  refine skip fun _ => skip fun _ => skip fun name => skip fun arguments => skip fun repeatable =>
    skip fun located => Reads.ite (fun _ => Reads.fault) fun _ => ?_
  exact skip fun _ => skip fun _ => skip fun _ => Reads.pure fun _ _ =>
    neutral_map (fun _ => rfl) name

private theorem schemaDefinition_neutral (description : Option Text) (first : Nat) :
    Reads (From lexemes first) (schemaDefinition description) fun read _ => Neutral read := by
  simp only [schemaDefinition]
  exact skip fun _ => skip fun _ => skip fun _ => Reads.pure fun _ _ => neutral_some rfl

private theorem extension_neutral (first : Nat) :
    Reads (From lexemes first) extension fun read _ => Neutral read := by
  have schema : Reads (From lexemes first) schemaExtension fun read _ => Neutral read := by
    simp only [schemaExtension]
    refine skip fun _ => skip fun _ => skip fun _ => skip fun braces => Reads.ite
      (fun _ => skip fun _ => ?_) fun _ => skip fun _ => ?_
    all_goals
      exact Reads.ite (fun _ => Reads.fault) fun _ => Reads.pure fun _ _ => neutral_some rfl
  have type : ∀ keyword,
      Reads (From lexemes first) (typeExtension keyword) fun read _ => Neutral read := by
    intro keyword
    simp only [typeExtension]
    exact skip fun _ => skip fun _ => skip fun read => Reads.ite (fun _ => Reads.fault) fun _ =>
      Reads.pure fun _ _ => neutral_map (fun _ => rfl) read
  unfold extension
  refine Reads.second fun next => ?_
  split
  · refine Reads.ite (fun _ => schema) fun _ => ?_
    split
    · exact type _
    · exact Reads.fault
  · exact Reads.fault

private theorem definitionOf_nests (described : Bool) (word : Name) (first : Nat) :
    Reads (fun cursor => From lexemes first cursor ∧ cursor.rest ≠ [])
      (definitionOf described word) (DefinedFrom lexemes first) := by
  have here : ∀ {step : Reading (Option Definition)},
      Reads (From lexemes first) step (DefinedFrom lexemes first) →
        Reads (fun cursor => From lexemes first cursor ∧ cursor.rest ≠ []) step
          (DefinedFrom lexemes first) :=
    fun reads => reads.weaken fun _ start => start.1
  unfold definitionOf
  split
  · exact Reads.ite (fun _ => Reads.fault) fun _ => operation_nests _ first
  · refine Reads.ite (fun _ => Reads.ite (fun _ => Reads.fault) fun _ => fragment_nests first)
      fun _ => here ?_
    refine Reads.ite (fun _ => Reads.ite (fun _ => Reads.fault)
      fun _ => neutral_nests (extension_neutral first)) fun _ => ?_
    refine Reads.ite (fun _ => skip fun description =>
      neutral_nests (directiveDefinition_neutral description first)) fun _ => ?_
    refine Reads.ite (fun _ => skip fun description =>
      neutral_nests (schemaDefinition_neutral description first)) fun _ => ?_
    split
    · exact skip fun description => skip fun _ => neutral_nests (skip fun read =>
        Reads.pure fun _ _ => neutral_map (fun _ => rfl) read)
    · exact Reads.fault

private theorem definition_nests (first : Nat) :
    Reads (fun cursor => From lexemes first cursor ∧ cursor.rest ≠ []) definition
      (DefinedFrom lexemes first) := by
  unfold definition
  refine Reads.peek fun next => ?_
  split
  · exact (definitionOf_nests false _ first).weaken fun _ start => start.1
  · refine Reads.second fun word => ?_
    split
    · exact (definitionOf_nests true _ first).weaken fun _ start => start.1
    · exact Reads.fault
  · exact (shorthand_nests first).weaken fun _ both => ⟨both.1.1, both.2⟩
  · exact Reads.fault

/-- The definitions of a document that is read without complaint stand among its lexemes. -/
theorem read_allStand {lexemes : List Lexeme} (clean : (Document.read lexemes).2) :
    Definition.AllStand lexemes id 0 (Document.read lexemes).1.definitions := by
  have reads : Reads (From lexemes 0) document fun read _ =>
      Definition.AllStand lexemes id 0 read.definitions := by
    unfold document
    refine Reads.peek fun next => Reads.ite (fun _ => Reads.fault) fun _ => ?_
    have line : Reads (From lexemes 0) (manyOf (fun _ => true) definition)
        (PlacedAll (Definition.Stands lexemes id) lexemes 0) := by
      refine manyOf_placed Definition.widens (fun first => ?_) 0
      refine (definition_nests first).weaken fun cursor ⟨here, announced⟩ => ⟨here, fun none => ?_⟩
      rw [none] at announced
      cases announced
    refine Reads.bind (line.weaken fun _ start => start.1) fun definitions => Reads.pure ?_
    rintro cursor ⟨here, line⟩
    exact Definition.allStand_iff.mpr (line.widen Definition.widens (Nat.le_refl _) here.within)
  exact reads { rest := lexemes } ⟨Nat.le_refl _, Nat.zero_le _, rfl⟩ clean

end RelayWorkbench.GraphQL.Reading
