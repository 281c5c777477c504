import RelayWorkbench.Proofs.GraphQL.PrintedTypes
import RelayWorkbench.Proofs.GraphQL.ReadingPlaces

/-! The lexemes that a variable is read from. A type that is read without complaint is read from
the lexemes it is printed with, and a variable without a default value and without directives from
those of its name and its type. -/

namespace RelayWorkbench.GraphQL

namespace Reading

-- The instances of long steps are found bind by bind.
set_option synthInstance.maxSize 1000

variable {α β : Type}

/-- From the lexemes in front of it the step comes, if it ends clean, to a result and to lexemes
that are as they should be. -/
def Spends (front : List Lexeme) (step : Reading α) (good : α → List Lexeme → Prop) : Prop :=
  Reads (fun cursor => cursor.rest = front) step fun value cursor => good value cursor.rest

namespace Spends

variable {front : List Lexeme} {good : β → List Lexeme → Prop}

theorem pure {value : β} (holds : good value front) : Spends front (Pure.pure value) good :=
  Reads.pure fun _ starts => starts ▸ holds

theorem bind {first : Reading α} {next : α → Reading β} {between : α → List Lexeme → Prop}
    [∀ value, Passing (next value)] (begins : Spends front first between)
    (goes : ∀ value back, between value back → Spends back (next value) good) :
    Spends front (first >>= next) good :=
  Reads.bind begins fun value cursor holds clean => goes value cursor.rest holds cursor rfl clean

theorem imp {step : Reading β} {weaker : β → List Lexeme → Prop} (spends : Spends front step good)
    (implies : ∀ value back, good value back → weaker value back) : Spends front step weaker :=
  Reads.imp spends fun value cursor => implies value cursor.rest

theorem ite {condition : Prop} [Decidable condition] {first second : Reading β}
    (yes : Spends front first good) (no : Spends front second good) :
    Spends front (if condition then first else second) good :=
  Reads.ite (fun _ => yes) fun _ => no

/-- Nothing is said of what the first step comes to. -/
theorem skip {first : Reading α} {next : α → Reading β} [∀ value, Passing (next value)]
    (goes : ∀ value back, Spends back (next value) good) : Spends front (first >>= next) good := by
  have nothing : Spends front first fun _ _ => True := fun _ _ _ => trivial
  exact nothing.bind fun value back _ => goes value back

theorem peek {next : Option Lexeme → Reading β} (goes : Spends front (next front.head?) good) :
    Spends front (Reading.peek >>= next) good := by
  rintro cursor rfl clean
  exact goes cursor rfl clean

theorem place {next : Nat → Reading β} (goes : ∀ index, Spends front (next index) good) :
    Spends front (Reading.place >>= next) good :=
  fun cursor starts clean => goes cursor.index cursor starts clean

theorem since {start : Nat} {next : Option Span → Reading β}
    (goes : ∀ span, Spends front (next span) good) :
    Spends front (Reading.since start >>= next) good :=
  fun cursor starts clean => goes _ cursor starts clean

theorem atName {next : Bool → Reading β}
    (goes : Spends front (next (front.head?.any isNameLexeme)) good) :
    Spends front (Reading.atName >>= next) good := by
  rintro cursor rfl clean
  exact goes cursor rfl clean

theorem advance {lexeme : Lexeme} {rest : List Lexeme} {next : Unit → Reading β}
    (goes : Spends rest (next ()) good) :
    Spends (lexeme :: rest) (Reading.advance >>= next) good := by
  rintro ⟨_, index, clean⟩ rfl ended
  exact goes ⟨rest, index + 1, clean⟩ rfl ended

theorem fault {next : Unit → Reading β} [∀ value, Passing (next value)] :
    Spends front (Reading.fault >>= next) good := Reads.fault

theorem atMark {char : Char} {next : Bool → Reading β}
    (goes : Spends front (next (front.head? == some (.mark char))) good) :
    Spends front (Reading.atMark char >>= next) good := by
  rintro cursor rfl clean
  exact goes cursor rfl clean

theorem acceptMark {char : Char} {next : Bool → Reading β} [∀ value, Passing (next value)]
    (yes : ∀ rest, front = .mark char :: rest → Spends rest (next true) good)
    (no : front.head? ≠ some (.mark char) → Spends front (next false) good) :
    Spends front (Reading.acceptMark char >>= next) good := by
  have accepts : Spends front (Reading.acceptMark char) fun accepted back =>
      if accepted then front = .mark char :: back
      else front = back ∧ front.head? ≠ some (.mark char) := by
    unfold Reading.acceptMark
    refine atMark ?_
    split
    · next accepted =>
      obtain ⟨rest, rfl⟩ := List.head?_eq_some_iff.mp (by simpa using accepted)
      exact advance (pure rfl)
    · next other => exact pure ⟨rfl, by simpa using other⟩
  refine accepts.bind fun accepted back came => ?_
  cases accepted with
  | true => exact yes back came
  | false =>
    obtain ⟨rfl, other⟩ : front = back ∧ _ := came
    exact no other

theorem expectMark {char : Char} {next : Unit → Reading β} [∀ value, Passing (next value)]
    (goes : ∀ rest, front = .mark char :: rest → Spends rest (next ()) good) :
    Spends front (Reading.expectMark char >>= next) good := by
  have expects : Spends front (Reading.expectMark char) fun _ back =>
      front = .mark char :: back := by
    simp only [Reading.expectMark]
    exact acceptMark (fun rest same => pure same) fun _ _ _ clean => by cases clean
  exact expects.bind fun _ back same => goes back same

theorem name? {next : Option Name → Reading β} [∀ value, Passing (next value)]
    (goes : ∀ name rest, front = .name name :: rest → Spends rest (next (some name)) good) :
    Spends front (Reading.name? >>= next) good := by
  have names : Spends front Reading.name? fun read back =>
      ∃ name, read = some name ∧ front = .name name :: back := by
    unfold Reading.name?
    refine peek ?_
    split
    · next text named =>
      obtain ⟨rest, rfl⟩ := List.head?_eq_some_iff.mp named
      exact advance (pure ⟨text, rfl, rfl⟩)
    · exact fault
  refine names.bind fun read back found => ?_
  obtain ⟨name, rfl, same⟩ := found
  exact goes name back same

end Spends

/-- A type that is nested at most so deep, and the lexemes it is printed with. -/
private def Typed (budget : Nat) (front : List Lexeme) (read : Option TypeRef)
    (back : List Lexeme) : Prop :=
  ∃ type, read = some type ∧ front = type.lexemes ++ back ∧ type.height ≤ budget

private theorem typeWith_spends {item : Reading (Option TypeRef)} [Passing item] {budget : Nat}
    (items : ∀ front, Spends front item fun read back =>
      ∃ inner, read = some inner ∧ front = inner.lexemes ++ back ∧ inner.height < budget)
    (front : List Lexeme) : Spends front (typeWith item) (Typed budget front) := by
  have required : ∀ (type : TypeRef) (back : List Lexeme), front = type.lexemes ++ back →
      type.isRequired = false → type.height ≤ budget →
        Spends back (acceptMark '!' >>= fun accepted =>
          if accepted then return (some type).map TypeRef.require else return some type)
            (Typed budget front) := by
    intro type back same optional low
    refine Spends.acceptMark (fun rest next => Spends.pure ⟨type.require, rfl, ?_, ?_⟩)
      fun _ => Spends.pure ⟨type, rfl, same, low⟩
    · rw [same, next, TypeRef.lexemes_require optional, List.append_assoc, List.singleton_append]
    · rwa [TypeRef.height_require]
  simp only [typeWith]
  refine Spends.peek ?_
  split
  · next text named =>
    obtain ⟨rest, rfl⟩ := List.head?_eq_some_iff.mp named
    exact Spends.advance (required (.named text false) rest rfl rfl (Nat.zero_le _))
  · next opens =>
    obtain ⟨rest, rfl⟩ := List.head?_eq_some_iff.mp opens
    refine Spends.advance ((items rest).bind fun read back found => ?_)
    obtain ⟨inner, rfl, rfl, low⟩ := found
    refine Spends.expectMark fun rest next => ?_
    subst next
    exact required (.list inner false) rest (by simp [TypeRef.lexemes_optional_list]) rfl low
  · exact Spends.fault

/-- A type is read from the lexemes it is printed with. -/
private theorem typeRef_spends (budget : Nat) (front : List Lexeme) :
    Spends front (typeRef budget) (Typed budget front) := by
  induction budget generalizing front with
  | zero => exact typeWith_spends (fun _ _ _ clean => by cases clean) front
  | succ budget ih =>
    refine typeWith_spends (fun front => (ih front).imp ?_) front
    rintro _ back ⟨inner, rfl, same, low⟩
    exact ⟨inner, rfl, same, Nat.lt_succ_of_le low⟩

section Many

variable {announces : Lexeme → Bool} {item : Reading (Option α)} [Passing item]
  {good : List Lexeme → α → List Lexeme → Prop}

/-- Items that are read one after the other, each from the lexemes behind the one before. -/
inductive InTurn (good : List Lexeme → α → List Lexeme → Prop) :
    List Lexeme → List α → List Lexeme → Prop where
  | nil (front : List Lexeme) : InTurn good front [] front
  | cons {front between back : List Lexeme} {value : α} {more : List α}
      (own : good front value between) (others : InTurn good between more back) :
      InTurn good front (value :: more) back

theorem many_spends (items : ∀ front, Spends front item fun read back =>
      ∃ value, read = some value ∧ good front value back) (fuel : Nat) (front : List Lexeme) :
    Spends front (many announces item fuel) (InTurn good front) := by
  induction fuel generalizing front with
  | zero => exact Spends.fault
  | succ fuel ih =>
    unfold many
    refine Spends.peek ?_
    split
    · refine (items front).bind fun read between found => ?_
      obtain ⟨value, rfl, own⟩ := found
      exact (ih between).bind fun more back others => Spends.pure (.cons own others)
    · exact Spends.pure (.nil front)

theorem manyOf_spends (items : ∀ front, Spends front item fun read back =>
      ∃ value, read = some value ∧ good front value back) (front : List Lexeme) :
    Spends front (manyOf announces item) (InTurn good front) :=
  fun cursor => many_spends items (cursor.rest.length + 1) front cursor

theorem someOf_spends (items : ∀ front, Spends front item fun read back =>
      ∃ value, read = some value ∧ good front value back) (front : List Lexeme) :
    Spends front (someOf announces item) (InTurn good front) := by
  simp only [someOf]
  refine Spends.peek ?_
  split
  · exact Spends.fault
  · exact manyOf_spends items front

end Many

private theorem valueWith_spends (constant inside : Bool) (part : Reading (Option Value))
    [Passing part] (front : List Lexeme) :
    Spends front (valueWith constant inside part) fun read _ => ∃ value, read = some value := by
  simp only [valueWith]
  refine Spends.place fun start => Spends.peek ?_
  split
  · exact Spends.skip fun _ _ => Spends.since fun span => Spends.pure ⟨_, rfl⟩
  · have used (back : List Lexeme) : Spends back (name? >>= fun name => since start >>= fun span =>
        return name.map fun name => Value.scalar span (.ofVariable name)) fun read _ =>
          ∃ value, read = some value :=
      Spends.name? fun name rest _ => Spends.since fun span => Spends.pure ⟨_, rfl⟩
    refine Spends.ite (Spends.ite Spends.fault (Spends.skip fun _ => used)) ?_
    refine Spends.ite ?_ (Spends.ite ?_ Spends.fault)
    all_goals exact Spends.skip fun _ _ => Spends.skip fun _ _ => Spends.skip fun _ _ =>
      Spends.since fun span => Spends.pure ⟨_, rfl⟩

private theorem defaultValue_spends (front : List Lexeme) :
    Spends front defaultValue fun read back => read = none → back = front := by
  simp only [defaultValue]
  refine Spends.acceptMark (fun rest _ => ?_) fun _ => Spends.pure fun _ => rfl
  refine (valueWith_spends true false _ rest).imp ?_
  rintro _ back ⟨value, rfl⟩ ⟨⟩

private theorem directive_spends (constant : Bool) (budget : Nat) (front : List Lexeme) :
    Spends front (directive constant budget) fun read _ => ∃ value, read = some value ∧ True := by
  simp only [directive]
  refine Spends.place fun start => Spends.skip fun _ back => Spends.name? fun name rest _ => ?_
  exact Spends.skip fun _ _ => Spends.since fun span => Spends.pure ⟨_, rfl, trivial⟩

private theorem directives_spends (constant : Bool) (budget : Nat) (front : List Lexeme) :
    Spends front (directives constant budget) fun read back => read = [] → back = front := by
  have turns : Spends front (directives constant budget) (InTurn (fun _ _ _ => True) front) :=
    manyOf_spends (directive_spends constant budget) front
  refine turns.imp ?_
  rintro _ back inTurn rfl
  cases inTurn
  rfl

/-- A variable with its lexemes, if it has neither a default value nor directives. -/
private def Declares (front : List Lexeme) (declared : VariableDefinition)
    (back : List Lexeme) : Prop :=
  declared.type.height ≤ nestingLimit ∧ (declared.default = none → declared.directives = [] →
    front = .mark '$' :: .name declared.name :: .mark ':' :: (declared.type.lexemes ++ back))

private theorem variableDefinition_spends (front : List Lexeme) :
    Spends front variableDefinition fun read back =>
      ∃ declared, read = some declared ∧ Declares front declared back := by
  simp only [variableDefinition]
  refine Spends.expectMark fun rest begins => Spends.name? fun name rest named => ?_
  refine Spends.acceptMark (fun rest typed => ?_) fun _ => Spends.fault
  refine Spends.peek ?_
  split
  · refine (typeRef_spends nestingLimit rest).bind fun read between found => ?_
    obtain ⟨type, rfl, written, low⟩ := found
    refine (defaultValue_spends between).bind fun default behind none => ?_
    refine (directives_spends true nestingLimit behind).bind fun directives back plain => ?_
    refine Spends.pure ⟨_, rfl, low, fun noDefault noDirectives => ?_⟩
    rw [begins, named, typed, written, plain noDirectives, none noDefault]
  · exact Spends.fault

private theorem operation_spends (kind : OperationKind) (keyword : Lexeme) (front : List Lexeme) :
    Spends (keyword :: .mark '(' :: front) (operation kind) fun read _ =>
      ∃ stated more, read = some (.operation stated) ∧
        InTurn Declares front stated.variableDefinitions (.mark ')' :: more) := by
  have declares : Spends (.mark '(' :: front) variableDefinitions fun read _ =>
      ∃ more, InTurn Declares front read (.mark ')' :: more) := by
    unfold variableDefinitions
    refine Spends.acceptMark (fun rest opens => ?_) fun other => absurd rfl other
    cases opens
    refine (someOf_spends variableDefinition_spends front).bind fun read back inTurn => ?_
    exact Spends.expectMark fun rest closes => Spends.pure ⟨rest, closes ▸ inTurn⟩
  have unnamed : ((Lexeme.mark '(' :: front).head?.any isNameLexeme) = false := rfl
  simp only [operation]
  refine Spends.place fun start => Spends.advance (Spends.atName ?_)
  rw [unnamed, if_neg Bool.false_ne_true, pure_bind]
  refine declares.bind fun read back found => ?_
  obtain ⟨more, inTurn⟩ := found
  exact Spends.skip fun _ _ => Spends.skip fun _ _ => Spends.since fun span =>
    Spends.pure ⟨_, more, rfl, inTurn⟩

private theorem document_spends (kind : OperationKind) (front : List Lexeme) :
    Spends (.name kind.keyword :: .mark '(' :: front) document fun read _ =>
      ∀ stated, read.definitions = [.operation stated] →
        ∃ more, InTurn Declares front stated.variableDefinitions (.mark ')' :: more) := by
  have known : OperationKind.ofKeyword? kind.keyword = some kind := by
    cases kind <;> decide
  have first : Spends (.name kind.keyword :: .mark '(' :: front) definition fun read _ =>
      ∃ stated more, read = some (.operation stated) ∧
        InTurn Declares front stated.variableDefinitions (.mark ')' :: more) := by
    unfold definition
    refine Spends.peek ?_
    simp only [List.head?_cons, definitionOf, known, Bool.false_eq_true, if_false]
    exact operation_spends kind _ front
  have begins (fuel : Nat) : Spends (.name kind.keyword :: .mark '(' :: front)
      (many (fun _ => true) definition (fuel + 1)) fun read _ =>
        ∀ stated, read = [.operation stated] →
          ∃ more, InTurn Declares front stated.variableDefinitions (.mark ')' :: more) := by
    unfold many
    refine Spends.peek (Spends.ite ?_ ?_)
    · refine first.bind fun read back found => Spends.skip fun others _ => Spends.pure ?_
      obtain ⟨stated, more, rfl, inTurn⟩ := found
      rintro only same
      cases same
      exact ⟨more, inTurn⟩
    · exact Spends.pure nofun
  simp only [document]
  refine Spends.peek (Spends.ite Spends.fault ?_)
  have all : Spends (.name kind.keyword :: .mark '(' :: front)
      (manyOf (fun _ => true) definition) fun read _ =>
        ∀ stated, read = [.operation stated] →
          ∃ more, InTurn Declares front stated.variableDefinitions (.mark ')' :: more) :=
    fun cursor => begins cursor.rest.length cursor
  exact all.bind fun read back holds => Spends.pure holds

/-- Where nothing but an operation is read that declares a single variable, plain and without a
complaint, the lexemes of that variable stand between the parentheses. -/
theorem lexemes_of_read {kind : OperationKind} {front : List Lexeme} {document : Document}
    (read : Document.read (.name kind.keyword :: .mark '(' :: front) = (document, true))
    {stated : Operation} (only : document.definitions = [.operation stated])
    {declared : VariableDefinition} (alone : stated.variableDefinitions = [declared])
    (noDefault : declared.default = none) (noDirectives : declared.directives = []) :
    declared.type.height ≤ nestingLimit ∧
      ∃ more, front = .mark '$' :: .name declared.name :: .mark ':' ::
        (declared.type.lexemes ++ .mark ')' :: more) := by
  obtain rfl : (Document.read (.name kind.keyword :: .mark '(' :: front)).1 = document :=
    congrArg Prod.fst read
  obtain ⟨more, inTurn⟩ :=
    document_spends kind front { rest := _ } rfl (congrArg Prod.snd read) stated only
  rw [alone] at inTurn
  cases inTurn with
  | cons own others =>
    cases others
    exact ⟨own.1, more, own.2 noDefault noDirectives⟩

end Reading

end RelayWorkbench.GraphQL
