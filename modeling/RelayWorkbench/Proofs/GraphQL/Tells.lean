import RelayWorkbench.Proofs.GraphQL.Passing

/-! What steps of reading tell of what they read, as far as it follows from the lexemes that are
still to be read. It holds whether or not they complain. -/

namespace RelayWorkbench.GraphQL.Reading

-- The instances of long steps are found bind by bind.
set_option synthInstance.maxSize 1000

variable {α β : Type} {fine : Lexeme → Prop}

/-- What a step reads where all lexemes still to be read are fine. -/
def Tells (fine : Lexeme → Prop) (step : Reading α) (good : α → Prop) : Prop :=
  ∀ cursor : Cursor, (∀ lexeme ∈ cursor.rest, fine lexeme) → good (step.run cursor).1

namespace Tells

variable {good : α → Prop} {better : β → Prop}

theorem bind {first : Reading α} {next : α → Reading β} [Passing first]
    (tells : Tells fine first good) (goes : ∀ value, good value → Tells fine (next value) better) :
    Tells fine (first >>= next) better := by
  intro cursor all
  have ahead : ∀ lexeme ∈ (first.run cursor).2.rest, fine lexeme := fun lexeme member =>
    all lexeme ((Passing.passes cursor).ahead.subset member)
  exact goes _ (tells cursor all) _ ahead

theorem skip {first : Reading α} {next : α → Reading β} [Passing first]
    (goes : ∀ value, Tells fine (next value) better) : Tells fine (first >>= next) better := by
  have nothing : Tells fine first fun _ => True := fun _ _ => trivial
  exact nothing.bind fun value _ => goes value

theorem pure {value : α} (holds : good value) : Tells fine (Pure.pure value) good :=
  fun _ _ => holds

theorem map {step : Reading α} {f : α → β} (tells : Tells fine step fun value => better (f value)) :
    Tells fine (f <$> step) better := tells

theorem ite {condition : Prop} [Decidable condition] {first second : Reading α}
    (yes : Tells fine first good) (no : Tells fine second good) :
    Tells fine (if condition then first else second) good := by
  split
  · exact yes
  · exact no

theorem either {condition : Prop} [Decidable condition] {first second : Reading α}
    {next : α → Reading β} [Passing first] [Passing second]
    (goes : ∀ value, Tells fine (next value) better) :
    Tells fine (if condition then first >>= next else second >>= next) better :=
  ite (skip goes) (skip goes)

theorem complain {condition : Prop} [Decidable condition] {next : PUnit → Reading β}
    (goes : Tells fine (next ()) better) :
    Tells fine (if condition then fault >>= next else next ()) better :=
  ite (skip fun _ => goes) goes

theorem peek {next : Option Lexeme → Reading β}
    (goes : ∀ lexeme, (∀ present ∈ lexeme, fine present) → Tells fine (next lexeme) better) :
    Tells fine (Reading.peek >>= next) better := by
  intro cursor all
  refine goes cursor.rest.head? ?_ cursor all
  exact fun present here => all present (List.mem_of_head? here)

theorem imp {step : Reading α} {weaker : α → Prop} (tells : Tells fine step good)
    (implies : ∀ value, good value → weaker value) : Tells fine step weaker :=
  fun cursor all => implies _ (tells cursor all)

end Tells

/-- What is read is good, if anything is read. -/
abbrev Any (good : α → Prop) (read : Option α) : Prop := ∀ value ∈ read, good value

/-- All that is read is good. -/
abbrev All (good : α → Prop) (read : List α) : Prop := ∀ value ∈ read, good value

theorem any_none {good : α → Prop} : Any good none := by
  rintro _ ⟨⟩

theorem any_some {good : α → Prop} {value : α} (holds : good value) :
    Any good (some value) := by
  rintro _ ⟨⟩
  exact holds

theorem any_map {good : α → Prop} {better : β → Prop} {read : Option α} {f : α → β}
    (own : Any good read) (goes : ∀ value, good value → better (f value)) :
    Any better (read.map f) := by
  intro value same
  obtain ⟨former, present, rfl⟩ := Option.map_eq_some_iff.mp same
  exact goes former (own former present)

theorem all_nil {good : α → Prop} : All good [] := List.forall_mem_nil _

theorem all_append {good : α → Prop} {first : Option α} {more : List α}
    (own : Any good first) (others : All good more) : All good (first.toList ++ more) := by
  refine List.forall_mem_append.mpr ⟨fun value member => ?_, others⟩
  exact own value (Option.mem_toList.mp member)

theorem tells_fault {good : α → Prop} :
    Tells fine (do fault; return none) (Any good) :=
  Tells.skip fun _ => Tells.pure any_none

theorem tells_many {announces : Lexeme → Bool} {item : Reading (Option α)} [Passing item]
    {good : α → Prop} (tells : Tells fine item (Any good)) (fuel : Nat) :
    Tells fine (many announces item fuel) (All good) := by
  induction fuel with
  | zero =>
    unfold many
    exact Tells.skip fun _ => Tells.pure all_nil
  | succ fuel ih =>
    unfold many
    refine Tells.skip fun next => Tells.ite ?_ (Tells.pure all_nil)
    exact tells.bind fun first own => ih.bind fun more others => Tells.pure (all_append own others)

theorem tells_manyOf {announces : Lexeme → Bool} {item : Reading (Option α)} [Passing item]
    {good : α → Prop} (tells : Tells fine item (Any good)) :
    Tells fine (manyOf announces item) (All good) :=
  fun cursor => tells_many tells (cursor.rest.length + 1) cursor

theorem tells_someOf {announces : Lexeme → Bool} {item : Reading (Option α)} [Passing item]
    {good : α → Prop} (tells : Tells fine item (Any good)) :
    Tells fine (someOf announces item) (All good) := by
  unfold someOf
  exact Tells.skip fun _ => Tells.complain (tells_manyOf tells)

theorem tells_tooDeep {good : α → Prop} : Tells fine tooDeep (Any good) :=
  Tells.skip fun _ => Tells.pure any_none

theorem any_both {good : α → Prop} {other : β → Prop} {γ : Type} {better : γ → Prop}
    {first : Option α} {second : Option β} {f : α → β → γ} (own : Any good first)
    (more : Any other second)
    (goes : ∀ value also, good value → other also → better (f value also)) :
    Any better (first.bind fun value => second.map (f value)) := by
  intro _ same
  obtain ⟨value, present, same⟩ := Option.bind_eq_some_iff.mp same
  obtain ⟨also, given, rfl⟩ := Option.map_eq_some_iff.mp same
  exact goes value also (own value present) (more also given)

/-- What a step reads behind a colon, if one comes next. -/
theorem tells_colon {part : Reading (Option α)} [Passing part] {good : α → Prop}
    (tells : Tells fine part (Any good)) {next : Option α → Reading β} {better : β → Prop}
    (goes : ∀ read, Any good read → Tells fine (next read) better) :
    Tells fine (acceptMark ':' >>= fun accepted =>
      if accepted then part >>= next else pure none >>= next) better :=
  Tells.skip fun _ => Tells.ite (tells.bind goes) ((Tells.pure any_none).bind goes)

theorem tells_if {condition : Bool} {part : Reading α} [Passing part] {none : α}
    {good : α → Prop} (tells : Tells fine part good) (empty : good none) {next : α → Reading β}
    {better : β → Prop} (goes : ∀ read, good read → Tells fine (next read) better) :
    Tells fine (if condition then part >>= next else pure none >>= next) better :=
  Tells.ite (tells.bind goes) ((Tells.pure empty).bind goes)

theorem tells_typed {fits : TypeRef → Prop}
    (tells : Tells fine (typeRef nestingLimit) (Any fits))
    {next : Option TypeRef → Reading (Option α)} {good : α → Prop}
    (goes : ∀ type, Any fits type → Tells fine (next type) (Any good)) :
    Tells fine (acceptMark ':' >>= fun accepted =>
      if accepted then peek >>= fun lexeme =>
        if lexeme.any startsType then typeRef nestingLimit >>= next
        else fault >>= fun _ => pure none
      else fault >>= fun _ => pure none) (Any good) :=
  Tells.skip fun _ => Tells.ite (Tells.skip fun _ => Tells.ite (tells.bind goes) tells_fault)
    tells_fault

theorem tells_optionalMembers {member : Reading (Option α)} [Passing member]
    {good : α → Prop} (tells : Tells fine member (Any good)) :
    Tells fine (optionalMembers member) (All good) := by
  unfold optionalMembers members
  refine Tells.skip fun _ => Tells.ite (Tells.skip fun _ => ?_) (Tells.pure all_nil)
  exact (tells_someOf tells).bind fun read sound => Tells.skip fun _ => Tells.pure sound

theorem tells_unexpected {good : Definition → Prop} : Tells fine unexpected (Any good) :=
  Tells.skip fun _ => Tells.skip fun _ => Tells.pure any_none

end RelayWorkbench.GraphQL.Reading
