import RelayWorkbench.Proofs.GraphQL.Content

/-! What steps of reading take from the lexemes in front of them, without a complaint. -/

namespace RelayWorkbench.GraphQL.Reading

variable {α β : Type}

/-- From the lexemes in front of it the step comes to those behind, with a result as it should be,
and complains about nothing. -/
def Takes (front back : List Lexeme) (step : Reading α) (good : α → Prop) : Prop :=
  ∀ cursor : Cursor, cursor.rest = front →
    good (step.run cursor).1 ∧ (step.run cursor).2.rest = back ∧
      (step.run cursor).2.clean = cursor.clean

namespace Takes

variable {front between back : List Lexeme} {good : α → Prop} {better : β → Prop}

theorem bind {first : Reading α} {next : α → Reading β} (takes : Takes front between first good)
    (goes : ∀ value, good value → Takes between back (next value) better) :
    Takes front back (first >>= next) better := by
  intro cursor starts
  obtain ⟨holds, reached, clean⟩ := takes cursor starts
  obtain ⟨better, ends, still⟩ := goes _ holds _ reached
  exact ⟨better, ends, still.trans clean⟩

theorem next {first : Reading α} {next : α → Reading β} {value : α}
    (takes : Takes front between first (· = value))
    (goes : Takes between back (next value) better) : Takes front back (first >>= next) better :=
  takes.bind fun _ same => same ▸ goes

theorem pure {value : α} (holds : good value) : Takes front front (Pure.pure value) good :=
  fun _ starts => ⟨holds, starts, rfl⟩

theorem imp {step : Reading α} {weaker : α → Prop} (takes : Takes front back step good)
    (implies : ∀ value, good value → weaker value) : Takes front back step weaker :=
  fun cursor starts => (takes cursor starts).imp_left (implies _)

theorem peek {next : Option Lexeme → Reading β}
    (goes : Takes front back (next front.head?) better) :
    Takes front back (Reading.peek >>= next) better := by
  intro cursor starts
  subst starts
  exact goes cursor rfl

theorem second {next : Option Lexeme → Reading β}
    (goes : Takes front back (next front[1]?) better) :
    Takes front back (Reading.second >>= next) better := by
  intro cursor starts
  subst starts
  exact goes cursor rfl

theorem place {next : Nat → Reading β} (goes : ∀ index, Takes front back (next index) better) :
    Takes front back (Reading.place >>= next) better :=
  fun cursor starts => goes cursor.index cursor starts

theorem since {start : Nat} {next : Option Span → Reading β}
    (goes : ∀ span, Takes front back (next span) better) :
    Takes front back (Reading.since start >>= next) better :=
  fun cursor starts => goes _ cursor starts

theorem advance {lexeme : Lexeme} {rest : List Lexeme} {next : Unit → Reading β}
    (goes : Takes rest back (next ()) better) :
    Takes (lexeme :: rest) back (Reading.advance >>= next) better := by
  rintro ⟨_, index, clean⟩ rfl
  exact goes ⟨rest, index + 1, clean⟩ rfl

theorem atMark {char : Char} {next : Bool → Reading β}
    (goes : Takes front back (next (front.head? == some (.mark char))) better) :
    Takes front back (Reading.atMark char >>= next) better := by
  intro cursor starts
  subst starts
  exact goes cursor rfl

theorem atWord {word : Name} {next : Bool → Reading β}
    (goes : Takes front back (next (front.head? == some (.name word))) better) :
    Takes front back (Reading.atWord word >>= next) better := by
  intro cursor starts
  subst starts
  exact goes cursor rfl

theorem atName {next : Bool → Reading β}
    (goes : Takes front back (next (front.head?.any isNameLexeme)) better) :
    Takes front back (Reading.atName >>= next) better := by
  intro cursor starts
  subst starts
  exact goes cursor rfl

theorem acceptWord {word : Name} {rest : List Lexeme} {next : Bool → Reading β}
    (goes : Takes rest back (next true) better) :
    Takes (.name word :: rest) back (Reading.acceptWord word >>= next) better := by
  have accepts : Takes (.name word :: rest) rest (Reading.acceptWord word) (· = true) := by
    unfold Reading.acceptWord
    refine atWord ?_
    simp only [List.head?_cons, beq_self_eq_true, if_true]
    exact advance (pure rfl)
  exact accepts.next goes

theorem acceptMark {char : Char} {rest : List Lexeme} {next : Bool → Reading β}
    (goes : Takes rest back (next true) better) :
    Takes (.mark char :: rest) back (Reading.acceptMark char >>= next) better := by
  have accepts : Takes (.mark char :: rest) rest (Reading.acceptMark char) (· = true) := by
    unfold Reading.acceptMark
    refine atMark ?_
    simp only [List.head?_cons, beq_self_eq_true, if_true]
    exact advance (pure rfl)
  exact accepts.next goes

theorem acceptMark_of_ne {char : Char} {next : Bool → Reading β}
    (other : front.head? ≠ some (.mark char)) (goes : Takes front back (next false) better) :
    Takes front back (Reading.acceptMark char >>= next) better := by
  have passes : Takes front front (Reading.acceptMark char) (· = false) := by
    unfold Reading.acceptMark
    refine atMark ?_
    rw [if_neg (by simpa using other)]
    exact pure rfl
  exact passes.next goes

theorem expectMark {char : Char} {rest : List Lexeme} {next : Unit → Reading β}
    (goes : Takes rest back (next ()) better) :
    Takes (.mark char :: rest) back (Reading.expectMark char >>= next) better := by
  have expects : Takes (.mark char :: rest) rest (Reading.expectMark char) fun _ => True := by
    simp only [Reading.expectMark]
    exact acceptMark (pure trivial)
  exact expects.bind fun _ _ => goes

theorem name? {name : Name} {rest : List Lexeme} {next : Option Name → Reading β}
    (goes : Takes rest back (next (some name)) better) :
    Takes (.name name :: rest) back (Reading.name? >>= next) better := by
  have names : Takes (.name name :: rest) rest Reading.name? (· = some name) := by
    unfold Reading.name?
    exact peek (advance (pure rfl))
  exact names.next goes

end Takes

section Lists

variable {item : Type} {announces : Lexeme → Bool} {reads : Reading (Option α)}
  {write : item → List Lexeme} {good : item → α → Prop} {items : List item} {back : List Lexeme}
  (announced : ∀ each rest, (write each ++ rest).head?.any announces)
  (ends : back.head?.any announces = false)
  (takes : ∀ each ∈ items, ∀ rest, rest = back ∨ rest.head?.any announces →
    Takes (write each ++ rest) rest reads fun read => ∃ value ∈ read, good each value)
include announced ends takes

private theorem takes_many {fuel : Nat} (enough : items.length < fuel) :
    Takes (items.flatMap write ++ back) back (many announces reads fuel)
      (List.Forall₂ good items) := by
  induction items generalizing fuel with
  | nil =>
    obtain ⟨fuel, rfl⟩ : ∃ less, fuel = less + 1 := ⟨fuel - 1, by simp at enough; omega⟩
    unfold many
    refine Takes.peek ?_
    rw [if_neg (by simpa using ends)]
    exact Takes.pure .nil
  | cons first rest ih =>
    obtain ⟨fuel, rfl⟩ : ∃ less, fuel = less + 1 := ⟨fuel - 1, by simp at enough; omega⟩
    obtain ⟨own, later⟩ := List.forall_mem_cons.mp takes
    rw [List.flatMap_cons, List.append_assoc]
    have behind : rest.flatMap write ++ back = back ∨
        (rest.flatMap write ++ back).head?.any announces := by
      cases rest with
      | nil => exact .inl rfl
      | cons second rest =>
        rw [List.flatMap_cons, List.append_assoc]
        exact .inr (announced second _)
    unfold many
    refine Takes.peek ?_
    rw [if_pos (announced first _)]
    refine (own _ behind).bind fun read => ?_
    rintro ⟨value, rfl, holds⟩
    exact (ih later (by simpa using enough)).bind fun more others => Takes.pure (.cons holds others)

/-- Items are read one after the other, up to what announces none. -/
theorem takes_manyOf : Takes (items.flatMap write ++ back) back (manyOf announces reads)
    (List.Forall₂ good items) := by
  intro cursor starts
  have long : items.length < cursor.rest.length + 1 := by
    have written : ∀ each, 1 ≤ (write each).length := by
      intro each
      refine List.length_pos_iff.mpr fun empty => ?_
      have := announced each []
      simp [empty] at this
    have sum := List.length_le_sum_of_one_le (items.map fun each => (write each).length)
      (List.forall_mem_map.mpr fun each _ => written each)
    rw [List.length_map] at sum
    rw [starts, List.length_append, List.length_flatMap]
    omega
  exact takes_many announced ends takes long cursor starts

theorem takes_someOf (some : items ≠ []) :
    Takes (items.flatMap write ++ back) back (someOf announces reads)
      (List.Forall₂ good items) := by
  have starts : ((items.flatMap write ++ back).head?.any announces) := by
    obtain ⟨first, rest, rfl⟩ := List.exists_cons_of_ne_nil some
    rw [List.flatMap_cons, List.append_assoc]
    exact announced first _
  simp only [someOf]
  refine Takes.peek ?_
  rw [if_neg (by rw [starts]; decide)]
  exact takes_manyOf announced ends takes

end Lists

theorem takes_manyOf_nil {announces : Lexeme → Bool} {reads : Reading (Option α)}
    {back : List Lexeme} (ends : back.head?.any announces = false) :
    Takes back back (manyOf announces reads) (· = []) := by
  have none : Takes (List.flatMap (nofun : Empty → List Lexeme) [] ++ back) back
      (manyOf announces reads) (List.Forall₂ (nofun : Empty → α → Prop) []) :=
    takes_manyOf nofun ends nofun
  exact none.imp fun _ empty => List.forall₂_nil_left_iff.mp empty

/-- Lexemes of one definition are a document. -/
theorem read_single {front : List Lexeme} {good : Definition → Prop} (written : front ≠ [])
    (takes : ∀ back, Takes (front ++ back) back definition fun read => ∃ value ∈ read, good value) :
    ∃ stated, Document.read front = (⟨[stated]⟩, true) ∧ good stated := by
  have announced : ∀ (_ : Unit) (rest : List Lexeme), (front ++ rest).head?.any fun _ => true := by
    intro _ rest
    obtain ⟨first, more, rfl⟩ := List.exists_cons_of_ne_nil written
    rfl
  have all : Takes front [] document fun read => ∃ stated, read = ⟨[stated]⟩ ∧ good stated := by
    unfold document
    refine Takes.peek ?_
    rw [if_neg (by simp [List.head?_eq_none_iff, written])]
    have items : Takes ([()].flatMap (fun _ => front) ++ []) [] (manyOf (fun _ => true) definition)
        (List.Forall₂ (fun _ => good) [()]) :=
      takes_manyOf announced rfl fun _ _ rest _ => takes rest
    rw [List.flatMap_singleton, List.append_nil] at items
    refine items.bind fun read holds => Takes.pure ?_
    cases holds with
    | cons first none =>
      cases none
      exact ⟨_, rfl, first⟩
  obtain ⟨⟨stated, same, holds⟩, -, clean⟩ := all { rest := front } rfl
  exact ⟨stated, Prod.ext same clean, holds⟩

end RelayWorkbench.GraphQL.Reading

namespace RelayWorkbench.GraphQL.Document

/-- A text of the lexemes of one definition is a document. -/
theorem exists_parse?_of_takes {text : Text} {front : List Lexeme} {good : Definition → Prop}
    (said : Lexeme.content text = front.map .lexeme) (written : front ≠ [])
    (takes : ∀ back, Reading.Takes (front ++ back) back Reading.definition
      fun read => ∃ value ∈ read, good value) :
    ∃ stated move, parse? text = some ⟨[stated.respan move]⟩ ∧ good stated := by
  obtain ⟨stated, reads, holds⟩ := Reading.read_single written takes
  have sound : (front.map Lexeme.Piece.lexeme).all (· != .fault) := by
    simp
  refine ⟨stated, locate (lexemeSpans text).toArray, ?_, holds⟩
  rw [parse?_eq, said, ofContent?, lexemesOf_map, reads]
  simp [sound, respan]

end RelayWorkbench.GraphQL.Document
