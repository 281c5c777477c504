import RelayWorkbench.Proofs.GraphQL.Passing

/-! What steps of reading establish. A step is held to what it establishes only where everything
is clean at its end, and then it was clean before, too. -/

namespace RelayWorkbench.GraphQL.Reading

variable {α β : Type}

/-- From a cursor with the one property the step ends, if it ends clean, with the other. -/
def Reads (before : Cursor → Prop) (step : Reading α) (after : α → Cursor → Prop) : Prop :=
  ∀ cursor, before cursor → (step.run cursor).2.clean →
    after (step.run cursor).1 (step.run cursor).2

namespace Reads

variable {before : Cursor → Prop} {after : β → Cursor → Prop}

theorem pure {value : β} (holds : ∀ cursor, before cursor → after value cursor) :
    Reads before (Pure.pure value) after :=
  fun cursor start _ => holds cursor start

theorem bind {first : Reading α} {next : α → Reading β} {between : α → Cursor → Prop}
    [∀ value, Passing (next value)] (begins : Reads before first between)
    (goes : ∀ value, Reads (between value) (next value) after) :
    Reads before (first >>= next) after := by
  intro cursor start clean
  have passes : Cursor.Passes _ ((next (first.run cursor).1).run (first.run cursor).2).2 :=
    Passing.passes _
  exact goes _ _ (begins cursor start (passes.clean clean)) clean

theorem ite {condition : Prop} [Decidable condition] {first second : Reading β}
    (yes : condition → Reads before first after) (no : ¬ condition → Reads before second after) :
    Reads before (if condition then first else second) after := by
  split
  · next holds => exact yes holds
  · next fails => exact no fails

theorem weaken {start : Cursor → Prop} {step : Reading β} (reads : Reads before step after)
    (weaker : ∀ cursor, start cursor → before cursor) : Reads start step after :=
  fun cursor starts clean => reads cursor (weaker cursor starts) clean

theorem imp {step : Reading β} {goal : β → Cursor → Prop} (reads : Reads before step after)
    (implies : ∀ value cursor, after value cursor → goal value cursor) : Reads before step goal :=
  fun cursor starts clean => implies _ _ (reads cursor starts clean)

theorem and {step : Reading β} {also : β → Cursor → Prop} (reads : Reads before step after)
    (other : Reads before step also) :
    Reads before step fun value cursor => after value cursor ∧ also value cursor :=
  fun cursor starts clean => ⟨reads cursor starts clean, other cursor starts clean⟩

theorem each (start : Cursor → Cursor → Prop) {step : Reading β}
    (reads : ∀ origin, before origin → start origin origin ∧ Reads (start origin) step after) :
    Reads before step after :=
  fun cursor starts clean => (reads cursor starts).2 cursor (reads cursor starts).1 clean

theorem peek {next : Option Lexeme → Reading β}
    (goes : ∀ lexeme, Reads (fun cursor => before cursor ∧ cursor.rest.head? = lexeme)
      (next lexeme) after) : Reads before (Reading.peek >>= next) after :=
  fun cursor starts clean => goes _ cursor ⟨starts, rfl⟩ clean

theorem second {next : Option Lexeme → Reading β}
    (goes : ∀ lexeme, Reads before (next lexeme) after) :
    Reads before (Reading.second >>= next) after :=
  fun cursor starts clean => goes _ cursor starts clean

theorem place {next : Nat → Reading β}
    (goes : ∀ start,
      Reads (fun cursor => before cursor ∧ cursor.index = start) (next start) after) :
    Reads before (Reading.place >>= next) after :=
  fun cursor starts clean => goes _ cursor ⟨starts, rfl⟩ clean

theorem fault {next : Unit → Reading β} [∀ value, Passing (next value)] :
    Reads before (Reading.fault >>= next) after := by
  have never : Reads before Reading.fault fun _ _ => False := fun _ _ clean => by cases clean
  refine never.bind fun _ => ?_
  exact fun cursor impossible _ => impossible.elim

end Reads

end RelayWorkbench.GraphQL.Reading
