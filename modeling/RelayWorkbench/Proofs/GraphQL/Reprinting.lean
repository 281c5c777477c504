import RelayWorkbench.Proofs.GraphQL.Indentation
import RelayWorkbench.Proofs.GraphQL.NeatPrinting
import RelayWorkbench.Proofs.GraphQL.ReadingLeaves
import RelayWorkbench.Proofs.GraphQL.ReadingLocations
import RelayWorkbench.Proofs.GraphQL.Respanning
import RelayWorkbench.Proofs.GraphQL.SpanlessPrinting

/-! Printing a document that was read from a text. What is printed depends on the content of the
text alone, and it is neat. -/

namespace RelayWorkbench.GraphQL

open Lexeme

/-- The content of a document without comments is nothing but lexemes. -/
theorem Lexeme.exists_lexeme_of_parse? {text : Text} {document : Document}
    (parsed : Document.parse? text = some document) (plain : hasComments text = false) :
    ∀ piece ∈ content text, ∃ lexeme, piece = .lexeme lexeme := by
  rw [Document.parse?_eq] at parsed
  obtain ⟨unplaced, read, -⟩ := Option.map_eq_some_iff.mp parsed
  have sound : (content text).all (· != .fault) := by
    simp only [Document.ofContent?] at read
    split at read
    · next clean => exact (Bool.and_eq_true_iff.mp clean).2
    · cases read
  intro piece member
  cases piece with
  | lexeme lexeme => exact ⟨lexeme, rfl⟩
  | fault => simpa using List.all_eq_true.mp sound _ member
  | ignored => simp [content] at member
  | comment written =>
    rw [Document.hasComments_eq, List.any_eq_false] at plain
    exact absurd rfl (plain _ member)

namespace Document

variable {text : Text} {document : Document}

/-- Texts of the same content are the same document but for its spans. -/
theorem parse?_of_content_eq {other : Text} (same : content other = content text)
    (parsed : parse? text = some document) :
    ∃ read, parse? other = some read ∧ read.erase = document.erase := by
  rw [parse?_eq] at parsed
  obtain ⟨unplaced, read, rfl⟩ := Option.map_eq_some_iff.mp parsed
  refine ⟨unplaced.respan (locate (lexemeSpans other).toArray), ?_, ?_⟩
  · rw [parse?_eq, same, read]
    rfl
  · rw [erase_respan, erase_respan]

private theorem isLocated_respan (move : Respan) (stated : Definition) :
    (stated.respan move).isLocated = stated.isLocated := by
  cases stated <;> rfl

/-- What holds of the lexemes of a text holds of the leaves of what can be read of it. -/
theorem forall_leaves_recover {good : Lexeme → Prop} {text : Text}
    (all : ∀ lexeme, .lexeme lexeme ∈ content text → good lexeme) :
    ∀ leaf ∈ (recover text).leaves, good leaf := by
  rw [recover_eq, leaves_respan]
  exact Reading.read_leaves fun lexeme member => all lexeme (mem_lexemesOf.mp member)

/-- The leaves of what can be read of a text are words or strings. -/
theorem leaves_recover (text : Text) : ∀ leaf ∈ (recover text).leaves, leaf.Worded :=
  forall_leaves_recover fun _ => worded_of_mem

private theorem read_of_parse? (parsed : parse? text = some document) :
    document = recover text ∧ (read (lexemesOf (content text))).2 := by
  rw [parse?_eq] at parsed
  obtain ⟨unplaced, read, rfl⟩ := Option.map_eq_some_iff.mp parsed
  simp only [ofContent?] at read
  split at read
  · next clean =>
    cases read
    exact ⟨(recover_eq text).symm, (Bool.and_eq_true_iff.mp clean).1⟩
  · cases read

theorem leaves_of_parse? (parsed : parse? text = some document) :
    ∀ leaf ∈ document.leaves, leaf.Worded :=
  (read_of_parse? parsed).1 ▸ leaves_recover text

/-- The names of a document are names of GraphQL. -/
theorem named_of_parse? (parsed : parse? text = some document) :
    ∀ leaf ∈ document.leaves, leaf.Named :=
  (read_of_parse? parsed).1 ▸ forall_leaves_recover fun _ => named_of_mem

/-- The directives that a document defines may stand somewhere. -/
theorem isLocated_of_parse? (parsed : parse? text = some document) :
    ∀ stated ∈ document.definitions, stated.isLocated := by
  obtain ⟨rfl, clean⟩ := read_of_parse? parsed
  rw [recover_eq]
  simp only [respan, List.forall_mem_map, isLocated_respan]
  exact Reading.read_isLocated clean

/-- The printed form of a document is neat, unless it is empty. -/
theorem neat_print_of_parse? (parsed : parse? text = some document)
    (written : document.print ≠ []) : Neat .graphQL document.print := by
  refine neat_print (fun leaf member => ?_) (isLocated_of_parse? parsed) fun none =>
    written (by simp [print, none])
  exact (leaves_of_parse? parsed leaf member).suits fun value _ =>
    Host.Language.spares_graphQL value

/-- What is read from the printed form of the document is printed the same. -/
def PrintsBack (document : Document) : Prop :=
  ∃ read, parse? document.print = some read ∧ read.print = document.print

instance (document : Document) : Decidable document.PrintsBack :=
  decidable_of_iff ((parse? document.print).any fun read => read.print == document.print)
    (by simp [PrintsBack, Option.any_eq_true])

theorem PrintsBack.print_ne_nil (back : document.PrintsBack) : document.print ≠ [] := by
  obtain ⟨read, parsed, -⟩ := back
  have nothing : parse? [] = none := by decide
  intro none
  rw [none, nothing] at parsed
  cases parsed

end Document

end RelayWorkbench.GraphQL
