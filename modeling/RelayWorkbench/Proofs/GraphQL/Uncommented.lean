import RelayWorkbench.Proofs.GraphQL.PrintedStrings
import RelayWorkbench.Proofs.GraphQL.Words

/-! Texts that put no comment into a document. A printed string is one lexeme, whatever its value,
and outside of strings only the mark of a comment begins one. -/

namespace RelayWorkbench.GraphQL.Lexeme

/-- A text that adds no comment to one that does not begin with a quote. -/
def Uncommented (text : Text) : Prop :=
  ∀ rest : Text, rest.head? ≠ some '"' → hasComments (text ++ rest) = hasComments rest

private def Piece.isComment : Piece → Bool
  | .comment _ => true
  | _ => false

private theorem hasComments_cons (char : Char) (rest : Text) :
    hasComments (char :: rest) =
      ((readPiece char rest).1.isComment || hasComments (readPiece char rest).2.2) := by
  have any : ∀ text, hasComments text = (content text).any Piece.isComment := by
    intro text
    rw [Document.hasComments_eq]
    congr 1
  rw [any, any, content_cons, List.any_append]
  cases (readPiece char rest).1 <;> simp [Piece.content, Piece.isComment]

theorem hasComments_plain {text : Text} (plain : ∀ char ∈ text, char ≠ '"' ∧ char ≠ '#')
    (rest : Text) : hasComments (text ++ rest) = hasComments rest := by
  induction long : (text ++ rest).length using Nat.strongRecOn generalizing text rest with
  | ind length ih =>
    cases text with
    | nil => rfl
    | cons char more =>
      obtain ⟨own, others⟩ := List.forall_mem_cons.mp plain
      obtain ⟨uncommented, inside⟩ := readPiece_plain own.1 own.2 (more ++ rest)
      obtain ⟨passed, starts⟩ : ∃ passed, (readPiece char (more ++ rest)).2.1 = char :: passed := by
        have parts := readPiece_append char (more ++ rest)
        cases written : (readPiece char (more ++ rest)).2.1 with
        | nil => exact absurd written (readPiece_written char _)
        | cons first passed =>
          rw [written] at parts
          exact ⟨passed, by rw [(List.cons.inj parts).1]⟩
      have parts := readPiece_append char (more ++ rest)
      rw [starts, List.cons_append, List.cons.injEq] at parts
      rw [starts, List.forall_mem_cons] at inside
      have noComment : (readPiece char (more ++ rest)).1.isComment = false := by
        cases piece : (readPiece char (more ++ rest)).1 with
        | comment text => exact absurd piece (uncommented text)
        | ignored | lexeme | fault => rfl
      rw [List.cons_append, hasComments_cons, noComment, Bool.false_or]
      simp only [List.cons_append, List.length_cons, List.length_append] at long
      -- The first piece ends within these characters or beyond them.
      rcases List.append_eq_append_iff.mp parts.2 with ⟨left, same, after⟩ | ⟨beyond, same, after⟩
      · subst same
        simp only [List.length_append] at long
        rw [after, ih _ (by simp; omega) (List.forall_mem_append.mp others).2 rest rfl]
      · rw [same, List.forall_mem_append] at inside
        have shorter := congrArg List.length after
        rw [List.length_append] at shorter
        have skips := fun less => ih rest.length less inside.2.2 _ (by rw [← after])
        rw [← after] at skips
        exact (skips (by omega)).symm

theorem Uncommented.hasComments_eq {text : Text} (uncommented : Uncommented text) :
    hasComments text = false := by
  rw [← List.append_nil text, uncommented [] (by simp)]
  rfl

theorem Uncommented.of_plain {text : Text} (plain : ∀ char ∈ text, char ≠ '"' ∧ char ≠ '#') :
    Uncommented text :=
  fun rest _ => hasComments_plain plain rest

theorem Uncommented.append {front back : Text} (uncommented : Uncommented front)
    (behind : Uncommented back) (ends : back.head? ≠ some '"') : Uncommented (front ++ back) := by
  intro rest stops
  have stays : (back ++ rest).head? ≠ some '"' := by
    cases back with
    | nil => exact stops
    | cons => exact ends
  rw [List.append_assoc, uncommented _ stays, behind _ stops]

theorem Uncommented.plain_append {front back : Text}
    (plain : ∀ char ∈ front, char ≠ '"' ∧ char ≠ '#') (behind : Uncommented back) :
    Uncommented (front ++ back) := by
  intro rest stops
  rw [List.append_assoc, hasComments_plain plain, behind _ stops]

private theorem hasComments_quote {rest after : Text}
    (reads : (readString rest).1.isComment = false ∧ (readString rest).2.2 = after) :
    hasComments ('"' :: rest) = hasComments after := by
  have piece : readPiece '"' rest = readString rest := rfl
  rw [hasComments_cons, piece, reads.1, reads.2, Bool.false_or]

private theorem quoted_ne {raw : Text}
    (closes : StringValue.splitQuoted? (raw ++ ['"']) = some (raw, [])) {rest : Text}
    (stops : rest.head? ≠ some '"') (other : Text) : raw ++ '"' :: rest ≠ '"' :: '"' :: other := by
  cases raw with
  | nil =>
    rintro ⟨⟩
    exact stops rfl
  | cons char raw =>
    intro same
    rw [(List.cons.inj same).1, List.cons_append, StringValue.splitQuoted?] at closes
    cases closes

theorem uncommented_quoted {raw : Text}
    (closes : StringValue.splitQuoted? (raw ++ ['"']) = some (raw, [])) :
    Uncommented ('"' :: raw ++ ['"']) := by
  intro rest stops
  have split := StringValue.splitQuoted?_behind closes rest
  rw [List.append_assoc, List.singleton_append, List.nil_append] at split
  rw [List.cons_append, List.cons_append, List.append_assoc, List.singleton_append]
  refine hasComments_quote ?_
  rw [readString, split]
  · dsimp only
    split <;> exact ⟨rfl, rfl⟩
  · exact quoted_ne closes stops

private theorem readString_block {text raw after : Text}
    (found : StringValue.splitBlock? text = some (raw, after)) :
    readString ('"' :: '"' :: text) = (.lexeme (.string (StringValue.blockValue raw)),
      StringValue.tripleQuote ++ raw ++ StringValue.tripleQuote, after) := by
  rw [readString, found]

theorem uncommented_block {raw : Text}
    (closes : StringValue.splitBlock? (raw ++ StringValue.tripleQuote) = some (raw, [])) :
    Uncommented (StringValue.tripleQuote ++ raw ++ StringValue.tripleQuote) := by
  intro rest _
  have split := StringValue.splitBlock?_behind closes rest
  rw [List.append_assoc] at split
  rw [List.append_assoc, List.append_assoc]
  refine hasComments_quote ?_
  have opens := readString_block split
  exact ⟨congrArg (·.1.isComment) opens, congrArg (·.2.2) opens⟩

end RelayWorkbench.GraphQL.Lexeme
