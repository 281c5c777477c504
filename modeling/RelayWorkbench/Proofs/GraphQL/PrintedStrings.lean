import RelayWorkbench.Proofs.GraphQL.Pieces
import RelayWorkbench.Proofs.Text.Cutting
import RelayWorkbench.Proofs.Text.Indenting

/-! Printed strings end where they were meant to: no character of a value closes the quotes it is
written between. -/

namespace RelayWorkbench.GraphQL.StringValue

open Text (spaces)

/-- A character that stands for itself between quotes. -/
private abbrev Plain (char : Char) : Prop := char ≠ '"' ∧ char ≠ '\\' ∧ ¬ isLineEnd char

private theorem escape_eq (char : Char) :
    (Plain char ∧ escape char = [char]) ∨
      ∃ letter digits, escape char = '\\' :: letter :: digits ∧ ¬ isLineEnd letter ∧
        ∀ digit ∈ digits, Plain digit := by
  unfold escape
  split
  iterate 6 exact .inr ⟨_, [], rfl, by decide, by simp⟩
  · exact .inl ⟨by decide, rfl⟩
  · next quote slash backspace feed lineFeed return' tab =>
    split
    · next control =>
      have pairs : ∀ code < 32, (hexPair code).all fun digit => Plain digit := by decide
      refine .inr ⟨'u', '0' :: '0' :: hexPair _, rfl, by decide, ?_⟩
      simpa using ⟨by decide, Text.forall_of_all (pairs _ control)⟩
    · exact .inl ⟨⟨quote, slash, by simpa [isLineEnd] using ⟨lineFeed, return'⟩⟩, rfl⟩

private theorem splitQuoted?_append {front : Text} (plain : ∀ char ∈ front, Plain char)
    (rest : Text) : splitQuoted? (front ++ rest) =
      (splitQuoted? rest).map fun (raw, after) => (front ++ raw, after) := by
  induction front with
  | nil => simp
  | cons char front ih =>
    obtain ⟨own, others⟩ := List.forall_mem_cons.mp plain
    simp [splitQuoted?, own, ih others, Function.comp_def]

theorem splitQuoted?_flatMap_escape (value rest : Text) :
    splitQuoted? (value.flatMap escape ++ '"' :: rest) = some (value.flatMap escape, rest) := by
  induction value with
  | nil => rfl
  | cons char value ih =>
    rw [List.flatMap_cons, List.append_assoc]
    rcases escape_eq char with ⟨plain, same⟩ | ⟨letter, digits, same, inLine, plain⟩
    · rw [same, splitQuoted?_append (by simpa using plain), ih]
      rfl
    · rw [same, List.cons_append, List.cons_append, splitQuoted?, if_neg inLine,
        splitQuoted?_append plain, ih]
      rfl

theorem return_notMem_escape (value : Text) : '\r' ∉ value.flatMap escape := by
  have each : ∀ char, '\r' ∉ escape char := by
    intro char member
    rcases escape_eq char with ⟨plain, same⟩ | ⟨letter, digits, same, inLine, plain⟩
    · rw [same, List.mem_singleton] at member
      exact plain.2.2 (member ▸ rfl)
    · rw [same, List.mem_cons, List.mem_cons] at member
      rcases member with slash | here | later
      · cases slash
      · exact inLine (here ▸ rfl)
      · exact (plain _ later).2.2 rfl
  simp [each]

/-- An escaped text begins with a quote only where the text does. -/
private theorem escapeBlock_eq_cons {value rest back : Text} (ends : rest.head? ≠ some '"')
    (same : escapeBlock value ++ rest = '"' :: back) :
    ∃ more, value = '"' :: more ∧ back = escapeBlock more ++ rest ∧
      ∀ other, more ≠ '"' :: '"' :: other := by
  fun_cases escapeBlock value with
  | case1 =>
    rw [escapeBlock, List.nil_append] at same
    rw [same] at ends
    exact absurd rfl ends
  | case2 more => cases same
  | case3 char more single =>
    rw [escapeBlock] at same
    · cases same
      exact ⟨more, rfl, rfl, fun other twice => single other rfl twice⟩
    · exact single

/-- Between triple quotes an escaped text is read over. -/
private theorem splitBlock?_escapeBlock (value : Text) {rest : Text}
    (ends : rest.head? ≠ some '"') :
    splitBlock? (escapeBlock value ++ rest) =
      (splitBlock? rest).map fun (raw, after) => (escapeBlock value ++ raw, after) := by
  fun_induction escapeBlock value with
  | case1 => simp
  | case2 more ih => simp [splitBlock?, ih, Function.comp_def]
  | case3 char more single ih =>
    rw [List.cons_append, splitBlock?, ih]
    · simp [Function.comp_def]
    · intro back quote twice
      obtain ⟨second, here, next, -⟩ := escapeBlock_eq_cons ends twice
      obtain ⟨third, there, -⟩ := escapeBlock_eq_cons ends next.symm
      exact single third quote (by rw [here, there])
    · intro back slash thrice
      obtain ⟨second, -, next, apart⟩ := escapeBlock_eq_cons ends thrice
      obtain ⟨third, there, last, -⟩ := escapeBlock_eq_cons ends next.symm
      obtain ⟨fourth, behind, -⟩ := escapeBlock_eq_cons ends last.symm
      exact apart fourth (by rw [there, behind])

private theorem escapeBlock_concat (front : Text) {last : Char} (other : last ≠ '"') :
    escapeBlock (front ++ [last]) = escapeBlock front ++ [last] := by
  fun_induction escapeBlock front with
  | case1 => simp [escapeBlock]
  | case2 more ih => simp [escapeBlock, ih]
  | case3 char more single ih =>
    rw [List.cons_append, escapeBlock, ih]
    · rfl
    · intro rest quote twice
      match more, twice with
      | [], twice => cases twice
      | [second], twice => exact other (List.cons.inj (List.cons.inj twice).2).1
      | second :: third :: more, twice =>
        cases twice
        exact single more quote rfl

/-- A line of a block string with the line feed before it. -/
def blockLine (indentation : Nat) (line : Text) : Text :=
  if line.isEmpty then ['\n'] else '\n' :: (spaces indentation ++ escapeBlock line)

/-- The text between the triple quotes of a value that is written as a block. -/
def blockBody (indentation : Nat) (value : Text) : Text :=
  if needsOwnLines value then
    (Text.lines value).flatMap (blockLine indentation) ++ '\n' :: spaces indentation
  else escapeBlock value

theorem block_eq (indentation : Nat) (value : Text) :
    block indentation value = tripleQuote ++ (blockBody indentation value ++ tripleQuote) := by
  unfold block blockBody
  split
  · simp only [List.append_assoc, List.flatMap_def]
    rfl
  · simp

private theorem splitBlock?_lines (indentation : Nat) (lines : List Text) {rest : Text}
    (ends : rest.head? ≠ some '"') :
    splitBlock? (lines.flatMap (blockLine indentation) ++ rest) =
      (splitBlock? rest).map fun (raw, after) =>
        (lines.flatMap (blockLine indentation) ++ raw, after) := by
  induction lines with
  | nil => simp
  | cons line lines ih =>
    have stays : (lines.flatMap (blockLine indentation) ++ rest).head? ≠ some '"' := by
      cases lines with
      | nil => exact ends
      | cons next lines => rw [List.flatMap_cons, blockLine]; split <;> simp
    rw [List.flatMap_cons, List.append_assoc, blockLine]
    split
    · rw [List.singleton_append, splitBlock?_lineFeed, ih]
      simp [Function.comp_def]
    · rw [List.cons_append, splitBlock?_lineFeed, List.append_assoc, splitBlock?_spaces,
        splitBlock?_escapeBlock line stays, ih]
      simp [Function.comp_def]

theorem splitBlock?_blockBody (indentation : Nat) (value rest : Text) :
    splitBlock? (blockBody indentation value ++ (tripleQuote ++ rest)) =
      some (blockBody indentation value, rest) := by
  have closes : splitBlock? (tripleQuote ++ rest) = some ([], rest) := rfl
  unfold blockBody
  split
  · rw [List.append_assoc, splitBlock?_lines indentation _ (by simp), List.cons_append,
      splitBlock?_lineFeed, splitBlock?_spaces, closes]
    simp
  · next single =>
    rcases List.eq_nil_or_concat value with rfl | ⟨front, last, rfl⟩
    · exact closes
    · have plain : last ≠ '"' ∧ last ≠ '\\' := by
        constructor <;> rintro rfl <;> exact single (by simp [needsOwnLines])
      have passes : splitBlock? (last :: (tripleQuote ++ rest)) = some ([last], rest) := by
        rw [splitBlock?, closes]
        · rfl
        · exact fun _ quote => absurd quote plain.1
        · exact fun _ slash => absurd slash plain.2
      rw [List.concat_eq_append, escapeBlock_concat front plain.1, List.append_assoc,
        splitBlock?_escapeBlock front (by simpa using plain.1), List.singleton_append, passes]
      rfl

private theorem mem_escapeBlock {char : Char} {value : Text} (member : char ∈ escapeBlock value) :
    char ∈ value ∨ char = '\\' := by
  fun_induction escapeBlock value with
  | case1 => cases member
  | case2 more ih =>
    simp only [List.mem_cons] at member ⊢
    grind
  | case3 first more single ih =>
    simp only [List.mem_cons] at member ⊢
    grind

theorem return_notMem_blockBody (indentation : Nat) {value : Text} (plain : '\r' ∉ value) :
    '\r' ∉ blockBody indentation value := by
  have escaped : ∀ {line : Text}, '\r' ∉ line → '\r' ∉ escapeBlock line := by
    intro line plain member
    rcases mem_escapeBlock member with here | slash
    · exact plain here
    · cases slash
  have apart : '\r' ∉ spaces indentation := by simp [spaces, List.mem_replicate]
  have lines : ∀ line ∈ Text.lines value, '\r' ∉ blockLine indentation line := by
    intro line inText
    have inLine := escaped fun member => plain (Text.mem_of_mem_lines inText member)
    rw [blockLine]
    split <;> simp [apart, inLine]
  unfold blockBody
  split
  · simpa [apart] using lines
  · exact escaped plain

end RelayWorkbench.GraphQL.StringValue
