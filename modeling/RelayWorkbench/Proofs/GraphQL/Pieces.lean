import Mathlib
import RelayWorkbench.GraphQL.Lexeme

/-! The pieces of a text. Each is a stretch of at least one character, and together they are the
text. -/

namespace RelayWorkbench.GraphQL

namespace StringValue

theorem eq_of_splitQuoted? {text raw after : Text} (found : splitQuoted? text = some (raw, after)) :
    text = raw ++ '"' :: after := by
  fun_induction splitQuoted? text generalizing raw with
  | case1 | case3 | case5 => cases found
  | case2 rest => cases found; rfl
  | case4 char rest _ ih | case6 char rest _ _ _ ih =>
    obtain ⟨⟨inner, back⟩, split, same⟩ := Option.map_eq_some_iff.mp found
    cases same
    rw [ih split]
    rfl

theorem eq_of_splitBlock? {text raw after : Text} (found : splitBlock? text = some (raw, after)) :
    text = raw ++ (tripleQuote ++ after) := by
  fun_induction splitBlock? text generalizing raw with
  | case1 => cases found
  | case2 rest => cases found; rfl
  | case3 rest ih | case4 char rest _ _ ih =>
    obtain ⟨⟨inner, back⟩, split, same⟩ := Option.map_eq_some_iff.mp found
    cases same
    rw [ih split]
    rfl

theorem splitQuoted?_behind {text raw after : Text} (found : splitQuoted? text = some (raw, after))
    (other : Text) : splitQuoted? (text ++ other) = some (raw, after ++ other) := by
  fun_induction splitQuoted? text generalizing raw with
  | case1 | case3 | case5 => cases found
  | case2 rest => cases found; rfl
  | case4 char rest stays ih =>
    obtain ⟨⟨inner, back⟩, split, same⟩ := Option.map_eq_some_iff.mp found
    cases same
    simp [splitQuoted?, stays, ih split]
  | case6 char rest closes escapes stays ih =>
    obtain ⟨⟨inner, back⟩, split, same⟩ := Option.map_eq_some_iff.mp found
    cases same
    have plain : char ≠ '\\' := by
      rintro rfl
      cases rest with
      | nil => cases split
      | cons next rest => exact escapes next rest rfl rfl
    simp [splitQuoted?, plain, stays, ih split]

theorem splitBlock?_behind {text raw after : Text} (found : splitBlock? text = some (raw, after))
    (other : Text) : splitBlock? (text ++ other) = some (raw, after ++ other) := by
  fun_induction splitBlock? text generalizing raw with
  | case1 => cases found
  | case2 rest => cases found; rfl
  | case3 rest ih =>
    obtain ⟨⟨inner, back⟩, split, same⟩ := Option.map_eq_some_iff.mp found
    cases same
    simp [splitBlock?, ih split]
  | case4 char rest closes escapes ih =>
    obtain ⟨⟨inner, back⟩, split, same⟩ := Option.map_eq_some_iff.mp found
    cases same
    -- At least three characters are left, and no more than those decide.
    obtain ⟨second, third, fourth, more, rfl⟩ :
        ∃ second third fourth more, rest = second :: third :: fourth :: more := by
      rw [eq_of_splitBlock? split]
      match inner with
      | [] => exact ⟨_, _, _, _, rfl⟩
      | [_] => exact ⟨_, _, _, _, rfl⟩
      | [_, _] => exact ⟨_, _, _, _, rfl⟩
      | _ :: _ :: _ :: _ => exact ⟨_, _, _, _, rfl⟩
    rw [List.cons_append, splitBlock?, ih split]
    · rfl
    · rintro back quote ⟨⟩
      exact closes _ quote rfl
    · rintro back slash ⟨⟩
      exact escapes _ slash rfl

theorem splitBlock?_spaces (count : Nat) (text : Text) :
    splitBlock? (Text.spaces count ++ text) =
      (splitBlock? text).map fun (raw, after) => (Text.spaces count ++ raw, after) := by
  induction count with
  | zero => cases split : splitBlock? text <;> simp [Text.spaces, split]
  | succ count ih =>
    have more : Text.spaces (count + 1) = ' ' :: Text.spaces count := rfl
    rw [more, List.cons_append, splitBlock?, ih] <;> simp [Function.comp_def]

theorem splitBlock?_lineFeed (text : Text) :
    splitBlock? ('\n' :: text) =
      (splitBlock? text).map fun (raw, after) => ('\n' :: raw, after) := by
  rw [splitBlock?] <;> simp

end StringValue

namespace Lexeme

theorem eq_of_run {holds : Char → Bool} {text front after : Text}
    (found : Text.run holds text = (front, after)) : text = front ++ after := by
  cases found
  exact List.takeWhile_append_dropWhile.symm

theorem eq_of_fraction {text decimals after : Text}
    (found : Text.fraction text = (decimals, after)) : text = decimals ++ after := by
  revert found
  fun_cases Text.fraction text with
  | case1 rest digits back parts | case2 rest digits back parts =>
    intro found
    cases found
    simp [eq_of_run parts]
  | case3 =>
    intro found
    cases found
    rfl

theorem eq_of_exponent {text power after : Text}
    (found : Text.exponent text = (power, after)) : text = power ++ after := by
  revert found
  fun_cases Text.exponent text with
  | case1 char rest _ sign unsigned signed digits back parts
  | case2 char rest _ sign unsigned signed digits back parts =>
    intro found
    cases found
    split at signed <;> cases signed <;> simp [eq_of_run parts]
  | case3 | case4 =>
    intro found
    cases found
    rfl

theorem readNumber_append (text : Text) :
    (readNumber text).2.1 ++ (readNumber text).2.2 = text := by
  fun_cases readNumber text with
  | case1 sign unsigned signed digits back whole decimals rest fraction power after exponent written
  | case2 sign unsigned signed digits back whole decimals rest fraction power after exponent
      written =>
    split at signed <;> cases signed <;>
      simp [written, eq_of_run whole, eq_of_fraction fraction, eq_of_exponent exponent]
  | case3 sign unsigned signed digits back whole decimals rest fraction power after exponent
      written _ extra last extends' =>
    split at signed <;> cases signed <;>
      simp [written, eq_of_run whole, eq_of_fraction fraction, eq_of_exponent exponent,
        eq_of_run extends']

theorem readString_append (text : Text) :
    (readString text).2.1 ++ (readString text).2.2 = '"' :: text := by
  fun_cases readString text with
  | case1 rest raw after split =>
    simp [StringValue.eq_of_splitBlock? split, StringValue.tripleQuote]
  | case2 => simp
  | case3 text _ raw after split written | case4 text _ raw after split written =>
    simp [written, StringValue.eq_of_splitQuoted? split]
  | case5 text _ _ raw after parts => simp [← eq_of_run parts]

theorem readPiece_append (char : Char) (rest : Text) :
    (readPiece char rest).2.1 ++ (readPiece char rest).2.2 = char :: rest := by
  fun_cases readPiece char rest with
  | case1 | case4 | case7 | case8 => rfl
  | case2 _ _ _ parts | case3 _ _ _ _ _ _ _ parts => simp [← eq_of_run parts]
  | case5 rest => exact readString_append rest
  | case6 char rest => exact readNumber_append (char :: rest)

private theorem sign_append_digits_ne_nil {char : Char} (numeric : char.isDigit ∨ char = '-')
    {rest sign unsigned digits back : Text}
    (signed : (match char :: rest with
      | '-' :: rest => (['-'], rest)
      | text => ([], text)) = (sign, unsigned))
    (whole : Text.run Char.isDigit unsigned = (digits, back)) : sign ++ digits ≠ [] := by
  by_cases minus : char = '-'
  · subst minus
    cases signed
    simp
  · have digit : char.isDigit := numeric.resolve_right minus
    split at signed
    · next same => cases same; exact absurd rfl minus
    · cases signed
      cases whole
      simp [digit]

private theorem readNumber_written {char : Char} (numeric : char.isDigit ∨ char = '-')
    (rest : Text) : (readNumber (char :: rest)).2.1 ≠ [] := by
  have begins {sign unsigned digits back : Text} :=
    @sign_append_digits_ne_nil char numeric rest sign unsigned digits back
  generalize text : char :: rest = number at *
  fun_cases readNumber number with
  | case1 sign unsigned signed digits back whole decimals back' _ power _ _ written
  | case2 sign unsigned signed digits back whole decimals back' _ power _ _ written =>
    intro none
    simp only [written, List.append_assoc, List.append_eq_nil_iff] at none
    exact begins signed whole (by simp [none])
  | case3 sign unsigned signed digits back whole decimals back' _ power _ _ written =>
    intro none
    simp only [written, List.append_assoc, List.append_eq_nil_iff] at none
    exact begins signed whole (by simp [none])

private theorem readString_written (text : Text) : (readString text).2.1 ≠ [] := by
  fun_cases readString text with
  | case1 | case2 | case5 => simp [StringValue.tripleQuote]
  | case3 text _ raw after split written | case4 text _ raw after split written => simp [written]

theorem readPiece_written (char : Char) (rest : Text) : (readPiece char rest).2.1 ≠ [] := by
  fun_cases readPiece char rest with
  | case1 | case2 | case3 | case4 | case7 | case8 => simp
  | case5 rest => exact readString_written rest
  | case6 char rest _ _ _ _ _ numeric => exact readNumber_written (by simpa using numeric) rest

theorem length_readPiece (char : Char) (rest : Text) :
    (readPiece char rest).2.2.length ≤ rest.length := by
  have parts := congrArg List.length (readPiece_append char rest)
  have some := List.length_pos_iff.mpr (readPiece_written char rest)
  simp only [List.length_append, List.length_cons] at parts
  omega

theorem piecesFrom_fuel {fuel : Nat} {text : Text} (enough : text.length ≤ fuel) (offset : Nat) :
    piecesFrom fuel offset text = piecesFrom text.length offset text := by
  induction fuel using Nat.strongRecOn generalizing text offset with
  | ind fuel ih =>
    cases text with
    | nil => cases fuel <;> rfl
    | cons char rest =>
      have shorter := length_readPiece char rest
      rw [List.length_cons] at enough ⊢
      obtain ⟨fuel, rfl⟩ : ∃ less, fuel = less + 1 := ⟨fuel - 1, by omega⟩
      simp only [piecesFrom]
      have less : (readPiece char rest).2.2.length ≤ fuel := by omega
      rw [ih fuel (by omega) less, ih rest.length (by omega) shorter]

/-- The pieces of a text that starts at an offset. -/
def piecesAt (offset : Nat) (text : Text) : List (Piece × Span) :=
  piecesFrom text.length offset text

theorem pieces_eq_piecesAt (text : Text) : pieces text = piecesAt 0 text := rfl

@[simp] theorem piecesAt_nil (offset : Nat) : piecesAt offset [] = [] := rfl

theorem piecesAt_cons (offset : Nat) (char : Char) (rest : Text) :
    piecesAt offset (char :: rest) =
      let (piece, written, after) := readPiece char rest
      (piece, ⟨offset, offset + written.width⟩) :: piecesAt (offset + written.width) after := by
  simp only [piecesAt, List.length_cons, piecesFrom]
  rw [piecesFrom_fuel (length_readPiece char rest)]

end Lexeme

end RelayWorkbench.GraphQL
