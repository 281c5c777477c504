import RelayWorkbench.Proofs.GraphQL.Content
import RelayWorkbench.Proofs.Text.Blanks

/-! The characters of names and numbers. None of them is white space, a quote or the beginning of
a comment. -/

namespace RelayWorkbench.GraphQL.Lexeme

/-- Whether a character may stand in a name or a number. -/
def inWord (char : Char) : Bool := extendsNumber char || char == '-' || char == '+'

/-- A name or a number has characters, and only those of names and numbers. -/
def IsWord (text : Text) : Prop := text ≠ [] ∧ ∀ char ∈ text, inWord char

instance (text : Text) : Decidable (IsWord text) :=
  @instDecidableAnd _ _ inferInstance (List.decidableBAll _ text)

theorem isBlank_of_inWord {char : Char} (word : inWord char) : Text.isBlank char = false := by
  simp only [inWord, extendsNumber, Bool.or_eq_true, beq_iff_eq] at word
  rcases word with ((word | rfl) | rfl) | rfl
  · exact Text.isBlank_of_isWordChar word
  all_goals decide

theorem isLayout_of_inWord {char : Char} (word : inWord char) : Text.isLayout char = false := by
  rw [Text.isLayout, isBlank_of_inWord word, Bool.false_or, beq_eq_false_iff_ne]
  rintro rfl
  revert word
  decide

theorem inWord_of_isWordChar {char : Char} (word : Text.isWordChar char) : inWord char := by
  simp [inWord, extendsNumber, word]

theorem inWord_of_isDigit {char : Char} (digit : char.isDigit) : inWord char :=
  inWord_of_isWordChar (by simp [Text.isWordChar, Char.isAlphanum, digit])

theorem inWord_of_isNameStart {char : Char} (starts : isNameStart char) : inWord char := by
  simp only [isNameStart, Bool.or_eq_true, beq_iff_eq] at starts
  refine inWord_of_isWordChar ?_
  rcases starts with letter | rfl
  · simp [Text.isWordChar, Char.isAlphanum, letter]
  · decide

theorem isWord_of_isName {text : Text} (named : isName text) : IsWord text := by
  cases text with
  | nil => cases named
  | cons char rest =>
    simp only [isName, Bool.and_eq_true, List.all_eq_true] at named
    exact ⟨List.cons_ne_nil char rest, List.forall_mem_cons.mpr
      ⟨inWord_of_isNameStart named.1,
        fun other member => inWord_of_isWordChar (named.2 other member)⟩⟩

private theorem inWord_run {holds : Char → Bool} (words : ∀ {char}, holds char → inWord char)
    {text front after : Text} (found : Text.run holds text = (front, after)) :
    ∀ char ∈ front, inWord char := by
  cases found
  exact fun char member => words (List.mem_takeWhile_imp member)

private theorem inWord_fraction {text decimals after : Text}
    (found : Text.fraction text = (decimals, after)) : ∀ char ∈ decimals, inWord char := by
  revert found
  fun_cases Text.fraction text with
  | case1 rest digits back parts =>
    rintro ⟨⟩
    simp
  | case2 rest digits back parts =>
    rintro ⟨⟩
    simpa using ⟨by decide, inWord_run inWord_of_isDigit parts⟩
  | case3 =>
    rintro ⟨⟩
    simp

private theorem inWord_exponent {text power after : Text}
    (found : Text.exponent text = (power, after)) : ∀ char ∈ power, inWord char := by
  revert found
  fun_cases Text.exponent text with
  | case2 char rest letter sign unsigned signed digits back parts =>
    rintro ⟨⟩
    have own : inWord char := by
      simp only [Bool.or_eq_true, decide_eq_true_eq] at letter
      rcases letter with rfl | rfl <;> decide
    have signs : ∀ char ∈ sign, inWord char := by
      split at signed <;> cases signed <;> simp <;> decide
    have digits := inWord_run inWord_of_isDigit parts
    simp only [List.cons_append, List.forall_mem_cons, List.forall_mem_append]
    exact ⟨own, signs, digits⟩
  | case1 | case3 | case4 =>
    rintro ⟨⟩
    simp

private theorem inWord_sign {text sign unsigned : Text}
    (signed : (match text with
      | '-' :: rest => (['-'], rest)
      | text => ([], text)) = (sign, unsigned)) : ∀ char ∈ sign, inWord char := by
  split at signed <;> cases signed <;> exact Text.forall_of_all (by decide)

private theorem inWord_readNumber (text : Text) : ∀ char ∈ (readNumber text).2.1, inWord char := by
  have begins : ∀ {sign unsigned digits back decimals rest power after : Text},
      (∀ char ∈ sign, inWord char) → Text.run Char.isDigit unsigned = (digits, back) →
      Text.fraction back = (decimals, rest) → Text.exponent rest = (power, after) →
        ∀ char ∈ sign ++ digits ++ decimals ++ power, inWord char := by
    intro sign unsigned digits back decimals rest power after signs whole fraction exponent
    simp only [List.forall_mem_append]
    exact ⟨⟨⟨signs, inWord_run inWord_of_isDigit whole⟩, inWord_fraction fraction⟩,
      inWord_exponent exponent⟩
  fun_cases readNumber text with
  | case1 sign unsigned signed digits back whole decimals rest fraction power after exponent
  | case2 sign unsigned signed digits back whole decimals rest fraction power after exponent =>
    exact begins (inWord_sign signed) whole fraction exponent
  | case3 sign unsigned signed digits back whole decimals rest fraction power after exponent
      written _ extra last extends' =>
    have extended : ∀ {char}, extendsNumber char → inWord char := by
      intro char goesOn
      simp [inWord, goesOn]
    have more := inWord_run extended extends'
    simp only [List.forall_mem_append]
    exact ⟨begins (inWord_sign signed) whole fraction exponent, more⟩

/-- A lexeme that is a word has characters, and only those of words. -/
def Worded : Lexeme → Prop
  | name text | int text | float text => IsWord text
  | mark _ | spread | string _ => True

instance : DecidablePred Worded
  | name text | int text | float text => inferInstanceAs (Decidable (IsWord text))
  | mark _ | spread | string _ => inferInstanceAs (Decidable True)

theorem readNumber_lexeme {text : Text} {lexeme : Lexeme}
    (sound : (readNumber text).1 = .lexeme lexeme) :
    lexeme = .int (readNumber text).2.1 ∨ lexeme = .float (readNumber text).2.1 := by
  revert sound
  fun_cases readNumber text with
  | case1 =>
    rintro ⟨⟩
    exact .inl rfl
  | case2 =>
    rintro ⟨⟩
    exact .inr rfl
  | case3 => rintro ⟨⟩

theorem readString_lexeme {text : Text} {lexeme : Lexeme}
    (sound : (readString text).1 = .lexeme lexeme) :
    (∃ value, lexeme = .string value) ∧ Text.Tight (readString text).2.1 := by
  have quote : Text.isLayout '"' = false := by decide
  revert sound
  fun_cases readString text with
  | case1 rest raw after =>
    rintro ⟨⟩
    exact ⟨⟨_, rfl⟩, ⟨'"', '"' :: '"' :: (raw ++ StringValue.tripleQuote), rfl, quote⟩,
      StringValue.tripleQuote ++ raw ++ ['"', '"'], '"', by simp [StringValue.tripleQuote], quote⟩
  | case3 _ _ raw after found written value =>
    rintro ⟨⟩
    exact ⟨⟨_, rfl⟩, ⟨'"', raw ++ ['"'], rfl, quote⟩, '"' :: raw, '"', rfl, quote⟩
  | case2 | case4 | case5 => rintro ⟨⟩

/-- A lexeme is one or more characters, and neither the first nor the last one is layout. If it is a
word, it is written as it is. -/
private theorem readPiece_lexeme {char : Char} {rest : Text} {lexeme : Lexeme}
    (sound : (readPiece char rest).1 = .lexeme lexeme) :
    lexeme.Worded ∧ Text.Tight (readPiece char rest).2.1 := by
  have tight : ∀ {text : Text}, IsWord text → Text.Tight text := fun word =>
    Text.tight_of_forall word.1 fun char member => isLayout_of_inWord (word.2 char member)
  have written := readPiece_written char rest
  revert sound written
  fun_cases readPiece char rest with
  | case1 | case2 | case8 => rintro ⟨⟩
  | case3 char rest blank code letter more after parts =>
    rintro ⟨⟩ written
    have word : IsWord (char :: more) := ⟨written, List.forall_mem_cons.mpr
      ⟨inWord_of_isNameStart letter, inWord_run inWord_of_isWordChar parts⟩⟩
    exact ⟨word, tight word⟩
  | case4 char rest blank code letter mark =>
    rintro ⟨⟩ written
    have plain : ∀ char ∈ marks, Text.isLayout char = false :=
      Text.forall_of_all (by decide +kernel)
    exact ⟨trivial, Text.tight_of_forall written (by simpa using plain char (by simpa using mark))⟩
  | case5 rest =>
    intro sound written
    obtain ⟨⟨value, rfl⟩, ends⟩ := readString_lexeme sound
    exact ⟨trivial, ends⟩
  | case6 char rest =>
    intro sound written
    have word : IsWord (readNumber (char :: rest)).2.1 := ⟨written, inWord_readNumber _⟩
    refine ⟨?_, tight word⟩
    rcases readNumber_lexeme sound with rfl | rfl <;> exact word
  | case7 rest =>
    rintro ⟨⟩ written
    have plain : ∀ char ∈ ['.', '.', '.'], Text.isLayout char = false :=
      Text.forall_of_all (by decide)
    exact ⟨trivial, Text.tight_of_forall written plain⟩

/-- A lexeme neither begins nor ends with layout. -/
theorem tight_readPiece {char : Char} {rest : Text} {lexeme : Lexeme}
    (sound : (readPiece char rest).1 = .lexeme lexeme) : Text.Tight (readPiece char rest).2.1 :=
  (readPiece_lexeme sound).2

theorem plain_of_inWord {char : Char} (word : inWord char) : char ≠ '"' ∧ char ≠ '#' := by
  constructor <;> rintro rfl <;> revert word <;> decide

/-- What begins with neither a quote nor the mark of a comment has none of them in it. -/
theorem readPiece_plain {char : Char} (quote : char ≠ '"') (code : char ≠ '#') (rest : Text) :
    (∀ comment, (readPiece char rest).1 ≠ .comment comment) ∧
      ∀ other ∈ (readPiece char rest).2.1, other ≠ '"' ∧ other ≠ '#' := by
  have single : ∀ other ∈ [char], other ≠ '"' ∧ other ≠ '#' := by simpa using ⟨quote, code⟩
  revert single
  fun_cases readPiece char rest with
  | case1 | case4 | case8 => exact fun single => ⟨by simp, single⟩
  | case2 => exact absurd rfl code
  | case3 char rest blank code letter more after parts =>
    intro single
    refine ⟨by simp, List.forall_mem_cons.mpr ⟨single char (List.mem_singleton_self char), ?_⟩⟩
    exact fun other member => plain_of_inWord (inWord_run inWord_of_isWordChar parts other member)
  | case5 => exact absurd rfl quote
  | case6 char rest =>
    intro single
    refine ⟨?_, fun other member => plain_of_inWord (inWord_readNumber _ other member)⟩
    fun_cases readNumber (char :: rest) <;> simp
  | case7 => exact fun _ => ⟨by simp, by simp⟩

/-- What a text says is read piece by piece. -/
private theorem exists_readPiece_of_mem {text : Text} {piece : Piece}
    (member : piece ∈ content text) : ∃ char rest, (readPiece char rest).1 = piece := by
  induction long : text.length using Nat.strongRecOn generalizing text with
  | ind length ih =>
    cases text with
    | nil => cases member
    | cons char rest =>
      have shorter := length_readPiece char rest
      rw [List.length_cons] at long
      rw [content_cons, List.mem_append] at member
      rcases member with own | later
      · unfold Piece.content at own
        split at own
        · cases own
        · exact ⟨char, rest, (List.mem_singleton.mp own).symm⟩
      · exact ih _ (by omega) later rfl

/-- The words of a text have characters, and only those of words. -/
theorem worded_of_mem {text : Text} {lexeme : Lexeme} (member : .lexeme lexeme ∈ content text) :
    lexeme.Worded := by
  obtain ⟨char, rest, same⟩ := exists_readPiece_of_mem member
  exact (readPiece_lexeme same).1

/-- A lexeme that is a name of GraphQL if it is a name at all. -/
def Named : Lexeme → Prop
  | name text => isName text
  | mark _ | spread | int _ | float _ | string _ => True

instance : DecidablePred Named
  | name text => inferInstanceAs (Decidable (isName text))
  | mark _ | spread | int _ | float _ | string _ => inferInstanceAs (Decidable True)

private theorem readPiece_named {char : Char} {rest : Text} {lexeme : Lexeme}
    (sound : (readPiece char rest).1 = .lexeme lexeme) : lexeme.Named := by
  revert sound
  fun_cases readPiece char rest with
  | case1 | case2 | case8 => rintro ⟨⟩
  | case3 char rest blank code letter more after parts =>
    rintro ⟨⟩
    cases parts
    simp [Named, isName, letter]
  | case4 | case7 =>
    rintro ⟨⟩
    exact trivial
  | case5 rest =>
    intro sound
    obtain ⟨⟨value, rfl⟩, -⟩ := readString_lexeme sound
    exact trivial
  | case6 char rest =>
    intro sound
    rcases readNumber_lexeme sound with rfl | rfl <;> exact trivial

/-- The names in a text are names of GraphQL. -/
theorem named_of_mem {text : Text} {lexeme : Lexeme} (member : .lexeme lexeme ∈ content text) :
    lexeme.Named := by
  obtain ⟨char, rest, same⟩ := exists_readPiece_of_mem member
  exact readPiece_named same

private theorem readPiece_ignored {char : Char} {rest : Text}
    (white : (readPiece char rest).1 = .ignored) :
    ignored.contains char ∧ (readPiece char rest).2.1 = [char] := by
  revert white
  fun_cases readPiece char rest with
  | case1 char rest ignores => exact fun _ => ⟨ignores, rfl⟩
  | case5 rest => fun_cases readString rest <;> rintro ⟨⟩
  | case6 char rest => fun_cases readNumber (char :: rest) <;> rintro ⟨⟩
  | case2 | case3 | case4 | case7 | case8 => rintro ⟨⟩

/-- Behind the last lexeme of a sound text there are ignored characters only. -/
theorem ignores_trailingBlank {text : Text}
    (sound : ∀ piece ∈ content text, ∃ lexeme, piece = .lexeme lexeme) :
    ∀ char ∈ Text.trailingBlank text, ignored.contains char := by
  induction long : text.length using Nat.strongRecOn generalizing text with
  | ind length ih =>
    cases text with
    | nil => simp [Text.trailingBlank]
    | cons char rest =>
      have shorter := length_readPiece char rest
      rw [List.length_cons] at long
      rw [content_cons] at sound
      have later := ih _ (by omega)
        (fun piece member => sound piece (List.mem_append_right _ member)) rfl
      rw [← readPiece_append char rest]
      cases blank : (readPiece char rest).2.2.all Text.isBlank with
      | false => rwa [Text.trailingBlank_append _ blank]
      | true =>
        have behind : Text.trailingBlank (readPiece char rest).2.2 = (readPiece char rest).2.2 :=
          Text.trailingBlank_append_of_all [] blank
        rw [behind] at later
        rw [Text.trailingBlank_append_of_all _ blank]
        by_cases ignores : (readPiece char rest).1 = .ignored
        · obtain ⟨own, parts⟩ := readPiece_ignored ignores
          rw [parts, List.forall_mem_append]
          refine ⟨fun other member => ?_, later⟩
          have inside := (List.takeWhile_sublist _).subset (List.mem_reverse.mp member)
          rwa [List.mem_singleton.mp (List.mem_reverse.mp inside)]
        · obtain ⟨lexeme, same⟩ := sound (readPiece char rest).1
            (List.mem_append_left _ (by simp [Piece.content, ignores]))
          obtain ⟨front, last, parts, plain⟩ := (tight_readPiece same).last
          rw [parts, Text.trailingBlank_concat _ (Text.isBlank_of_not_isLayout plain)]
          exact later

end RelayWorkbench.GraphQL.Lexeme
