import RelayWorkbench.Proofs.GraphQL.Words

/-! Names and marks as they may be written, with comments and with characters that mean nothing
between them. Where a closing parenthesis is put behind a text, the names and marks that are read
in front of a closing parenthesis are written in that text, all of it or its front up to a
parenthesis of its own. -/

namespace RelayWorkbench.GraphQL

namespace Lexeme

/-- A lexeme as it is printed. -/
def spelling : Lexeme → Text
  | mark char => [char]
  | spread => ['.', '.', '.']
  | name text | int text | float text => text
  | string value => StringValue.quoted value

/-- A text without characters that mean nothing and without comments; it may begin inside of one.
A comment ends with its line. -/
def bareFrom (commented : Bool) : Text → Text
  | [] => []
  | char :: rest =>
    if commented then bareFrom (!StringValue.isLineEnd char) rest
    else if char = '#' then bareFrom true rest
    else if ignored.contains char then bareFrom false rest
    else char :: bareFrom false rest

/-- A text without comments and without characters that mean nothing. -/
def bare (text : Text) : Text := bareFrom false text

/-- A text writes names and marks: they stand at its beginning, among ignored characters and
comments that end, and `rest` is what follows. -/
inductive Writes : List Lexeme → Text → Text → Prop where
  | nil (rest : Text) : Writes [] rest rest
  | blank {lexemes : List Lexeme} {char : Char} {text rest : Text}
      (ignores : ignored.contains char) (more : Writes lexemes text rest) :
      Writes lexemes (char :: text) rest
  | comment {lexemes : List Lexeme} {words : Text} {last : Char} {text rest : Text}
      (inside : ∀ char ∈ words, StringValue.isLineEnd char = false)
      (ends : StringValue.isLineEnd last) (more : Writes lexemes text rest) :
      Writes lexemes ('#' :: (words ++ last :: text)) rest
  | name {lexemes : List Lexeme} {word text rest : Text} (named : isName word)
      (apart : text.head?.any Text.isWordChar = false) (more : Writes lexemes text rest) :
      Writes (.name word :: lexemes) (word ++ text) rest
  | mark {lexemes : List Lexeme} {char : Char} {text rest : Text} (mark : char ∈ marks)
      (more : Writes lexemes text rest) : Writes (.mark char :: lexemes) (char :: text) rest

theorem ignored_of_isLineEnd {char : Char} (ends : StringValue.isLineEnd char) :
    ignored.contains char := by
  simp only [StringValue.isLineEnd, Bool.or_eq_true, beq_iff_eq] at ends
  rcases ends with rfl | rfl <;> decide

private theorem readPiece_comment {words : Text}
    (inside : ∀ char ∈ words, StringValue.isLineEnd char = false) (text : Text)
    (ends : text.head?.all StringValue.isLineEnd) :
    readPiece '#' (words ++ text) = (.comment ('#' :: words), '#' :: words, text) := by
  have code : ignored.contains '#' = false := by decide
  have others : ∀ char ∈ words, (!StringValue.isLineEnd char) = true := by simpa using inside
  have stop : text.takeWhile (!StringValue.isLineEnd ·) = [] ∧
      text.dropWhile (!StringValue.isLineEnd ·) = text := by
    cases text with
    | nil => exact ⟨rfl, rfl⟩
    | cons char rest =>
      have ends : StringValue.isLineEnd char = true := ends
      simp [ends]
  simp only [readPiece, code, Text.run, Bool.false_eq_true, if_false, if_true,
    List.takeWhile_append_of_pos others, List.dropWhile_append_of_pos others, stop,
    List.append_nil]

theorem content_comment {words : Text}
    (inside : ∀ char ∈ words, StringValue.isLineEnd char = false) {last : Char}
    (ends : StringValue.isLineEnd last) (rest : Text) :
    content ('#' :: (words ++ last :: rest)) = .comment ('#' :: words) :: content rest := by
  rw [content_cons, readPiece_comment inside _ (by simpa using ends)]
  simp [Piece.content, content_ignored (ignored_of_isLineEnd ends)]

section Bare

@[simp] theorem bare_nil : bare [] = [] := rfl

theorem bare_cons {char : Char} (code : char ≠ '#') (rest : Text) :
    bare (char :: rest) = if ignored.contains char then bare rest else char :: bare rest := by
  rw [bare, bareFrom, if_neg Bool.false_ne_true, if_neg code]
  rfl

theorem bare_blank {char : Char} (ignores : ignored.contains char) (rest : Text) :
    bare (char :: rest) = bare rest := by
  have code : char ≠ '#' := by
    rintro rfl
    exact absurd ignores (by decide)
  rw [bare_cons code, if_pos ignores]

theorem bare_comment {words : Text}
    (inside : ∀ char ∈ words, StringValue.isLineEnd char = false) {last : Char}
    (ends : StringValue.isLineEnd last) (rest : Text) :
    bare ('#' :: (words ++ last :: rest)) = bare rest := by
  have start : bare ('#' :: (words ++ last :: rest)) = bareFrom true (words ++ last :: rest) := rfl
  rw [start]
  induction words with
  | nil => simp [bareFrom, ends, bare]
  | cons char words ih =>
    obtain ⟨own, others⟩ := List.forall_mem_cons.mp inside
    rw [List.cons_append, bareFrom, if_pos rfl, own]
    exact ih others rfl

theorem bare_append {front : Text}
    (plain : ∀ char ∈ front, char ≠ '#' ∧ ignored.contains char = false) (rest : Text) :
    bare (front ++ rest) = front ++ bare rest := by
  induction front with
  | nil => rfl
  | cons char front ih =>
    obtain ⟨⟨code, meant⟩, others⟩ := List.forall_mem_cons.mp plain
    rw [List.cons_append, bare_cons code, meant, if_neg Bool.false_ne_true, ih others,
      List.cons_append]

theorem plain_of_isName {word : Name} (named : isName word) :
    ∀ char ∈ word, char ≠ '#' ∧ ignored.contains char = false := by
  intro char member
  have inside := (isWord_of_isName named).2 char member
  refine ⟨(plain_of_inWord inside).2, Bool.eq_false_iff.mpr fun ignores => ?_⟩
  have apart : ∀ char ∈ ignored, inWord char = false := Text.forall_of_all (by decide +kernel)
  rw [apart char (by simpa using ignores)] at inside
  cases inside

theorem plain_of_mem_marks {char : Char} (mark : char ∈ marks) :
    char ≠ '#' ∧ ignored.contains char = false := by
  have plain : ∀ char ∈ marks, char ≠ '#' ∧ ignored.contains char = false :=
    Text.forall_of_all (by decide +kernel)
  exact plain char mark

end Bare

namespace Writes

variable {lexemes : List Lexeme} {text rest : Text}

theorem content (writes : Writes lexemes text rest) :
    Document.lexemesOf (Lexeme.content text) =
      lexemes ++ Document.lexemesOf (Lexeme.content rest) ∧
      (Lexeme.content text).all (· != .fault) = (Lexeme.content rest).all (· != .fault) := by
  induction writes with
  | nil => exact ⟨rfl, rfl⟩
  | blank ignores _ ih => rwa [content_ignored ignores]
  | comment inside ends _ ih =>
    rw [content_comment inside ends]
    exact ih
  | name named apart _ ih =>
    rw [content_name named apart]
    exact ⟨congrArg _ ih.1, ih.2⟩
  | mark mark _ ih =>
    rw [content_mark mark]
    exact ⟨congrArg _ ih.1, ih.2⟩

theorem bare_eq (writes : Writes lexemes text rest) :
    bare text = lexemes.flatMap spelling ++ bare rest := by
  induction writes with
  | nil => rfl
  | blank ignores _ ih => rw [bare_blank ignores, ih]
  | comment inside ends _ ih => rw [bare_comment inside ends, ih]
  | name named _ _ ih =>
    rw [bare_append (plain_of_isName named), ih, List.flatMap_cons, List.append_assoc, spelling]
  | mark mark _ ih =>
    rw [← List.singleton_append, bare_append (by simpa using plain_of_mem_marks mark), ih,
      List.flatMap_cons, List.append_assoc, spelling]

theorem append (writes : Writes lexemes text rest) (behind : Text)
    (apart : behind.head?.any Text.isWordChar = false) :
    Writes lexemes (text ++ behind) (rest ++ behind) := by
  induction writes with
  | nil => exact .nil _
  | blank ignores _ ih => exact .blank ignores ih
  | comment inside ends _ ih =>
    rw [List.cons_append, List.append_assoc, List.cons_append]
    exact .comment inside ends ih
  | @name _ word text rest named stops more ih =>
    rw [List.append_assoc]
    refine .name named ?_ ih
    cases text with
    | nil => exact apart
    | cons => exact stops
  | mark mark _ ih => exact .mark mark ih

end Writes

/-- A name or a mark. -/
def Plain : Lexeme → Prop
  | name _ | mark _ => True
  | spread | int _ | float _ | string _ => False

/-- What begins neither a name nor a mark nor what means nothing is no name and no mark. -/
private theorem readPiece_other {char : Char} (meant : ignored.contains char = false)
    (code : char ≠ '#') (other : isNameStart char = false) (mark : char ∉ marks) (rest : Text) :
    (readPiece char rest).1 = .fault ∨
      ∃ lexeme, (readPiece char rest).1 = .lexeme lexeme ∧ ¬ lexeme.Plain := by
  have own {lexeme : Lexeme} (other : ¬ lexeme.Plain) :
      ∃ same, Piece.lexeme lexeme = .lexeme same ∧ ¬ same.Plain := ⟨_, rfl, other⟩
  fun_cases readPiece char rest with
  | case1 _ _ ignores =>
    rw [meant] at ignores
    cases ignores
  | case2 => exact absurd rfl code
  | case3 _ _ _ _ starts => simp [starts] at other
  | case4 _ _ _ _ _ found => simp [mark] at found
  | case5 rest =>
    fun_cases readString rest with
    | case1 | case3 => exact .inr (own id)
    | case2 | case4 | case5 => exact .inl rfl
  | case6 char rest =>
    fun_cases readNumber (char :: rest) with
    | case1 | case2 => exact .inr (own id)
    | case3 => exact .inl rfl
  | case7 => exact .inr (own id)
  | case8 => exact .inl rfl

section Spliced

variable {front more : List Lexeme} {back : Text}

private theorem front_cons {lexeme : Lexeme} {others : List Lexeme}
    (said : lexeme :: others = front ++ .mark ')' :: more) (open' : lexeme ≠ .mark ')') :
    ∃ rest, front = lexeme :: rest ∧ others = rest ++ .mark ')' :: more := by
  cases front with
  | nil => exact absurd (List.cons.inj said).1 open'
  | cons first rest =>
    obtain ⟨rfl, others⟩ := List.cons.inj said
    exact ⟨rest, rfl, others⟩

private theorem front_eq_nil {others : List Lexeme} (open' : ∀ lexeme ∈ front, lexeme ≠ .mark ')')
    (said : .mark ')' :: others = front ++ .mark ')' :: more) : front = [] := by
  cases front with
  | nil => rfl
  | cons first rest =>
    have closes : first = .mark ')' := (List.cons.inj said).1.symm
    exact absurd closes (open' first List.mem_cons_self)

private theorem exists_word {char : Char} (starts : isNameStart char) (text : Text) :
    ∃ more later, text = more ++ later ∧ isName (char :: more) ∧
      later.head?.any Text.isWordChar = false := by
  refine ⟨text.takeWhile Text.isWordChar, text.dropWhile Text.isWordChar,
    List.takeWhile_append_dropWhile.symm, by simp [isName, starts], ?_⟩
  have stops := List.head?_dropWhile_not Text.isWordChar text
  cases next : (text.dropWhile Text.isWordChar).head? with
  | none => rfl
  | some => simpa [next] using stops

private theorem exists_comment (text : Text) :
    (∃ words last later, text = words ++ last :: later ∧
      (∀ char ∈ words, StringValue.isLineEnd char = false) ∧ StringValue.isLineEnd last) ∨
    ∀ char ∈ text, StringValue.isLineEnd char = false := by
  cases found : text.find? StringValue.isLineEnd with
  | none => exact .inr (by simpa using found)
  | some last =>
    obtain ⟨ends, words, later, rfl, inside⟩ := List.find?_eq_some_iff_append.mp found
    exact .inl ⟨words, last, later, rfl, by simpa using inside, ends⟩

/-- Names and marks that are read in front of a closing parenthesis that stands behind a text. -/
private structure Said (back : Text) (more front : List Lexeme) (text : Text) : Prop where
  plain : ∀ lexeme ∈ front, lexeme.Plain ∧ lexeme ≠ .mark ')'
  lexemes : Document.lexemesOf (content (text ++ ')' :: back)) = front ++ .mark ')' :: more
  sound : (content (text ++ ')' :: back)).all (· != .fault)

namespace Said

variable {text : Text} {char : Char}

private theorem of_blank (said : Said back more front (char :: text))
    (ignores : ignored.contains char) : Said back more front text := by
  obtain ⟨plain, lexemes, sound⟩ := said
  rw [List.cons_append, content_ignored ignores] at lexemes sound
  exact ⟨plain, lexemes, sound⟩

private theorem of_comment {words : Text} {last : Char}
    (said : Said back more front ('#' :: (words ++ last :: text)))
    (inside : ∀ char ∈ words, StringValue.isLineEnd char = false)
    (ends : StringValue.isLineEnd last) : Said back more front text := by
  obtain ⟨plain, lexemes, sound⟩ := said
  rw [List.cons_append, List.append_assoc, List.cons_append, content_comment inside ends]
    at lexemes sound
  exact ⟨plain, lexemes, sound⟩

private theorem not_endless (said : Said back more front ('#' :: text))
    (line : ∀ char ∈ back, StringValue.isLineEnd char = false) :
    ¬ ∀ char ∈ text, StringValue.isLineEnd char = false := by
  intro open'
  have whole : ∀ char ∈ text ++ ')' :: back, StringValue.isLineEnd char = false :=
    List.forall_mem_append.mpr ⟨open', List.forall_mem_cons.mpr ⟨by decide, line⟩⟩
  have swallowed := readPiece_comment whole [] rfl
  have lexemes := said.lexemes
  rw [List.append_nil] at swallowed
  rw [List.cons_append, content_cons, swallowed] at lexemes
  simp [Piece.content, Document.lexemesOf] at lexemes

private theorem of_name {word : Text} (said : Said back more front (word ++ text))
    (named : isName word) (apart : text.head?.any Text.isWordChar = false) :
    ∃ rest, front = .name word :: rest ∧ Said back more rest text := by
  obtain ⟨plain, lexemes, sound⟩ := said
  have behind : (text ++ ')' :: back).head?.any Text.isWordChar = false := by
    cases text with
    | nil => rfl
    | cons => exact apart
  rw [List.append_assoc, content_name named behind] at lexemes sound
  obtain ⟨rest, rfl, same⟩ := front_cons lexemes (by simp)
  exact ⟨rest, rfl, (List.forall_mem_cons.mp plain).2, same, sound⟩

private theorem of_mark (said : Said back more front (char :: text)) (mark : char ∈ marks)
    (other : char ≠ ')') : ∃ rest, front = .mark char :: rest ∧ Said back more rest text := by
  obtain ⟨plain, lexemes, sound⟩ := said
  rw [List.cons_append, content_mark mark] at lexemes sound
  obtain ⟨rest, rfl, same⟩ := front_cons lexemes (by simpa using other)
  exact ⟨rest, rfl, (List.forall_mem_cons.mp plain).2, same, sound⟩

private theorem eq_nil (said : Said back more front text)
    (closes : (text ++ [')']).head? = some ')') : front = [] := by
  obtain ⟨rest, same⟩ : ∃ rest, text ++ ')' :: back = ')' :: rest := by
    cases text with
    | nil => exact ⟨back, rfl⟩
    | cons char text =>
      cases closes
      exact ⟨text ++ ')' :: back, rfl⟩
  have lexemes := said.lexemes
  rw [same, content_mark (by decide)] at lexemes
  exact front_eq_nil (fun lexeme member => (said.plain lexeme member).2) lexemes

private theorem begins (said : Said back more front (char :: text)) :
    ignored.contains char ∨ char = '#' ∨ isNameStart char ∨ char ∈ marks := by
  by_contra! other
  obtain ⟨meant, code, starts, mark⟩ := other
  obtain ⟨plain, lexemes, sound⟩ := said
  rw [List.cons_append, content_cons] at lexemes sound
  rcases readPiece_other (by simpa using meant) code (by simpa using starts) mark
    (text ++ ')' :: back) with fault | ⟨lexeme, read, unwritten⟩
  · simp [fault, Piece.content] at sound
  · rw [read] at lexemes
    obtain ⟨rest, rfl, -⟩ := front_cons lexemes (by rintro rfl; exact unwritten trivial)
    exact unwritten (plain lexeme List.mem_cons_self).1

/-- They are written in front of that parenthesis, or in front of one in the text. -/
private theorem writes (line : ∀ char ∈ back, StringValue.isLineEnd char = false)
    (said : Said back more front text) :
    ∃ rest, Writes front text rest ∧ rest.head?.all (· == ')') := by
  induction long : text.length using Nat.strongRecOn generalizing text front with
  | ind length ih =>
    cases text with
    | nil =>
      obtain rfl := said.eq_nil rfl
      exact ⟨[], .nil [], rfl⟩
    | cons char text =>
      rw [List.length_cons] at long
      rcases said.begins with ignores | rfl | starts | mark
      · obtain ⟨rest, writes, ends⟩ := ih _ (by omega) (said.of_blank ignores) rfl
        exact ⟨rest, .blank ignores writes, ends⟩
      · rcases exists_comment text with ⟨words, last, later, rfl, inside, ends⟩ | open'
        · rw [List.length_append, List.length_cons] at long
          obtain ⟨rest, writes, ends'⟩ := ih _ (by omega) (said.of_comment inside ends) rfl
          exact ⟨rest, .comment inside ends writes, ends'⟩
        · exact absurd open' (said.not_endless line)
      · obtain ⟨word, later, rfl, named, apart⟩ := exists_word starts text
        rw [List.length_append] at long
        rw [← List.cons_append] at said ⊢
        obtain ⟨others, rfl, behind⟩ := said.of_name named apart
        obtain ⟨rest, writes, ends⟩ := ih _ (by omega) behind rfl
        exact ⟨rest, .name named apart writes, ends⟩
      · by_cases closes : char = ')'
        · subst closes
          obtain rfl := said.eq_nil rfl
          exact ⟨')' :: text, .nil _, rfl⟩
        · obtain ⟨others, rfl, behind⟩ := said.of_mark mark closes
          obtain ⟨rest, writes, ends⟩ := ih _ (by omega) behind rfl
          exact ⟨rest, .mark mark writes, ends⟩

end Said

/-- Names and marks that are read in front of a closing parenthesis are written in front of the
parenthesis that was put behind a text, or in front of one in the text. -/
theorem exists_writes (plain : ∀ lexeme ∈ front, lexeme.Plain ∧ lexeme ≠ .mark ')')
    (line : ∀ char ∈ back, StringValue.isLineEnd char = false) {text : Text}
    (said : Document.lexemesOf (content (text ++ ')' :: back)) = front ++ .mark ')' :: more)
    (sound : (content (text ++ ')' :: back)).all (· != .fault)) :
    ∃ rest, Writes front text rest ∧ rest.head?.all (· == ')') :=
  Said.writes line ⟨plain, said, sound⟩

end Spliced

end Lexeme

end RelayWorkbench.GraphQL
