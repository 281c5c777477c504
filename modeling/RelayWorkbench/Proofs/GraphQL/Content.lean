import RelayWorkbench.GraphQL.Document.Parser
import RelayWorkbench.Proofs.GraphQL.Pieces
import RelayWorkbench.Proofs.Text.Cutting

/-! What a text says is its pieces without the ignored ones. Two texts with the same content are
both documents or neither is, and if they are, they differ only in where their nodes stand. -/

namespace RelayWorkbench.GraphQL

namespace Lexeme

/-- The pieces of a text that mean something, in order. -/
def content (text : Text) : List Piece := ((pieces text).map (·.1)).filter (· != .ignored)

/-- What a piece adds to the content. -/
def Piece.content (piece : Piece) : List Piece := if piece = .ignored then [] else [piece]

private theorem piecesFrom_map (fuel first second : Nat) (text : Text) :
    (piecesFrom fuel first text).map (·.1) = (piecesFrom fuel second text).map (·.1) := by
  induction fuel generalizing first second text with
  | zero => cases text <;> rfl
  | succ fuel ih =>
    cases text with
    | nil => rfl
    | cons char rest =>
      simp only [piecesFrom, List.map_cons]
      rw [ih (first + _) (second + _)]

@[simp] theorem content_nil : content [] = [] := rfl

theorem content_cons (char : Char) (rest : Text) :
    content (char :: rest) =
      (readPiece char rest).1.content ++ content (readPiece char rest).2.2 := by
  have later : (piecesAt (0 + (readPiece char rest).2.1.width) (readPiece char rest).2.2).map
      (·.1) = (piecesAt 0 (readPiece char rest).2.2).map (·.1) := piecesFrom_map ..
  simp only [content, pieces_eq_piecesAt, piecesAt_cons, List.map_cons, List.filter_cons, later]
  by_cases ignored : (readPiece char rest).1 = .ignored <;> simp [Piece.content, ignored]

theorem content_ignored {char : Char} (ignores : ignored.contains char) (rest : Text) :
    content (char :: rest) = content rest := by
  have piece : readPiece char rest = (.ignored, [char], rest) := by
    simp only [readPiece, if_pos ignores]
  simp [content_cons, piece, Piece.content]

theorem content_mark {char : Char} (mark : char ∈ marks) (rest : Text) :
    content (char :: rest) = .lexeme (.mark char) :: content rest := by
  have plain : ∀ char ∈ marks, char ∉ ignored ∧ char ≠ '#' ∧ isNameStart char = false :=
    Text.forall_of_all (by decide +kernel)
  obtain ⟨meant, code, other⟩ := plain char mark
  have piece : readPiece char rest = (.lexeme (.mark char), [char], rest) := by
    simp [readPiece, meant, code, other, mark]
  simp [content_cons, piece, Piece.content]

theorem isNameStart_plain {char : Char} (starts : isNameStart char) :
    ignored.contains char = false ∧ char ≠ '#' := by
  constructor
  · refine Bool.eq_false_iff.mpr fun ignores => ?_
    have apart : ∀ char ∈ ignored, isNameStart char = false :=
      Text.forall_of_all (by decide +kernel)
    rw [apart char (by simpa using ignores)] at starts
    cases starts
  · rintro rfl
    exact absurd starts (by decide +kernel)

theorem content_name {word rest : Text} (named : isName word)
    (ends : rest.head?.any Text.isWordChar = false) :
    content (word ++ rest) = .lexeme (.name word) :: content rest := by
  cases word with
  | nil => cases named
  | cons char more =>
    obtain ⟨starts, goesOn⟩ : isNameStart char ∧ ∀ letter ∈ more, Text.isWordChar letter := by
      simpa [isName] using named
    obtain ⟨meant, code⟩ := isNameStart_plain starts
    have stop : rest.takeWhile Text.isWordChar = [] ∧ rest.dropWhile Text.isWordChar = rest := by
      cases rest with
      | nil => exact ⟨rfl, rfl⟩
      | cons next rest =>
        have ends : Text.isWordChar next = false := ends
        simp [ends]
    have piece : readPiece char (more ++ rest) =
        (.lexeme (.name (char :: more)), char :: more, rest) := by
      simp only [readPiece, meant, code, starts, Text.run, Bool.false_eq_true, if_false, if_true,
        List.takeWhile_append_of_pos goesOn, List.dropWhile_append_of_pos goesOn, stop,
        List.append_nil]
    rw [List.cons_append, content_cons, piece]
    rfl

/-- A text spells some lexemes, if what stands behind it does not go on with a word. -/
def Spells (text : Text) (lexemes : List Lexeme) : Prop :=
  ∀ rest : Text, rest.head?.any Text.isWordChar = false →
    content (text ++ rest) = lexemes.map .lexeme ++ content rest

namespace Spells

variable {text first second : Text} {lexemes front back : List Lexeme}

theorem content_eq (spells : Spells text lexemes) : content text = lexemes.map .lexeme := by
  have whole := spells [] rfl
  rwa [List.append_nil, content_nil, List.append_nil] at whole

theorem nil : Spells [] [] := fun _ _ => rfl

theorem mark {char : Char} (mark : char ∈ marks) (spells : Spells text lexemes) :
    Spells (char :: text) (.mark char :: lexemes) := by
  intro rest ends
  rw [List.cons_append, content_mark mark, spells rest ends]
  rfl

theorem blank {char : Char} (ignores : ignored.contains char) (spells : Spells text lexemes) :
    Spells (char :: text) lexemes := by
  intro rest ends
  rw [List.cons_append, content_ignored ignores, spells rest ends]

theorem blanks {white : Text} (ignores : ∀ char ∈ white, ignored.contains char)
    (spells : Spells text lexemes) : Spells (white ++ text) lexemes := by
  induction white with
  | nil => exact spells
  | cons char more ih =>
    obtain ⟨own, others⟩ := List.forall_mem_cons.mp ignores
    exact (ih others).blank own

theorem append (spells : Spells first front) (more : Spells second back)
    (apart : second.head?.any Text.isWordChar = false) :
    Spells (first ++ second) (front ++ back) := by
  intro rest ends
  have behind : (second ++ rest).head?.any Text.isWordChar = false := by
    cases second with
    | nil => exact ends
    | cons char more => exact apart
  rw [List.append_assoc, spells _ behind, more rest ends, List.map_append, List.append_assoc]

theorem name {word : Text} (named : isName word) (apart : text.head?.any Text.isWordChar = false)
    (spells : Spells text lexemes) : Spells (word ++ text) (.name word :: lexemes) := by
  have own : Spells word [.name word] := fun _ ends => content_name named ends
  exact own.append spells apart

end Spells

end Lexeme

namespace Document

open Lexeme

/-- The lexemes of some pieces. -/
def lexemesOf (pieces : List Piece) : List Lexeme :=
  pieces.filterMap fun
    | .lexeme lexeme => some lexeme
    | _ => none

@[simp] theorem lexemesOf_lexeme (lexeme : Lexeme) (pieces : List Piece) :
    lexemesOf (.lexeme lexeme :: pieces) = lexeme :: lexemesOf pieces := rfl

@[simp] theorem lexemesOf_append (front back : List Piece) :
    lexemesOf (front ++ back) = lexemesOf front ++ lexemesOf back := List.filterMap_append

@[simp] theorem lexemesOf_map (lexemes : List Lexeme) :
    lexemesOf (lexemes.map .lexeme) = lexemes := by
  simp [lexemesOf, List.filterMap_map]

theorem mem_lexemesOf {lexeme : Lexeme} {pieces : List Piece} :
    lexeme ∈ lexemesOf pieces ↔ .lexeme lexeme ∈ pieces := by
  rw [lexemesOf, List.mem_filterMap]
  constructor
  · rintro ⟨piece, member, same⟩
    cases piece <;> cases same
    exact member
  · exact fun member => ⟨_, member, rfl⟩

theorem lexemes_eq (text : Text) :
    (placedLexemes (pieces text)).map (·.1) = lexemesOf (content text) := by
  simp only [content, placedLexemes, lexemesOf, List.map_filterMap, List.filterMap_filter,
    List.filterMap_map]
  congr 1
  funext ⟨piece, span⟩
  cases piece <;> rfl

private theorem isLexed_eq (text : Text) :
    isLexed (pieces text) = (content text).all (· != .fault) := by
  simp only [isLexed, content, List.all_filter, List.all_map]
  congr 1
  funext ⟨piece, span⟩
  cases piece <;> rfl

theorem hasComments_eq (text : Text) :
    hasComments text = (content text).any fun
      | .comment _ => true
      | _ => false := by
  simp only [hasComments, comments, content, List.any_filter, List.any_map]
  generalize pieces text = pieces
  induction pieces with
  | nil => rfl
  | cons first rest ih =>
    obtain ⟨piece, span⟩ := first
    cases piece <;> simp_all

/-- Whether a content is that of a document, and of which. -/
def ofContent? (content : List Piece) : Option Document :=
  let (document, clean) := read (lexemesOf content)
  if clean && content.all (· != .fault) then some document else none

/-- The bytes of the lexemes of a text. -/
def lexemeSpans (text : Text) : List Span := (placedLexemes (pieces text)).map (·.2)

theorem parse?_eq (text : Text) :
    parse? text =
      (ofContent? (content text)).map (·.respan (locate (lexemeSpans text).toArray)) := by
  simp only [parse?, lexemes_eq, isLexed_eq, ofContent?, lexemeSpans]
  split <;> rfl

theorem recover_eq (text : Text) :
    recover text =
      (read (lexemesOf (content text))).1.respan (locate (lexemeSpans text).toArray) := by
  simp only [recover, lexemes_eq, lexemeSpans]

end Document

end RelayWorkbench.GraphQL
