import RelayWorkbench.Proofs.GraphQL.Content
import RelayWorkbench.Proofs.GraphQL.Names
import RelayWorkbench.Proofs.GraphQL.ReadingNests

/-! The places of a parsed document. The lexemes of a text start one after the other, and two names
never touch, as a name is read to its last word character. So nodes that start at different lexemes
stand at different bytes. -/

namespace RelayWorkbench.GraphQL

namespace Lexeme

def Piece.isName : Piece → Bool
  | .lexeme (.name _) => true
  | _ => false

private theorem isName_readString (text : Text) : (readString text).1.isName = false := by
  fun_cases readString text <;> rfl

private theorem isName_readNumber (text : Text) : (readNumber text).1.isName = false := by
  fun_cases readNumber text with
  | case1 => rfl
  | case2 => rfl
  | case3 => rfl

private theorem readPiece_name {char : Char} {rest : Text}
    (named : (readPiece char rest).1.isName) :
    isNameStart char ∧ (readPiece char rest).2.2.head?.any Text.isWordChar = false := by
  revert named
  fun_cases readPiece char rest with
  | case3 _ _ _ _ starts more after read =>
    intro
    cases read
    refine ⟨starts, ?_⟩
    have ends := List.head?_dropWhile_not Text.isWordChar rest
    cases next : (rest.dropWhile Text.isWordChar).head? with
    | none => rfl
    | some char => simpa [next] using ends
  | case5 rest => simp [isName_readString]
  | case6 => simp [isName_readNumber]
  | case1 | case2 | case4 | case7 | case8 => simp [Piece.isName]

private theorem piecesFrom_bounds (fuel offset : Nat) (text : Text) :
    ∀ placed ∈ piecesFrom fuel offset text,
      offset ≤ placed.2.start ∧ placed.2.start < placed.2.stop := by
  induction fuel generalizing offset text with
  | zero => cases text <;> simp [piecesFrom]
  | succ fuel ih =>
    cases text with
    | nil => simp [piecesFrom]
    | cons char rest =>
      have wide := Text.width_pos (readPiece_written char rest)
      simp only [piecesFrom, List.mem_cons]
      rintro placed (rfl | member)
      · exact ⟨Nat.le_refl _, Nat.lt_add_of_pos_right wide⟩
      · obtain ⟨after, wide⟩ := ih _ _ placed member
        exact ⟨by omega, wide⟩

/-- Where no word character comes next, something stands before the next name. -/
private theorem piecesFrom_name {fuel offset : Nat} {text : Text}
    (apart : text.head?.any Text.isWordChar = false) :
    ∀ placed ∈ piecesFrom fuel offset text, placed.1.isName → offset < placed.2.start := by
  cases text with
  | nil => simp [piecesFrom]
  | cons char rest =>
    cases fuel with
    | zero => simp [piecesFrom]
    | succ fuel =>
      have wide := Text.width_pos (readPiece_written char rest)
      simp only [piecesFrom, List.mem_cons]
      rintro placed (rfl | member) named
      · simp [isWordChar_of_isNameStart (readPiece_name named).1] at apart
      · have after :=
          piecesFrom_bounds fuel (offset + (readPiece char rest).2.1.width) _ placed member
        omega

/-- The second piece starts behind the first, and not right behind it when both are names. -/
private def Follows (first second : Piece × Span) : Prop :=
  first.2.stop ≤ second.2.start ∧
    (first.1.isName → second.1.isName → first.2.stop < second.2.start)

private theorem piecesFrom_follow (fuel offset : Nat) (text : Text) :
    (piecesFrom fuel offset text).Pairwise Follows := by
  induction fuel generalizing offset text with
  | zero => cases text <;> simp [piecesFrom]
  | succ fuel ih =>
    cases text with
    | nil => simp [piecesFrom]
    | cons char rest =>
      simp only [piecesFrom, List.pairwise_cons]
      refine ⟨fun placed member => ⟨(piecesFrom_bounds _ _ _ placed member).1, ?_⟩, ih ..⟩
      exact fun named => piecesFrom_name (readPiece_name named).2 placed member

end Lexeme

namespace Document

open Lexeme

/-- Lexemes with the bytes they stand at: one after the other, and two names never touch. -/
structure InOrder (lexemes : List Lexeme) (spans : List Span) : Prop where
  length : spans.length = lexemes.length
  wide : ∀ span ∈ spans, span.start < span.stop
  apart : ∀ {near far : Nat} {first second : Span}, near < far → spans[near]? = some first →
    spans[far]? = some second → first.stop ≤ second.start
  named : ∀ {near far : Nat} {first second : Span} {name other : Name}, near < far →
    spans[near]? = some first → spans[far]? = some second → lexemes[near]? = some (.name name) →
      lexemes[far]? = some (.name other) → first.stop < second.start

namespace InOrder

variable {lexemes : List Lexeme} {spans : List Span} {near far : Nat} {first second : Span}

/-- Later lexemes start later and end later. -/
private theorem ordered (order : InOrder lexemes spans) (placed : near ≤ far)
    (found : spans[near]? = some first) (foundLater : spans[far]? = some second) :
    first.start ≤ second.start ∧ first.stop ≤ second.stop := by
  rcases Nat.eq_or_lt_of_le placed with rfl | less
  · obtain rfl : first = second := Option.some.inj (found.symm.trans foundLater)
    exact ⟨Nat.le_refl _, Nat.le_refl _⟩
  · have wide := order.wide first (List.mem_of_getElem? found)
    have wideLater := order.wide second (List.mem_of_getElem? foundLater)
    have apart := order.apart less found foundLater
    omega

theorem starts_le (order : InOrder lexemes spans) (placed : near ≤ far)
    (found : spans[near]? = some first) (foundLater : spans[far]? = some second) :
    first.start ≤ second.start :=
  (order.ordered placed found foundLater).1

theorem stops_le (order : InOrder lexemes spans) (placed : near ≤ far)
    (found : spans[near]? = some first) (foundLater : spans[far]? = some second) :
    first.stop ≤ second.stop :=
  (order.ordered placed found foundLater).2

end InOrder

private theorem placedLexemes_follow (text : Text) :
    (placedLexemes (pieces text)).Pairwise fun first second =>
      Follows (.lexeme first.1, first.2) (.lexeme second.1, second.2) := by
  refine List.Pairwise.filterMap _ ?_ (piecesFrom_follow text.length 0 text)
  rintro ⟨piece, span⟩ ⟨piece', span'⟩ follows placed same placed' same'
  cases piece <;> simp at same
  cases piece' <;> simp at same'
  subst same same'
  exact follows

private theorem placedLexemes_wide (text : Text) :
    ∀ placed ∈ placedLexemes (pieces text), placed.2.start < placed.2.stop := by
  intro placed member
  obtain ⟨⟨piece, span⟩, present, same⟩ := List.mem_filterMap.mp member
  cases piece <;> simp at same
  subst same
  exact (piecesFrom_bounds text.length 0 text _ present).2

/-- The lexemes of a text are in order. -/
theorem inOrder (text : Text) : InOrder (lexemesOf (content text)) (lexemeSpans text) := by
  rw [← lexemes_eq, lexemeSpans]
  have follow : ∀ {near far : Nat} {first second : Lexeme × Span}, near < far →
      (placedLexemes (pieces text))[near]? = some first →
        (placedLexemes (pieces text))[far]? = some second →
          Follows (.lexeme first.1, first.2) (.lexeme second.1, second.2) := by
    intro near far first second less found foundLater
    obtain ⟨bound, rfl⟩ := List.getElem?_eq_some_iff.mp found
    obtain ⟨boundLater, rfl⟩ := List.getElem?_eq_some_iff.mp foundLater
    exact List.pairwise_iff_getElem.mp (placedLexemes_follow text) _ _ bound boundLater less
  refine ⟨by simp, ?_, ?_, ?_⟩
  · exact List.forall_mem_map.mpr (placedLexemes_wide text)
  · intro near far first second less found foundLater
    rw [List.getElem?_map] at found foundLater
    obtain ⟨placed, there, rfl⟩ := Option.map_eq_some_iff.mp found
    obtain ⟨later, thereLater, rfl⟩ := Option.map_eq_some_iff.mp foundLater
    exact (follow less there thereLater).1
  · intro near far first second name other less found foundLater named namedLater
    rw [List.getElem?_map] at found foundLater named namedLater
    obtain ⟨placed, there, rfl⟩ := Option.map_eq_some_iff.mp found
    obtain ⟨later, thereLater, rfl⟩ := Option.map_eq_some_iff.mp foundLater
    simp only [there, thereLater, Option.map_some, Option.some.injEq] at named namedLater
    exact (follow less there thereLater).2 (by simp [named, Piece.isName])
      (by simp [namedLater, Piece.isName])

/-- The bytes of some lexemes reach from the first to the last one. -/
theorem locate_eq_some_iff {spans : List Span} {start stop : Nat} {target : Span} :
    locate spans.toArray (some ⟨start, stop⟩) = some target ↔
      ∃ first last, spans[start]? = some first ∧ spans[stop - 1]? = some last ∧
        target = ⟨first.start, last.stop⟩ := by
  simp only [locate, List.getElem?_toArray, Option.bind_eq_bind, Option.bind_eq_some_iff,
    Option.pure_def, Option.some.injEq]
  constructor
  · rintro ⟨first, found, last, foundLast, same⟩
    exact ⟨first, last, found, foundLast, same.symm⟩
  · rintro ⟨first, last, found, foundLast, same⟩
    exact ⟨first, found, last, foundLast, same.symm⟩

theorem locate_wide {lexemes : List Lexeme} {spans : List Span} (order : InOrder lexemes spans)
    {start stop : Nat} (ordered : start < stop) {target : Span}
    (located : locate spans.toArray (some ⟨start, stop⟩) = some target) :
    target.start < target.stop := by
  obtain ⟨first, last, found, foundLast, rfl⟩ := locate_eq_some_iff.mp located
  have starts := order.starts_le (Nat.le_sub_one_of_lt ordered) found foundLast
  exact Nat.lt_of_le_of_lt starts (order.wide last (List.mem_of_getElem? foundLast))

/-- Some lexemes end before later ones start. -/
theorem stop_le_start_of_locate {lexemes : List Lexeme} {spans : List Span}
    (order : InOrder lexemes spans) {start stop begin ends : Nat} {target later : Span}
    (ordered : start < stop) (behind : stop ≤ begin)
    (located : locate spans.toArray (some ⟨start, stop⟩) = some target)
    (locatedLater : locate spans.toArray (some ⟨begin, ends⟩) = some later) :
    target.stop ≤ later.start := by
  obtain ⟨-, last, -, foundLast, rfl⟩ := locate_eq_some_iff.mp located
  obtain ⟨first, -, found, -, rfl⟩ := locate_eq_some_iff.mp locatedLater
  have less : stop - 1 < begin := by omega
  have apart := order.apart less foundLast found
  exact apart

/-- Lexemes of a text at the same bytes are the same lexeme. -/
theorem locate_keepsStarts (text : Text) :
    Respan.KeepsStarts (locate (lexemeSpans text).toArray) := by
  intro place other target located locatedOther
  obtain ⟨span, _, found, -, starts⟩ := locate_eq_some_iff.mp located
  obtain ⟨span', _, found', -, starts'⟩ := locate_eq_some_iff.mp locatedOther
  have same : span.start = span'.start := (Span.mk.inj (starts.symm.trans starts')).1
  have wide := (inOrder text).wide span (List.mem_of_getElem? found)
  have wide' := (inOrder text).wide span' (List.mem_of_getElem? found')
  rcases Nat.lt_trichotomy place.start other.start with less | equal | more
  · have := (inOrder text).apart less found found'
    omega
  · exact equal
  · have := (inOrder text).apart more found' found
    omega

/-- The nodes of a parsed document stand where their lexemes do. -/
theorem allStand_of_parse? {text : Text} {document : Document}
    (parsed : parse? text = some document) :
    Definition.AllStand (lexemesOf (content text)) (locate (lexemeSpans text).toArray) 0
      document.definitions := by
  rw [parse?_eq] at parsed
  obtain ⟨unplaced, read, rfl⟩ := Option.map_eq_some_iff.mp parsed
  refine Definition.AllStand.respan _ ?_
  simp only [ofContent?] at read
  split at read
  · next clean =>
    cases read
    simp only [Bool.and_eq_true] at clean
    exact Reading.read_allStand clean.1
  · cases read

/-- The owners of a parsed document stand apart. -/
theorem ownersApart_of_parse? {text : Text} {document : Document}
    (parsed : parse? text = some document) : document.OwnersApart :=
  ownersApart_of_allStand (locate_keepsStarts text) (allStand_of_parse? parsed)

end Document

end RelayWorkbench.GraphQL
