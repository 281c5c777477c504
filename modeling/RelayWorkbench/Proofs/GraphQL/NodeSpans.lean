import RelayWorkbench.Proofs.GraphQL.Placement
import RelayWorkbench.Proofs.GraphQL.Trails
import RelayWorkbench.Proofs.GraphQL.Words
import RelayWorkbench.Proofs.Host.DisjointEdits

/-! The bytes of nodes. They begin and end with what is written there: no white space and no comma
is at either end, so there is nothing to trim. Selections are at bytes one after the other. -/

namespace RelayWorkbench

/-- A span without the white space and the commas at its ends. One that cuts through a character
stays as it is. -/
def Span.trimmed (text : Text) (span : Span) : Span :=
  match Text.slice? text span.start span.stop with
  | none => span
  | some slice =>
    let start := span.start + (slice.width - (Text.trimStartBy Text.isLayout slice).width)
    ⟨start, max (span.start + (Text.trimEndBy Text.isLayout slice).width) start⟩

/-- A span of a text that neither begins nor ends with layout. -/
def Span.Tight (text : Text) (span : Span) : Prop :=
  ∃ before middle after, text = before ++ middle ++ after ∧ middle.Tight ∧
    span = ⟨before.width, before.width + middle.width⟩

namespace Span.Tight

variable {text : Text} {first last : Span}

theorem trimmed_eq {span : Span} (tight : span.Tight text) : span.trimmed text = span := by
  obtain ⟨before, middle, after, rfl, inside, rfl⟩ := tight
  obtain ⟨char, rest, written, plain⟩ := inside.first
  have first : Text.trimStartBy Text.isLayout middle = middle := by
    rw [written, Text.trimStartBy, List.dropWhile_cons_of_neg (by simpa using plain)]
  obtain ⟨front, char, written, plain⟩ := inside.last
  have last : Text.trimEndBy Text.isLayout middle = middle := by
    rw [written, Text.trimEndBy, List.reverse_concat,
      List.dropWhile_cons_of_neg (by simpa using plain), ← List.reverse_concat,
      List.reverse_reverse]
  simp only [Span.trimmed, Text.slice?_append, first, last]
  simp

/-- A text with a tight span is written with something else than line feeds. -/
theorem exists_written {span : Span} (tight : span.Tight text) :
    ∃ char ∈ text, char ≠ '\n' := by
  obtain ⟨before, middle, after, rfl, inside, -⟩ := tight
  obtain ⟨char, rest, rfl, plain⟩ := inside.first
  refine ⟨char, by simp, ?_⟩
  rintro rfl
  exact absurd plain (by decide)

/-- From one tight span to a later one it is tight. -/
theorem through (tight : first.Tight text) (tightLast : last.Tight text)
    (order : first.start ≤ last.start) : Span.Tight text ⟨first.start, last.stop⟩ := by
  obtain ⟨before, middle, after, rfl, inside, rfl⟩ := tight
  obtain ⟨before', middle', after', same, insideLast, rfl⟩ := tightLast
  rw [List.append_assoc, List.append_assoc] at same
  obtain ⟨between, rfl, rest⟩ := Text.exists_between same order
  refine ⟨before, between ++ middle', after', ?_, ⟨?_, ?_⟩, ?_⟩
  · rw [List.append_assoc, List.append_assoc, List.append_assoc, rest]
  · cases between with
    | nil => exact insideLast.first
    | cons char more =>
      obtain ⟨other, others, rfl, plain⟩ := inside.first
      obtain rfl : other = char := (List.cons.inj rest).1
      exact ⟨other, more ++ middle', rfl, plain⟩
  · obtain ⟨front, char, rfl, plain⟩ := insideLast.last
    exact ⟨between ++ front, char, by simp, plain⟩
  · simp [Text.width_append, Nat.add_assoc]

end Span.Tight

namespace GraphQL

open Lexeme

private theorem tight_piecesFrom (fuel : Nat) (front text : Text) {lexeme : Lexeme} {span : Span}
    (placed : (.lexeme lexeme, span) ∈ piecesFrom fuel front.width text) :
    span.Tight (front ++ text) := by
  induction fuel generalizing front text with
  | zero => cases text <;> simp [piecesFrom] at placed
  | succ fuel ih =>
    cases text with
    | nil => simp [piecesFrom] at placed
    | cons char rest =>
      have parts := readPiece_append char rest
      simp only [piecesFrom, List.mem_cons] at placed
      rcases placed with here | later
      · obtain ⟨piece, rfl⟩ := Prod.mk.inj here
        exact ⟨front, _, _, by rw [List.append_assoc, parts], tight_readPiece piece.symm, rfl⟩
      · rw [← Text.width_append] at later
        have tight := ih _ _ later
        rwa [List.append_assoc, parts] at tight

namespace Document

theorem tight_of_mem_lexemeSpans {text : Text} {span : Span} (member : span ∈ lexemeSpans text) :
    span.Tight text := by
  obtain ⟨⟨lexeme, place⟩, placed, rfl⟩ := List.mem_map.mp member
  obtain ⟨⟨piece, other⟩, present, same⟩ := List.mem_filterMap.mp placed
  cases piece <;> simp at same
  obtain ⟨rfl, rfl⟩ := same
  exact tight_piecesFrom text.length [] text present

/-- The bytes of one or more lexemes are tight. -/
theorem tight_of_locate {text : Text} {start stop : Nat} {target : Span} (ordered : start < stop)
    (located : locate (lexemeSpans text).toArray (some ⟨start, stop⟩) = some target) :
    target.Tight text := by
  obtain ⟨first, last, found, foundLast, rfl⟩ := locate_eq_some_iff.mp located
  exact (tight_of_mem_lexemeSpans (List.mem_of_getElem? found)).through
    (tight_of_mem_lexemeSpans (List.mem_of_getElem? foundLast))
    ((inOrder text).starts_le (Nat.le_sub_one_of_lt ordered) found foundLast)

theorem exists_locate {text : Text} {start stop : Nat} (ordered : start < stop)
    (within : stop ≤ (lexemesOf (content text)).length) :
    ∃ target, locate (lexemeSpans text).toArray (some ⟨start, stop⟩) = some target := by
  have length := (inOrder text).length
  exact ⟨_, locate_eq_some_iff.mpr ⟨_, _, List.getElem?_eq_getElem (by omega),
    List.getElem?_eq_getElem (by omega), rfl⟩⟩

section Nodes

variable {text : Text} {document : Document} {path : List Nat} {node : Node}

/-- Every node of a parsed document is at known bytes. -/
theorem exists_span_of_parse? (parsed : parse? text = some document)
    (reached : document.nodeAt? path = some node) :
    ∃ span, node.span = some span ∧ span.Tight text ∧ span.start < span.stop := by
  obtain ⟨start, opens, stop, stands⟩ := (allStand_of_parse? parsed).of_nodeAt? reached
  have wide := stands.frame.wide
  obtain ⟨span, located⟩ := exists_locate wide stands.frame.within
  exact ⟨span, stands.frame.spanned.trans located, tight_of_locate wide located,
    locate_wide (inOrder text) wide located⟩

theorem nodeAt?_concat {selections : List Selection} {index : Nat} {selection : Selection}
    (reached : document.nodeAt? path = some node) (owned : node.selections? = some selections)
    (found : selections[index]? = some selection) :
    document.nodeAt? (path ++ [index]) = some (Node.ofSelection selection) := by
  rw [nodeAt?_append (ne_nil_of_nodeAt? reached), reached, Option.bind_some,
    Node.descend?_cons owned found]
  rfl

/-- The selections of a node of a parsed document end before the next ones begin. -/
theorem selections_pairwise_of_parse? {selections : List Selection}
    (parsed : parse? text = some document) (reached : document.nodeAt? path = some node)
    (owned : node.selections? = some selections) :
    (selections.filterMap Selection.span).Pairwise (·.stop ≤ ·.start) := by
  obtain ⟨start, opens, stop, stands⟩ := (allStand_of_parse? parsed).of_nodeAt? reached
  rw [List.pairwise_filterMap, List.pairwise_iff_getElem]
  intro index other bound boundOther less span spanned later spannedLater
  obtain ⟨middle, early, late⟩ := (stands.inside selections owned).split
    (List.getElem?_eq_getElem bound) (List.getElem?_eq_getElem boundOther) less
  obtain ⟨_, _, _, own⟩ := early.node
  obtain ⟨_, _, _, behind⟩ := late.node
  have located := own.frame.spanned
  have locatedLater := behind.frame.spanned
  rw [Node.span_ofSelection, spanned] at located
  rw [Node.span_ofSelection, spannedLater] at locatedLater
  exact stop_le_start_of_locate (inOrder text) own.frame.wide
    (Nat.le_trans own.frame.within behind.frame.after) located.symm locatedLater.symm

end Nodes

end Document

end GraphQL

end RelayWorkbench
