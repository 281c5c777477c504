import RelayWorkbench.Host.Edit
import RelayWorkbench.Text.LineIndex

/-! Host documents revised by edits. All edits speak of the document as it was: they are carried
out from its end to its start, so that none moves what another one is about. -/

namespace RelayWorkbench.Host

/-- Why a document is not revised. -/
inductive Obstacle where
  /-- A position lies outside the document. -/
  | outside (position : Position)
  | trapped (trap : Trap)
  deriving DecidableEq, Repr

/-- An edit by offsets of the document. -/
structure Replacement where
  span : Span
  newText : Text
  deriving DecidableEq, Repr

namespace Replacement

/-- The edit by the offsets of its ends. -/
def ofEdit (index : LineIndex) (edit : TextEdit) : Except Obstacle Replacement := do
  let offset := fun (position : Position) =>
    match index.offset? position.line.toNat position.character.toNat with
    | .ok (some offset) => Except.ok offset
    | .ok none => Except.error (.outside position)
    | .error trap => Except.error (.trapped trap)
  return ⟨⟨← offset edit.range.start, ← offset edit.range.stop⟩, edit.newText⟩

/-- The text with a span replaced, unless the span is not one of its stretches. -/
def resultIn? (replacement : Replacement) (text : Text) : Option Text := do
  if replacement.span.stop < replacement.span.start then none
  let (before, rest) ← Text.splitAt? replacement.span.start text
  let (_, after) ← Text.splitAt? (replacement.span.stop - replacement.span.start) rest
  return before ++ replacement.newText ++ after

/-- Later starts first; edits that start together stay in order. -/
def fromTheEnd (replacements : List Replacement) : List Replacement :=
  replacements.mergeSort fun first second => second.span.start ≤ first.span.start

end Replacement

/-- The text with all edits carried out. -/
def revise (text : Text) (edits : List TextEdit) : Except Obstacle Text := do
  let index := LineIndex.ofText text
  let replacements ← edits.mapM (Replacement.ofEdit index)
  (Replacement.fromTheEnd replacements).foldlM (fun revised replacement =>
    match replacement.resultIn? revised with
    | some revised => .ok revised
    | none => .error (.trapped .slice)) text

end RelayWorkbench.Host
