import RelayWorkbench.Markup.Yaml.Node

/-! YAML texts. -/

namespace RelayWorkbench.Markup.Yaml

/-- Whether a character may stand in a text. -/
def isAllowed (char : Char) : Bool :=
  ['\t', '\n', '\r', '\u0085'].contains char ||
    (0x20 ≤ char.toNat && char.toNat ≠ 0xFFFE && char.toNat ≠ 0xFFFF &&
      !(0x7F ≤ char.toNat && char.toNat < 0xA0))

/-- The text with a line feed at the end of every line. -/
def normalizeBreaks : Text → Text
  | [] => []
  | '\r' :: '\n' :: rest => '\n' :: normalizeBreaks rest
  | char :: rest => (if char = '\r' || char = '\u0085' then '\n' else char) :: normalizeBreaks rest

/-- How deep lists and maps may stand inside each other. -/
def depthLimit : Nat := 128

/-- The value of a text that holds one document. A byte order mark may come first. -/
def parse? (text : Text) : Option Datum := do
  let text := match text with
    | '\uFEFF' :: rest => rest
    | text => text
  if !text.all isAllowed then none
  let text := normalizeBreaks text
  if (Place.next ⟨text, 0, 0, true⟩ false).rest.isEmpty then none
  let (datum, _) ← Reading.document.run { rest := text }
  if datum.depth ≤ depthLimit then some datum else none

end RelayWorkbench.Markup.Yaml
