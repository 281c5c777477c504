import RelayWorkbench.Text.Basic

/-! Values of configuration languages. -/

namespace RelayWorkbench.Markup

/-- A value. A map keeps its entries in order and may repeat a key. -/
inductive Datum where
  | null
  | boolean (value : Bool)
  /-- A natural number below 2 ^ 64. -/
  | whole (value : Nat)
  /-- Any other number, as it was written. -/
  | number (written : Text)
  | text (value : Text)
  | list (items : List Datum)
  | map (entries : List (Datum × Datum))

namespace Datum

mutual

/-- How many lists and maps stand inside each other. -/
def depth : Datum → Nat
  | list items => depthOfItems items + 1
  | map entries => depthOfEntries entries + 1
  | _ => 0

/-- The depth of the deepest item. -/
def depthOfItems : List Datum → Nat
  | [] => 0
  | item :: rest => max item.depth (depthOfItems rest)

/-- The depth of the deepest key or value. -/
def depthOfEntries : List (Datum × Datum) → Nat
  | [] => 0
  | (key, value) :: rest => max (max key.depth value.depth) (depthOfEntries rest)

end

end Datum

end RelayWorkbench.Markup
