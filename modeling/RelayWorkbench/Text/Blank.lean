import RelayWorkbench.Text.Basic

/-! White space in the sense of the Unicode property `White_Space`, and trimming by it. -/

namespace RelayWorkbench.Text

/-- The code points with the property `White_Space`, as closed intervals. -/
def blankIntervals : List (Nat × Nat) :=
  [(0x09, 0x0D), (0x20, 0x20), (0x85, 0x85), (0xA0, 0xA0), (0x1680, 0x1680), (0x2000, 0x200A),
   (0x2028, 0x2029), (0x202F, 0x202F), (0x205F, 0x205F), (0x3000, 0x3000)]

def isBlank (char : Char) : Bool :=
  blankIntervals.any fun (first, last) => first ≤ char.toNat && char.toNat ≤ last

/-- The text after its leading run of characters satisfying `ignored`. -/
def trimStartBy (ignored : Char → Bool) (text : Text) : Text := text.dropWhile ignored

/-- The text before its trailing run of characters satisfying `ignored`. -/
def trimEndBy (ignored : Char → Bool) (text : Text) : Text :=
  (text.reverse.dropWhile ignored).reverse

def leadingBlank (text : Text) : Text := text.takeWhile isBlank

def trailingBlank (text : Text) : Text := (text.reverse.takeWhile isBlank).reverse

def trimStart (text : Text) : Text := trimStartBy isBlank text

def trimEnd (text : Text) : Text := trimEndBy isBlank text

def trim (text : Text) : Text := trimEnd (trimStart text)

/-- The text without any white space or comma: what is left of GraphQL when layout does not
count. -/
def squash (text : Text) : Text := text.filter fun char => !isBlank char && char != ','

/-- The complaint that `needle` is not found in `text`. -/
def notFoundMessage (needle text : Text) : String :=
  s!"expected to find\n{String.ofList needle}\nin\n{String.ofList text}"

end RelayWorkbench.Text
