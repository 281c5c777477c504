import RelayWorkbench.Host.Excerpt
import RelayWorkbench.Text.Letter

/-! Quoted blocks `{| ... |}` of Reason files. A block carries GraphQL when the gap between
it and the block before holds an extension point for GraphQL. -/

namespace RelayWorkbench.Host.QuotedBlock

/-- Whether the text begins with an extension point that announces GraphQL: `[%graphql` as a
whole word, or `[%relay.` with a word after it. -/
def startsExtensionPoint (text : Text) : Bool :=
  let graphql := "[%graphql".toList
  let relay := "[%relay.".toList
  (graphql.isPrefixOf text && !(text.drop graphql.length).head?.any Text.isWordChar) ||
    (relay.isPrefixOf text && (text.drop relay.length).head?.any Text.isWordChar)

/-- Whether an extension point for GraphQL stands anywhere in a gap. -/
def announces : Text → Bool
  | [] => false
  | char :: rest => startsExtensionPoint (char :: rest) || announces rest

/-- The announced, non-empty blocks of a text that starts at `offset`; `fuel` bounds their
number. A block that never closes yields nothing. -/
def announcedFrom : Nat → Nat → Text → List Excerpt
  | 0, _, _ => []
  | fuel + 1, offset, text =>
    match Text.cut? "\x7b|".toList text with
    | none => []
    | some (gap, inside) =>
      match Text.cut? "|\x7d".toList inside with
      | none => []
      | some (body, rest) =>
        let start := offset + gap.width + 2
        let later := announcedFrom fuel (start + body.width + 2) rest
        if announces gap && !body.isEmpty then Excerpt.startingAt start body :: later else later

def announcedBlocks (text : Text) : List Excerpt := announcedFrom text.length 0 text

end RelayWorkbench.Host.QuotedBlock
