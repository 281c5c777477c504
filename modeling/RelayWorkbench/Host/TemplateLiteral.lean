import RelayWorkbench.Host.Excerpt
import RelayWorkbench.Text.Letter

/-! Template literals of script files that are tagged as GraphQL.

`closing?` finds the backtick that ends a template body. It reads the body once, keeping the
constructs that are still open on a stack, so that templates and strings nested inside
`${ ... }` are passed over. `taggedTemplates` collects the bodies that follow a tag. -/

namespace RelayWorkbench.Host.TemplateLiteral

/-- A construct opened inside a template body and not yet closed. -/
inductive Frame where
  /-- A template literal nested in a substitution. -/
  | template
  /-- A substitution, or a pair of braces inside one. -/
  | braces
  /-- A string literal, with its quote. -/
  | quoted (quote : Char)
  deriving DecidableEq, Repr

/-- Number of characters before the backtick that closes the outermost template, whose body
the text continues; `frames` are the constructs open inside it, innermost first. -/
def closing? : List Frame → Text → Option Nat
  | _, [] => none
  | .quoted quote :: outer, char :: rest =>
    if char = '\\' then
      match rest with
      | [] => none
      | _ :: rest => (closing? (.quoted quote :: outer) rest).map (· + 2)
    else if char = quote then (closing? outer rest).map (· + 1)
    else if char = '\n' then none
    else (closing? (.quoted quote :: outer) rest).map (· + 1)
  | .braces :: outer, char :: rest =>
    let frames :=
      if char = '{' then .braces :: .braces :: outer
      else if char = '}' then outer
      else if char = '\x60' then .template :: .braces :: outer
      else if char = '\x27' || char = '"' then .quoted char :: .braces :: outer
      else .braces :: outer
    (closing? frames rest).map (· + 1)
  | frames, char :: rest =>
    if char = '\\' then
      match rest with
      | [] => none
      | _ :: rest => (closing? frames rest).map (· + 2)
    else if char = '\x60' then
      match frames with
      | [] => some 0
      | _ :: outer => (closing? outer rest).map (· + 1)
    else if char = '$' then
      match rest with
      | '{' :: rest => (closing? (.braces :: frames) rest).map (· + 2)
      | rest => (closing? frames rest).map (· + 1)
    else (closing? frames rest).map (· + 1)

/-- The tags that mark a template literal as GraphQL. -/
def tags : List Text := ["graphql.experimental".toList, "graphql".toList, "gql".toList]

/-- Whether a character before a tag makes it part of a longer word. -/
def extendsWord (char : Char) : Bool := Text.isAlphanumeric char || char == '_' || char == '$'

/-- Whether the text before a backtick, given backwards, ends with a tag that stands alone. -/
def endsWithTag (before : Text) : Bool :=
  tags.any fun tag =>
    tag.reverse.isPrefixOf before && !((before.drop tag.length).head?.any extendsWord)

/-- The non-empty bodies of tagged templates, in order. `before` is the text already read,
backwards, and `passing` counts the characters still to be passed over. A tagged template
that never closes ends the search. -/
def taggedFrom (before : Text) (offset passing : Nat) : Text → List Excerpt
  | [] => []
  | char :: rest =>
    let next := offset + char.utf8Size
    let later := fun passing => taggedFrom (char :: before) next passing rest
    match passing with
    | passing + 1 => later passing
    | 0 =>
      if char = '\x60' && endsWithTag before then
        match closing? [] rest with
        | none => []
        | some 0 => later 1
        | some count => Excerpt.startingAt next (rest.take count) :: later (count + 1)
      else later 0

def taggedTemplates (text : Text) : List Excerpt := taggedFrom [] 0 0 text

end RelayWorkbench.Host.TemplateLiteral
