import RelayWorkbench.Host.Language
import RelayWorkbench.Host.QuotedBlock
import RelayWorkbench.Host.TemplateLiteral
import RelayWorkbench.Text.LineIndex

/-! The GraphQL regions of a host document, and the region a position belongs to. -/

namespace RelayWorkbench.Host

/-- A stretch of GraphQL. -/
inductive Region where
  /-- The whole document is GraphQL. -/
  | document (content : Text)
  /-- GraphQL embedded in a host document, exactly at `range`. -/
  | embedded (content : Text) (range : Range)
  deriving DecidableEq, Repr

namespace Region

def content : Region → Text
  | document content => content
  | embedded content _ => content

def isDocument : Region → Bool
  | document _ => true
  | embedded .. => false

/-- Host position of the first byte. -/
def start : Region → Position
  | document _ => ⟨0, 0⟩
  | embedded _ range => range.start

def hostRange : Region → Range
  | document content => ⟨⟨0, 0⟩, (LineIndex.ofText content).endPosition⟩
  | embedded _ range => range

/-- The region of an excerpt of a document with the given line index. -/
def ofExcerpt (index : LineIndex) (excerpt : Excerpt) : Region :=
  .embedded excerpt.content ⟨index.position excerpt.span.start, index.position excerpt.span.stop⟩

end Region

/-- The parts of a document that its language marks as GraphQL, when it embeds any. -/
def embeddedExcerpts (language : Language) (text : Text) : List Excerpt :=
  if language.usesTemplateTags then TemplateLiteral.taggedTemplates text
  else QuotedBlock.announcedBlocks text

def regionsIn (language : Language) (text : Text) : List Region :=
  if language = .graphQL then [.document text]
  else (embeddedExcerpts language text).map (Region.ofExcerpt (LineIndex.ofText text))

/-- The regions of a document, or `none` when its language never carries GraphQL. -/
def regions? (identifier : String) (text : Text) : Option (List Region) :=
  (Language.ofIdentifier? identifier).map (regionsIn · text)

/-- Whether a region occupies the line of a position. -/
def Region.onLineOf (position : Position) (region : Region) : Bool :=
  region.hostRange.start.line ≤ position.line && position.line ≤ region.hostRange.stop.line

/-- The region a position belongs to: a whole document if there is one, else the last region
that occupies its line. -/
def selectRegion? (regions : List Region) (position : Position) : Option Region :=
  (regions.find? Region.isDocument).or (regions.reverse.find? (Region.onLineOf position))

def regionAt? (identifier : String) (text : Text) (position : Position) : Option Region :=
  (regions? identifier text).bind (selectRegion? · position)

end RelayWorkbench.Host
