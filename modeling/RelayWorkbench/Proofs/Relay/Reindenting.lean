import RelayWorkbench.Proofs.Relay.Reformatting
import RelayWorkbench.Relay.FragmentExtraction

/-! Indentation without meaning. White space in front of the lines of a printed document and behind
it, also in front of the lines of a block string, does not change what document it is. -/

namespace RelayWorkbench

namespace GraphQL.Document

variable {document : Document} {text : Text}

/-- Whether a text is a document, whatever the bytes of its nodes. -/
def IsReadFrom (document : Document) (text : Text) : Prop :=
  ∃ read, parse? text = some read ∧ read.erase = document.erase

theorem IsReadFrom.of_content_eq {other : Text} (read : document.IsReadFrom text)
    (same : Lexeme.content other = Lexeme.content text) : document.IsReadFrom other := by
  obtain ⟨found, parsed, alike⟩ := read
  obtain ⟨again, reread, erased⟩ := parse?_of_content_eq same parsed
  exact ⟨again, reread, erased.trans alike⟩

/-- A document that its printed form is read as is printed neatly, and of lexemes alone. -/
theorem IsReadFrom.neat_print (back : document.IsReadFrom document.print) :
    Neat .graphQL document.print ∧
      ∀ piece ∈ Lexeme.content document.print, ∃ lexeme, piece = .lexeme lexeme := by
  obtain ⟨found, parsed, alike⟩ := back
  have same := print_eq_of_erase_eq alike
  have printsBack : document.PrintsBack := ⟨found, parsed, same⟩
  have neat := neat_print_of_parse? parsed (same ▸ printsBack.print_ne_nil)
  rw [same] at neat
  exact ⟨neat, Lexeme.exists_lexeme_of_parse? parsed neat.toQuiet.uncommented.hasComments_eq⟩

end GraphQL.Document

namespace Relay

open RelayWorkbench.GraphQL RelayWorkbench.Host

variable {document : Document} {former : Text}

/-- What is laid out in place of a text without comments is still the document. -/
theorem isReadFrom_laidOut (whole : Bool) (back : document.IsReadFrom document.print)
    (parses : (Document.parse? former).isSome) (plain : Lexeme.hasComments former = false) :
    document.IsReadFrom (laidOut whole document former) := by
  obtain ⟨other, parsed⟩ := Option.isSome_iff_exists.mp parses
  obtain ⟨neat, sound⟩ := back.neat_print
  exact back.of_content_eq (content_laidOut neat sound
    (Lexeme.ignores_trailingBlank (Lexeme.exists_lexeme_of_parse? parsed plain)))

/-- A printed document is the same document with its lines moved to the right and white space around
it. -/
theorem isReadFrom_indented (back : document.IsReadFrom document.print) {front behind : Text}
    (before : ∀ char ∈ front, Lexeme.ignored.contains char)
    (after : ∀ char ∈ behind, Lexeme.ignored.contains char) (count : Nat) :
    document.IsReadFrom (front ++ Text.indented count behind document.print) := by
  obtain ⟨neat, sound⟩ := back.neat_print
  apply back.of_content_eq
  rw [Lexeme.content_white before]
  exact Lexeme.content_indented neat.toQuiet.noReturn sound count after

theorem isReadFrom_indent (back : document.IsReadFrom document.print) (indentation : Nat) :
    document.IsReadFrom (Envelope.indent indentation document.print) := by
  rw [Envelope.indent_eq]
  exact isReadFrom_indented back (Lexeme.ignores_spaces _) (List.forall_mem_nil _) indentation

/-- The lines between the bars of a component. -/
def componentBlock (fragment : Text) : Text :=
  '\n' :: Envelope.indent 2 fragment ++ ['\n']

theorem isReadFrom_componentBlock (back : document.IsReadFrom document.print) :
    document.IsReadFrom (componentBlock document.print) := by
  have lineFeed : Lexeme.ignored.contains '\n' := by decide
  have before : ∀ char ∈ '\n' :: Text.spaces 2, Lexeme.ignored.contains char :=
    List.forall_mem_cons.mpr ⟨lineFeed, Lexeme.ignores_spaces 2⟩
  have block : componentBlock document.print =
      '\n' :: Text.spaces 2 ++ Text.indented 2 ['\n'] document.print := by
    rw [componentBlock, Envelope.indent_eq, List.cons_append, List.append_assoc,
      ← Text.indented_behind]
    rfl
  rw [block]
  exact isReadFrom_indented back before (by simpa using lineFeed) 2

/-- The code of a component in front of the block of its fragment. -/
def componentFront (parentType : Text) : Text :=
  "module ".toList ++ (parentType ++ "Fragment".toList) ++ " = [%relay.fragment\n  ".toList

/-- The code of a component behind the block of its fragment. -/
def componentBack (parentType : Text) : Text :=
  let prop := Text.uncapitalize parentType
  "\n];\n\n[@react.component]\nlet make = (~".toList ++ prop ++
    ") => \x7b\n  let ".toList ++ prop ++ " = ".toList ++
    (parentType ++ "Fragment".toList) ++ ".use(".toList ++ prop ++
    ");\n\n  React.null;\n\x7d;\n".toList

theorem componentSource_eq (command : ExtractionCommand) (fragment : Text) :
    command.componentSource fragment = componentFront command.parentType ++ "\x7b|".toList ++
      (componentBlock fragment ++ "|\x7d".toList ++ componentBack command.parentType) := by
  have opened : " = [%relay.fragment\n  \x7b|\n".toList =
      " = [%relay.fragment\n  ".toList ++ "\x7b|".toList ++ ['\n'] := rfl
  have closed : "\n|\x7d\n];\n\n[@react.component]\nlet make = (~".toList =
      ['\n'] ++ "|\x7d".toList ++ "\n];\n\n[@react.component]\nlet make = (~".toList := rfl
  unfold ExtractionCommand.componentSource componentFront componentBack
  -- the literals are kept as they are
  simp only [opened, closed, componentBlock, List.append_assoc, List.cons_append, List.nil_append,
    -String.reduceToList]

/-- The fragment of a component stands between the bars. -/
theorem infix_componentSource (command : ExtractionCommand) (fragment : Text) :
    "\x7b|".toList ++ componentBlock fragment ++ "|\x7d".toList <:+:
      command.componentSource fragment := by
  refine ⟨componentFront command.parentType, componentBack command.parentType, ?_⟩
  simp only [componentSource_eq, List.append_assoc]

/-- Indentation does not change the meaning of a printed document. One that its printed form is read
as is also what is read in the place of any region text without comments, and with each of its lines
moved to the right, as in a component. So the edit that lays out a region puts in the document that
stood there. -/
theorem isReadFrom_reindented (back : document.IsReadFrom document.print) :
    (∀ former, (Document.parse? former).isSome → Lexeme.hasComments former = false →
      document.IsReadFrom (render document former)) ∧
    (∀ indentation, document.IsReadFrom (Envelope.indent indentation document.print)) ∧
    (document.IsReadFrom (componentBlock document.print) ∧ ∀ command : ExtractionCommand,
      "\x7b|".toList ++ componentBlock document.print ++ "|\x7d".toList <:+:
        command.componentSource document.print) ∧
    ∀ region edit, Document.parse? region.content = some document →
      layoutEdit? region = some edit → document.IsReadFrom edit.newText := by
  refine ⟨fun _ => isReadFrom_laidOut false back, isReadFrom_indent back,
    ⟨isReadFrom_componentBlock back, (infix_componentSource · document.print)⟩, ?_⟩
  intro region edit parsed edits
  rw [layoutEdit?_eq] at edits
  obtain ⟨newText, lays, rfl⟩ := Option.map_eq_some_iff.mp edits
  obtain ⟨plain, other, reparsed, rfl⟩ := exists_of_layout? lays
  cases parsed.symm.trans reparsed
  exact isReadFrom_laidOut _ back (by rw [parsed]; rfl) plain

/-- A type and a query are moved to the right, with the lines of the description, the blank line in
it and the string that names a line feed. -/
theorem isReadFrom_reindented_described :
    let text : Text := ("\"\"\"\nA\n b\n\nc\n\"\"\"\n" ++
      "type T \x7b\n  \"\"\"x\"\"\"\n  a: Int\n\x7d\n\n" ++
      "query Q \x7b\n  a(x: \"p\\nq\")\n\x7d").toList
    let former : Text := "  query Q \x7b a \x7d\n  ".toList
    (Document.parse? former).isSome ∧ Lexeme.hasComments former = false ∧
      ∃ document, Document.parse? text = some document ∧ document.print = text ∧
        document.IsReadFrom (render document former) ∧
        document.IsReadFrom (componentBlock text) := by
  intro text former
  have parses : (Document.parse? former).isSome := by decide +kernel
  have plain : Lexeme.hasComments former = false := by decide +kernel
  have printed : (Document.parse? text).map Document.print = some text := by decide +kernel
  obtain ⟨document, parsed, print_eq⟩ := Option.map_eq_some_iff.mp printed
  have back : document.IsReadFrom document.print := by
    rw [print_eq]
    exact ⟨document, parsed, rfl⟩
  obtain ⟨rendered, -, ⟨block, -⟩, -⟩ := isReadFrom_reindented back
  rw [print_eq] at block
  exact ⟨parses, plain, document, parsed, print_eq, rendered former parses plain, block⟩

end Relay

end RelayWorkbench
