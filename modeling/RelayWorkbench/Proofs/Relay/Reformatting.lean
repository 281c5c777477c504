import RelayWorkbench.Proofs.GraphQL.Reprinting
import RelayWorkbench.Proofs.Host.Envelopes
import RelayWorkbench.Proofs.Host.Revising
import RelayWorkbench.Relay.Formatting

/-! Formatting what was formatted. Every region is found again and says what it said, so a second
run lays out the same document; what may differ is the indentation it measures. -/

namespace RelayWorkbench.Relay

open RelayWorkbench.GraphQL RelayWorkbench.Host

/-- A document laid out in place of the region text `former`. -/
def laidOut (whole : Bool) (document : Document) (former : Text) : Text :=
  if whole then document.print ++ ['\n'] else render document former

/-- The new text of a region text, unless it is left alone. -/
def layout? (whole : Bool) (former : Text) : Option Text := do
  if (Text.trim former).isEmpty || Lexeme.hasComments former then none
  let document ← Document.parse? former
  if laidOut whole document former = former then none else some (laidOut whole document former)

theorem layoutEdit?_eq (region : Region) :
    layoutEdit? region =
      (layout? region.isDocument region.content).map (⟨region.hostRange, ·⟩) := by
  simp only [layoutEdit?, layout?]
  split
  · rfl
  · cases Document.parse? region.content with
    | none => rfl
    | some document =>
      simp only [Option.bind_eq_bind, Option.bind_some, replacement, laidOut]
      split <;> split <;> rfl

section Regions

variable {whole : Bool} {former : Text} {document : Document}

private theorem layout?_of_parse? (parsed : Document.parse? former = some document)
    (written : former.all Text.isBlank = false) (plain : Lexeme.hasComments former = false) :
    layout? whole former =
      if laidOut whole document former = former then none
      else some (laidOut whole document former) := by
  simp [layout?, Text.isEmpty_trim, written, plain, parsed]

theorem exists_of_layout? {newText : Text} (lays : layout? whole former = some newText) :
    Lexeme.hasComments former = false ∧
      ∃ document, Document.parse? former = some document ∧
        newText = laidOut whole document former := by
  simp only [layout?] at lays
  split at lays
  · cases lays
  · next reads =>
    obtain ⟨document, parsed, lays⟩ := Option.bind_eq_some_iff.mp lays
    split at lays
    · cases lays
    · cases lays
      simp only [Bool.or_eq_true, not_or, Bool.not_eq_true] at reads
      exact ⟨reads.2, document, parsed, rfl⟩

private theorem all_isBlank_laidOut (neat : Neat .graphQL document.print) :
    (laidOut whole document former).all Text.isBlank = false := by
  obtain ⟨front, last, printed, written⟩ := neat.ends
  rw [List.all_eq_false]
  refine ⟨last, ?_, by simp [written]⟩
  unfold laidOut
  split
  · simp [printed]
  · rw [render, Envelope.restore_eq, printed, Envelope.indented_concat written]
    simp

theorem content_laidOut (neat : Neat .graphQL document.print)
    (sound : ∀ piece ∈ Lexeme.content document.print, ∃ lexeme, piece = .lexeme lexeme)
    (white : ∀ char ∈ Text.trailingBlank former, Lexeme.ignored.contains char) :
    Lexeme.content (laidOut whole document former) = Lexeme.content document.print := by
  have lineFeed : Lexeme.ignored.contains '\n' := by decide
  unfold laidOut
  split
  · rw [← Text.indented_zero]
    exact Lexeme.content_indented neat.toQuiet.noReturn sound 0 (by simpa using lineFeed)
  · rw [render, Envelope.restore_eq, Lexeme.content_ignored lineFeed,
      Lexeme.content_white (Lexeme.ignores_spaces _)]
    exact Lexeme.content_indented neat.toQuiet.noReturn sound _ white

/-- A document that is laid out is laid out already, unless its indentation is no longer
measured. -/
private theorem laidOut_laidOut_eq_iff (neat : Neat .graphQL document.print)
    (begins : Begins document.print) :
    laidOut whole document (laidOut whole document former) = laidOut whole document former ↔
      whole ∨ Envelope.padding former = 0 ∨ document.print.head?.any Text.isWordChar := by
  obtain ⟨first, rest, printed, written⟩ := begins
  cases whole with
  | true => simp [laidOut]
  | false =>
    have ends := neat.ends
    rw [printed] at ends
    simpa [laidOut, render, printed] using
      Envelope.restore_restore_eq_iff former written ends

theorem layout?_laidOut (parsed : Document.parse? former = some document)
    (plain : Lexeme.hasComments former = false) (back : document.PrintsBack) :
    layout? whole (laidOut whole document former) = none ↔
      whole ∨ Envelope.padding former = 0 ∨ document.print.head?.any Text.isWordChar := by
  have neat := Document.neat_print_of_parse? parsed back.print_ne_nil
  have begins : Begins document.print := Document.begins_print fun none =>
    back.print_ne_nil (by simp [Document.print, none])
  obtain ⟨read, reparsed, reprinted⟩ := back
  have uncommented : Lexeme.hasComments document.print = false :=
    neat.toQuiet.uncommented.hasComments_eq
  have said : Lexeme.content (laidOut whole document former) = Lexeme.content document.print :=
    content_laidOut neat (Lexeme.exists_lexeme_of_parse? reparsed uncommented)
      (Lexeme.ignores_trailingBlank (Lexeme.exists_lexeme_of_parse? parsed plain))
  obtain ⟨again, reread, erased⟩ := Document.parse?_of_content_eq said reparsed
  have same := Document.print_eq_of_erase_eq erased
  have alike : ∀ text, laidOut whole again text = laidOut whole document text := by
    intro text
    simp only [laidOut, render, same, reprinted]
  have still : Lexeme.hasComments (laidOut whole document former) = false := by
    rw [Document.hasComments_eq, said, ← Document.hasComments_eq, uncommented]
  rw [layout?_of_parse? reread (all_isBlank_laidOut neat) still, alike,
    ← laidOut_laidOut_eq_iff neat begins]
  split <;> simp_all

/-- Whether the indentation of a region text is measured again after it is laid out. -/
def keepsIndentation (whole : Bool) (former : Text) : Bool :=
  whole || Envelope.padding former == 0 ||
    (Document.parse? former).any fun document => document.print.head?.any Text.isWordChar

private theorem layout?_exchange (strand : Strand)
    (back : ∀ document ∈ Document.parse? strand.content, document.PrintsBack) :
    layout? whole (strand.exchange (layout? whole)).content = none ↔
      ((layout? whole strand.content).isSome → keepsIndentation whole strand.content) := by
  cases lays : layout? whole strand.content with
  | none => simp [Strand.exchange, lays]
  | some newText =>
    obtain ⟨plain, document, parsed, rfl⟩ := exists_of_layout? lays
    simp only [Strand.exchange, lays, Option.getD_some, Option.isSome_some, forall_const]
    rw [layout?_laidOut parsed plain (back document parsed)]
    simp [keepsIndentation, parsed, or_assoc]

end Regions

section Documents

theorem filterMap_layoutEdit? {language : Language} (embeds : language ≠ .graphQL)
    (text : Text) : (regionsIn language text).filterMap layoutEdit? =
      excerptEdits (layout? false) (LineIndex.ofText text) (embeddedExcerpts language text) := by
  simp only [regionsIn, if_neg embeds, List.filterMap_map, excerptEdits]
  congr 1
  funext excerpt
  exact layoutEdit?_eq _

theorem hostRange_document (text : Text) :
    (Region.ofExcerpt (LineIndex.ofText text) (Excerpt.startingAt 0 text)).hostRange =
      (Region.document text).hostRange := by
  have start : (LineIndex.ofText text).position 0 = ⟨0, 0⟩ := by
    have first := LineIndex.lineColumn_slice_start [] text
    simp only [List.nil_append, Text.width_nil] at first
    simp [LineIndex.position, first, LineIndex.startsAfter, LineIndex.lastStart]
  simp only [Region.ofExcerpt, Excerpt.startingAt, Region.hostRange, start, Nat.zero_add]
  rfl

theorem filterMap_layoutEdit?_document (text : Text) :
    (regionsIn .graphQL text).filterMap layoutEdit? =
      excerptEdits (layout? true) (LineIndex.ofText text)
        (Strand.excerptsFrom 0 [⟨text, []⟩]) := by
  have edit := layoutEdit?_eq (.document text)
  rw [← hostRange_document] at edit
  simp only [regionsIn, if_true, excerptEdits, Strand.excerptsFrom, List.filterMap_cons,
    List.filterMap_nil, edit]
  rfl

/-- The strands of a formatted document are left alone by a second run exactly if their
indentation is measured again. -/
private theorem layouts_exchanged (whole : Bool) {strands : List Strand}
    (back : ∀ strand ∈ strands, ∀ document ∈ Document.parse? strand.content,
      document.PrintsBack) (index : LineIndex) (offset : Nat) :
    excerptEdits (layout? whole) index
        (Strand.excerptsFrom offset (strands.map (Strand.exchange (layout? whole)))) = [] ↔
      ∀ strand ∈ strands,
        (layout? whole strand.content).isSome → keepsIndentation whole strand.content := by
  rw [excerptEdits_eq_nil_iff,
    Strand.forall_excerptsFrom fun content => layout? whole content = none,
    List.forall_mem_map]
  exact forall₂_congr fun strand member => layout?_exchange strand (back strand member)

/-- A run over a document of the language, and what a second run does to the result. -/
private def Reformats (language : Language) (text : Text) : Prop :=
  ∃ revised, revise text ((regionsIn language text).filterMap layoutEdit?) = .ok revised ∧
    ((language ≠ .graphQL → ∀ edit ∈ (regionsIn language text).filterMap layoutEdit?,
        language.closesAfter edit.newText) →
      ((regionsIn language revised).filterMap layoutEdit? = [] ↔
        ∀ region ∈ regionsIn language text, (layoutEdit? region).isSome →
          keepsIndentation region.isDocument region.content))

private theorem reformats_document {text : Text} (short : text.width < 2 ^ 32)
    (back : ∀ document ∈ Document.parse? text, document.PrintsBack) :
    Reformats .graphQL text := by
  have woven : ∀ content, Strand.weave [] [⟨content, []⟩] = content := by simp [Strand.weave]
  have short : (Strand.weave [] [⟨text, []⟩]).width < 2 ^ 32 := by rwa [woven]
  have back : ∀ strand ∈ [(⟨text, []⟩ : Strand)], ∀ document ∈ Document.parse? strand.content,
      document.PrintsBack := List.forall_mem_singleton.mpr back
  let revised := (Strand.exchange (layout? true) ⟨text, []⟩).content
  have done := revise_weave (layout? true) short (List.pairwise_singleton ..)
  have second := layouts_exchanged true back (LineIndex.ofText revised) 0
  rw [List.map_singleton] at done second
  rw [woven] at done
  rw [List.forall_mem_singleton] at second
  refine ⟨revised, ?_, fun _ => ?_⟩
  · rw [filterMap_layoutEdit?_document]
    exact done.trans (congrArg Except.ok (woven revised))
  · rw [filterMap_layoutEdit?_document]
    refine second.trans ?_
    simp [regionsIn, layoutEdit?_eq, Region.isDocument, Region.content]

/-- In a document that embeds GraphQL the strands are exchanged. -/
private theorem reformats_woven {language : Language} (embeds : language ≠ .graphQL)
    {front : Text} {strands : List Strand} (weaves : language.Weaves front strands)
    (short : (Strand.weave front strands).width < 2 ^ 32)
    (back : ∀ region ∈ regionsIn language (Strand.weave front strands),
      ∀ document ∈ Document.parse? region.content, document.PrintsBack) :
    Reformats language (Strand.weave front strands) := by
  have found := weaves.finds strands rfl weaves.admits
  have regions : regionsIn language (Strand.weave front strands) =
      (Strand.excerptsFrom front.width strands).map
        (Region.ofExcerpt (LineIndex.ofText (Strand.weave front strands))) := by
    rw [regionsIn, if_neg embeds, found]
  have edits := filterMap_layoutEdit? embeds (Strand.weave front strands)
  rw [found] at edits
  rw [regions, List.forall_mem_map] at back
  have back := (Strand.forall_excerptsFrom
    (fun content => ∀ document ∈ Document.parse? content, document.PrintsBack) _).mp back
  unfold Reformats
  rw [edits, regions]
  refine ⟨_, revise_weave (layout? false) short
    (Strand.excerptsFrom_ascend weaves.coded front.width).2, fun closes => ?_⟩
  have closes := (Strand.forall_excerptsFrom
    (fun content => ∀ newText ∈ layout? false content, language.closesAfter newText) _).mp
    ((forall_newText_excerptEdits _ (language.closesAfter ·)).mp (closes embeds))
  have admits : ∀ strand ∈ strands.map (Strand.exchange (layout? false)),
      language.Admits strand.content := by
    refine List.forall_mem_map.mpr fun strand member => ?_
    cases lays : layout? false strand.content with
    | none => simpa [Strand.exchange, lays] using weaves.admits strand member
    | some newText =>
      obtain ⟨-, document, -, same⟩ := exists_of_layout? lays
      have written : newText ≠ [] := by simp [same, laidOut, render, Envelope.restore_eq]
      simpa [Strand.exchange, lays] using
        (⟨written, closes strand member newText lays⟩ : language.Admits newText)
  rw [filterMap_layoutEdit? embeds, weaves.finds _ (Strand.sameCode_exchange _ strands) admits,
    layouts_exchanged false back, List.forall_mem_map]
  simp only [layoutEdit?_eq, Option.isSome_map]
  exact (Strand.forall_excerptsFrom (fun content =>
    (layout? false content).isSome → keepsIndentation false content) _).symm

end Documents

/-- Formatting twice. The edits of a document of less than `2 ^ 32` bytes can be carried out. If
the host language reads each new text to its end, then a second run leaves the result alone
exactly if every region that was laid out has no indentation or has it measured again. -/
theorem layoutEdits_revised {identifier : String} {text : Text} (short : text.width < 2 ^ 32)
    (back : ∀ region ∈ (regions? identifier text).getD [],
      ∀ document ∈ Document.parse? region.content, document.PrintsBack) :
    ∃ revised, revise text (layoutEdits identifier text) = .ok revised ∧
      ((∀ language ∈ Language.ofIdentifier? identifier, language ≠ .graphQL →
          ∀ edit ∈ layoutEdits identifier text, language.closesAfter edit.newText) →
        (layoutEdits identifier revised = [] ↔
          ∀ region ∈ (regions? identifier text).getD [], (layoutEdit? region).isSome →
            keepsIndentation region.isDocument region.content)) := by
  cases known : Language.ofIdentifier? identifier with
  | none =>
    have nothing : ∀ other, regions? identifier other = none := by simp [regions?, known]
    refine ⟨text, ?_, fun _ => ?_⟩
    · simp [layoutEdits, nothing, revise, Replacement.fromTheEnd]
      rfl
    · simp [layoutEdits, nothing]
  | some language =>
    have regions : ∀ other, regions? identifier other = some (regionsIn language other) := by
      simp [regions?, known]
    simp only [regions, Option.getD_some] at back
    have reformats : Reformats language text := by
      by_cases whole : language = .graphQL
      · subst whole
        exact reformats_document short (List.forall_mem_singleton.mp back)
      · obtain ⟨front, strands, rfl, weaves⟩ := Language.exists_weave whole text
        exact reformats_woven whole weaves short back
    obtain ⟨revised, done, second⟩ := reformats
    refine ⟨revised, by simpa only [layoutEdits, regions, Option.getD_some] using done,
      fun closes => ?_⟩
    simp only [layoutEdits, regions, Option.getD_some] at closes ⊢
    exact second (closes language rfl)

/-- A named query of a script is laid out once and for all. -/
theorem layoutEdits_revised_named :
    let text : Text := "gql\x60\n  query Q \x7b a \x7d\n\x60".toList
    text.width < 2 ^ 32 ∧ layoutEdits "javascript" text ≠ [] ∧
      ∃ revised, revise text (layoutEdits "javascript" text) = .ok revised ∧
        layoutEdits "javascript" revised = [] := by
  intro text
  have short : text.width < 2 ^ 32 := by decide +kernel
  have back : ∀ region ∈ (regions? "javascript" text).getD [],
      ∀ document ∈ Document.parse? region.content, document.PrintsBack := by decide +kernel
  have closes : ∀ language ∈ Language.ofIdentifier? "javascript", language ≠ .graphQL →
      ∀ edit ∈ layoutEdits "javascript" text, language.closesAfter edit.newText := by
    decide +kernel
  have keeps : ∀ region ∈ (regions? "javascript" text).getD [], (layoutEdit? region).isSome →
      keepsIndentation region.isDocument region.content := by decide +kernel
  obtain ⟨revised, done, second⟩ := layoutEdits_revised short back
  exact ⟨short, by decide +kernel, revised, done, (second closes).mpr keeps⟩

/-- An indented query that becomes a selection set alone is laid out anew by a second run: the
first run keeps its indentation, and the second finds none before a brace. -/
theorem layoutEdits_shorthand :
    let text : Text := "gql\x60\n  query \x7b a \x7d\n\x60".toList
    let revised : Text := "gql\x60\n  \x7b\n    a\n  \x7d\n\x60".toList
    (∀ region ∈ (regions? "javascript" text).getD [],
        ∀ document ∈ Document.parse? region.content, document.PrintsBack) ∧
      revise text (layoutEdits "javascript" text) = .ok revised ∧
      layoutEdits "javascript" revised ≠ [] := by
  intro text revised
  have found : (layoutEdits "javascript" text).mapM (Replacement.ofEdit (LineIndex.ofText text)) =
      .ok [⟨⟨4, 19⟩, "\n  \x7b\n    a\n  \x7d\n".toList⟩] := by decide +kernel
  exact ⟨by decide +kernel, revise_of_replacement found (by decide +kernel), by decide +kernel⟩

end RelayWorkbench.Relay
