import RelayWorkbench.Proofs.Relay.RegionEdits

/-! Edits and their host. An edit that is made of a region is found again as the content of that
region, unless a string in it means something to the host language. -/

namespace RelayWorkbench.Relay

open RelayWorkbench.GraphQL RelayWorkbench.Host

/-- No string in a GraphQL text means anything to a language. -/
def SparesStrings (language : Language) (content : Text) : Prop :=
  ∀ document ∈ Document.parse? content, ∀ value ∈ document.strings, language.Spares value

instance (language : Language) (content : Text) : Decidable (SparesStrings language content) :=
  inferInstanceAs (Decidable (∀ document ∈ Document.parse? content,
    ∀ value ∈ document.strings, language.Spares value))

theorem isDocument_of_mem {language : Language} (embeds : language ≠ .graphQL) {text : Text}
    {region : Region} (member : region ∈ regionsIn language text) : region.isDocument = false := by
  rw [regionsIn, if_neg embeds] at member
  obtain ⟨excerpt, -, rfl⟩ := List.mem_map.mp member
  rfl

private theorem harmless_of_isBlank {language : Language} {text : Text}
    (white : text.all Text.isBlank) : language.Harmless text := by
  refine .of_forall fun char member => ?_
  have blank : Text.isBlank char := List.all_eq_true.mp white char member
  constructor
  · rintro rfl
    cases blank
  · simp only [Language.isSettled, Bool.and_eq_true, bne_iff_ne]
    refine ⟨⟨?_, ?_⟩, ?_⟩ <;> rintro rfl <;> cases blank

/-- A document that is put into the envelope of a region means nothing to a language in which its
words and strings mean nothing. -/
theorem harmless_render {language : Language} {document : Document}
    (suit : ∀ leaf ∈ document.leaves, leaf.Suits language) (former : Text) :
    language.Harmless (render document former) := by
  have printed := ((Document.quiet_print suit).indented (Envelope.padding former)).harmless
  have lineFeed : language.Harmless ['\n'] := .of_forall (Text.forall_of_all (by decide))
  have behind : language.Harmless (Text.trailingBlank former) :=
    harmless_of_isBlank (Text.all_trailingBlank former)
  rw [render, Envelope.restore_eq, Text.indented_behind]
  exact lineFeed.append ((Language.Harmless.spaces _).append (printed.append behind))

/-- An edit of a document of less than `2 ^ 32` bytes can be carried out. It changes the content of
its region and of no other one, exactly if the host language reads the new text to its end. The
language does so if neither the strings of the region nor the name of the module mean anything to
it. -/
theorem EditsRegion.contents_revised {language : Language} (embeds : language ≠ .graphQL)
    {identifier : String} (known : Language.ofIdentifier? identifier = some language)
    {text moduleName : Text} (short : text.width < 2 ^ 32) {files : Option (List Text)}
    {edit : TextEdit} (edits : EditsRegion identifier text moduleName files edit) :
    ∃ index region revised, (regionsIn language text)[index]? = some region ∧
      edit.range = region.hostRange ∧ revise text [edit] = .ok revised ∧
      ((regionsIn language revised).map Region.content =
          ((regionsIn language text).map Region.content).set index edit.newText ↔
        language.closesAfter edit.newText) ∧
      (SparesStrings language region.content → language.Spares moduleName →
        language.closesAfter edit.newText) := by
  obtain ⟨region, member, former, document, parsed, rfl, suit⟩ :=
    edits.exists_replacement known
  obtain ⟨index, found⟩ := List.getElem?_of_mem member
  have newText : (replacement region document).newText = render document region.content := by
    rw [replacement, isDocument_of_mem embeds member]
    rfl
  have written : (replacement region document).newText ≠ [] := by
    rw [newText, render, Envelope.restore_eq]
    exact List.cons_ne_nil _ _
  obtain ⟨revised, done, exactly⟩ := revise_region embeds short found written
  refine ⟨index, region, revised, found, rfl, done, exactly, fun spares module => ?_⟩
  rw [newText]
  exact (harmless_render (suit language module (spares former parsed)) _).closesAfter embeds

/-- A query with a string is laid out in the second of two regions. -/
theorem EditsRegion.contents_revised_string :
    let text : Text :=
      "gql\x60query P \x7b a \x7d\x60\ngql\x60query Q \x7b a(x: \"$y\") \x7d\x60".toList
    let edit : TextEdit := ⟨⟨⟨1, 4⟩, ⟨1, 26⟩⟩, "\nquery Q \x7b\n  a(x: \"$y\")\n\x7d".toList⟩
    edit ∈ layoutEdits "javascript" text ∧ ∃ revised, revise text [edit] = .ok revised ∧
      (regionsIn .javaScript revised).map Region.content =
        ["query P \x7b a \x7d".toList, edit.newText] := by
  intro text edit
  have laidOut : edit ∈ layoutEdits "javascript" text := by decide +kernel
  have known : Language.ofIdentifier? "javascript" = some .javaScript := by decide +kernel
  have short : text.width < 2 ^ 32 := by decide +kernel
  have spared : ∀ former ∈ regionsIn .javaScript text,
      SparesStrings .javaScript former.content := by decide +kernel
  have contents : (regionsIn .javaScript text).map Region.content =
      ["query P \x7b a \x7d".toList, "query Q \x7b a(x: \"$y\") \x7d".toList] := by decide +kernel
  have ranges : (regionsIn .javaScript text).map Region.hostRange =
      [⟨⟨0, 4⟩, ⟨0, 17⟩⟩, edit.range] := by decide +kernel
  have other : edit.range ≠ ⟨⟨0, 4⟩, ⟨0, 17⟩⟩ := by decide
  -- The facts are about these texts; what follows need not look into them.
  clear_value text edit
  have edits : EditsRegion "javascript" text "M".toList none edit := .layout laidOut
  obtain ⟨index, region, revised, found, placed, done, exactly, spares⟩ :=
    edits.contents_revised (by decide : Language.javaScript ≠ .graphQL) known short
  have there : ((regionsIn .javaScript text).map Region.hostRange)[index]? = some edit.range := by
    rw [List.getElem?_map, found, placed]
    rfl
  rw [ranges] at there
  have last : index = 1 := by
    rcases index with _ | _ | beyond
    · exact absurd (Option.some.inj there).symm other
    · rfl
    · cases there
  subst last
  have closes := spares (spared region (List.mem_of_getElem? found)) (by decide)
  rw [contents] at exactly
  exact ⟨laidOut, revised, done, exactly.mpr closes⟩

/-- A backtick that is escaped in a string of a script is written as it is, and ends the region. -/
theorem layoutEdits_backtick :
    let text : Text := "gql\x60query Q \x7b a(x: \"\\u0060\") \x7d\x60".toList
    let edit : TextEdit := ⟨⟨⟨0, 4⟩, ⟨0, 30⟩⟩, "\nquery Q \x7b\n  a(x: \"\x60\")\n\x7d".toList⟩
    let revised : Text := "gql\x60\nquery Q \x7b\n  a(x: \"\x60\")\n\x7d\x60".toList
    edit ∈ layoutEdits "javascript" text ∧ revise text [edit] = .ok revised ∧
      (regionsIn .javaScript revised).map Region.content =
        ["\nquery Q \x7b\n  a(x: \"".toList] := by
  intro text edit revised
  have found : [edit].mapM (Replacement.ofEdit (LineIndex.ofText text)) =
      .ok [⟨⟨4, 30⟩, edit.newText⟩] := by decide +kernel
  exact ⟨by decide +kernel, revise_of_replacement found (by decide +kernel), by decide +kernel⟩

end RelayWorkbench.Relay
