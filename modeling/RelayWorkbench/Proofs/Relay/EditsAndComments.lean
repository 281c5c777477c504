import RelayWorkbench.Proofs.Relay.RegionEdits

/-! Edits and comments. A printed document has no comments, so an edit of a region loses all that
the region has. Regions with comments are not laid out anew; the other edits do not look for
them. -/

namespace RelayWorkbench.GraphQL.Lexeme

theorem hasComments_eq_false_iff {text : Text} : hasComments text = false ↔ comments text = [] := by
  rw [hasComments, Bool.not_eq_false', List.isEmpty_iff]

theorem uncommented_of_isBlank {text : Text} (white : text.all Text.isBlank) :
    Uncommented text := by
  refine .of_plain fun char member => ?_
  have blank : Text.isBlank char := List.all_eq_true.mp white char member
  constructor <;> rintro rfl <;> cases blank

end RelayWorkbench.GraphQL.Lexeme

namespace RelayWorkbench.Relay

open RelayWorkbench.GraphQL RelayWorkbench.Host

/-- A document that is put in place of a region has no comments there. -/
theorem comments_replacement {document : Document}
    (suit : ∀ leaf ∈ document.leaves, leaf.Suits .graphQL) (region : Region) :
    Lexeme.comments (replacement region document).newText = [] := by
  have quiet := Document.quiet_print suit
  have lineFeed : Lexeme.Uncommented ['\n'] := .of_plain (Text.forall_of_all (by decide))
  have plain : ∀ char ∈ '\n' :: Text.spaces (Envelope.padding region.content),
      char ≠ '"' ∧ char ≠ '#' := by
    refine List.forall_mem_cons.mpr ⟨by decide, fun char member => ?_⟩
    rw [List.eq_of_mem_replicate member]
    decide
  have behind : Lexeme.Uncommented (Text.trailingBlank region.content) :=
    Lexeme.uncommented_of_isBlank (Text.all_trailingBlank region.content)
  have ends : (Text.trailingBlank region.content).head? ≠ some '"' := fun starts => by
    have blank := List.all_eq_true.mp (Text.all_trailingBlank region.content) '"'
      (List.mem_of_head? starts)
    cases blank
  rw [← Lexeme.hasComments_eq_false_iff, replacement]
  split
  · exact (quiet.uncommented.append lineFeed (by decide)).hasComments_eq
  · have inside := (quiet.indented (Envelope.padding region.content)).uncommented
    rw [render, Envelope.restore_eq, Text.indented_behind, ← List.cons_append]
    exact (Lexeme.Uncommented.plain_append plain (inside.append behind ends)).hasComments_eq

/-- An edit of a region keeps the comments of the region exactly if it has none, and an edit that
lays out a region is made only of one that has none. -/
theorem EditsRegion.keeps_comments_iff {language : Language} {identifier : String}
    (known : Language.ofIdentifier? identifier = some language) {text moduleName : Text}
    {files : Option (List Text)} {edit : TextEdit}
    (edits : EditsRegion identifier text moduleName files edit) :
    ∃ region ∈ regionsIn language text, edit.range = region.hostRange ∧
      ((Lexeme.comments region.content).Sublist (Lexeme.comments edit.newText) ↔
        Lexeme.comments region.content = []) ∧
      (edit ∈ layoutEdits identifier text → Lexeme.comments region.content = []) := by
  by_cases laidOut : edit ∈ layoutEdits identifier text
  · obtain ⟨region, member, plain, document, -, rfl⟩ := exists_of_mem_layoutEdits known laidOut
    have none := Lexeme.hasComments_eq_false_iff.mp plain
    refine ⟨region, member, rfl, ⟨fun _ => none, fun _ => ?_⟩, fun _ => none⟩
    rw [none]
    exact List.nil_sublist _
  · obtain ⟨region, member, former, document, -, rfl, suit⟩ :=
      edits.exists_replacement known
    have written := suit .graphQL (Language.spares_graphQL _) fun value _ =>
      Language.spares_graphQL value
    refine ⟨region, member, rfl, ?_, fun own => absurd own laidOut⟩
    rw [comments_replacement written, List.sublist_nil]

/-- A fragment without comments is made inline. -/
theorem EditsRegion.keeps_comments_inline :
    let text : Text := "fragment F on User \x7b id \x7d".toList
    let edit : TextEdit :=
      ⟨⟨⟨0, 0⟩, ⟨0, 25⟩⟩, "fragment F on User @inline \x7b\n  id\n\x7d\n".toList⟩
    CodeAction.Offered ⟨"graphql", text, ⟨⟨0, 0⟩, ⟨0, 0⟩⟩, "M".toList⟩ (some (clientSchema []))
        (.replace "Make fragment @inline".toList edit) ∧
      ∃ region ∈ regionsIn .graphQL text, edit.range = region.hostRange ∧
        (Lexeme.comments region.content).Sublist (Lexeme.comments edit.newText) := by
  intro text edit
  have offered : CodeAction.Offered ⟨"graphql", text, ⟨⟨0, 0⟩, ⟨0, 0⟩⟩, "M".toList⟩
      ((some []).map clientSchema) (.replace "Make fragment @inline".toList edit) := by
    decide +kernel
  have known : Language.ofIdentifier? "graphql" = some .graphQL := by decide +kernel
  have plain : ∀ region ∈ regionsIn .graphQL text, Lexeme.comments region.content = [] := by
    decide +kernel
  -- The facts are about these texts; what follows need not look into them.
  clear_value text edit
  obtain ⟨region, member, placed, exactly, -⟩ :=
    (EditsRegion.action offered).keeps_comments_iff known
  exact ⟨offered, region, member, placed, exactly.mpr (plain region member)⟩

/-- The comment in front of a fragment is lost when the fragment is made inline. -/
theorem available_loses_comment :
    let text : Text := "# keep me\nfragment F on User \x7b id \x7d".toList
    let edit : TextEdit :=
      ⟨⟨⟨0, 0⟩, ⟨1, 25⟩⟩, "fragment F on User @inline \x7b\n  id\n\x7d\n".toList⟩
    CodeAction.Offered ⟨"graphql", text, ⟨⟨1, 0⟩, ⟨1, 0⟩⟩, "M".toList⟩ (some (clientSchema []))
        (.replace "Make fragment @inline".toList edit) ∧
      (regionsIn .graphQL text).map (fun region => (region.hostRange, region.content)) =
        [(edit.range, text)] ∧
      Lexeme.comments text = ["# keep me".toList] ∧
      ¬ (Lexeme.comments text).Sublist (Lexeme.comments edit.newText) := by
  intro text edit
  exact ⟨by decide +kernel, by decide +kernel, by decide +kernel, by decide +kernel⟩

end RelayWorkbench.Relay
