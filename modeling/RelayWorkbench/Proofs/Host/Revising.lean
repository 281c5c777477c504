import RelayWorkbench.Host.Revision
import RelayWorkbench.Proofs.Host.EmbeddedRegions
import RelayWorkbench.Proofs.Text.LineStarts

/-! Revising a woven document. The edits of its strands speak of the bytes where the strands
stand; carried out from the end, each finds its strand where it was, and the code between the
strands stays. -/

namespace RelayWorkbench

open LineIndex in
/-- The line and the column of a place in a text lead back to it. -/
theorem LineIndex.offset?_lineColumn (front back : Text) (fits : front.width < 2 ^ 64) :
    (ofText (front ++ back)).offset? ((ofText (front ++ back)).lineColumn front.width).1
      ((ofText (front ++ back)).lineColumn front.width).2 = .ok (some front.width) := by
  have text : front ++ [] ++ back = front ++ back := by simp
  obtain ⟨start, _, starts, -, -, here⟩ := lineStart?_slice front [] back (Nat.zero_le _)
  have stops := (lineStop_slice front [] back (Nat.zero_le _)).2
  have early := lastStart_startsAfter_le front
  rw [if_pos rfl] at here
  rw [text, Nat.add_zero] at starts stops
  rw [lineColumn_slice_start, offset?_eq_some starts (by omega), here.1]
  simp only [Text.width_nil] at stops
  congr 2
  omega

open LineIndex in
/-- A place in a text that 32 bits can measure is found again by its position. -/
theorem LineIndex.offset?_position (front back : Text) (short : (front ++ back).width < 2 ^ 32) :
    (ofText (front ++ back)).offset?
        ((ofText (front ++ back)).position front.width).line.toNat
        ((ofText (front ++ back)).position front.width).character.toNat =
          .ok (some front.width) := by
  have lines := length_startsAfter_le 0 front
  rw [Text.width_append] at short
  have found := offset?_lineColumn front back (by omega)
  rw [lineColumn_slice_start] at found
  simp only [position, lineColumn_slice_start, UInt32.toNat_ofNat']
  rwa [Nat.mod_eq_of_lt (by omega), Nat.mod_eq_of_lt (by omega)]

namespace Host

namespace Replacement

/-- Replacements in the order of a text are carried out in the opposite order. -/
theorem fromTheEnd_eq_reverse {replacements : List Replacement}
    (ascends : replacements.Pairwise fun first second => first.span.start < second.span.start) :
    fromTheEnd replacements = replacements.reverse := by
  let later (first second : Replacement) : Bool := second.span.start ≤ first.span.start
  have sorted : (fromTheEnd replacements).Pairwise (later · ·) :=
    List.pairwise_mergeSort (fun _ _ _ => by simp only [later, decide_eq_true_eq]; omega)
      (fun _ _ => by simp only [later, Bool.or_eq_true, decide_eq_true_eq]; omega) replacements
  have reversed : replacements.reverse.Pairwise (later · ·) :=
    List.pairwise_reverse.mpr (ascends.imp fun less => by
      simp only [later, decide_eq_true_eq]; omega)
  have same : (fromTheEnd replacements).Perm replacements.reverse :=
    (List.mergeSort_perm replacements _).trans (List.reverse_perm replacements).symm
  refine same.eq_of_pairwise ?_ sorted reversed
  -- Replacements that start together are one and the same.
  intro first second here there after before
  have here := (List.mergeSort_perm replacements _).subset here
  have there := List.mem_reverse.mp there
  simp only [later, decide_eq_true_eq] at after before
  obtain ⟨place, inside, rfl⟩ := List.mem_iff_getElem.mp here
  obtain ⟨other, within, rfl⟩ := List.mem_iff_getElem.mp there
  have apart := List.pairwise_iff_getElem.mp ascends
  rcases Nat.lt_trichotomy place other with less | rfl | more
  · have := apart _ _ inside within less
    omega
  · rfl
  · have := apart _ _ within inside more
    omega

theorem resultIn?_slice (front middle back newText : Text) :
    resultIn? ⟨⟨front.width, front.width + middle.width⟩, newText⟩ (front ++ middle ++ back) =
      some (front ++ newText ++ back) := by
  have order : ¬ front.width + middle.width < front.width := by omega
  simp [resultIn?, order, List.append_assoc]

end Replacement

/-- One replacement waits for no other: the text is what it makes of it. -/
theorem revise_of_replacement {text revised : Text} {edits : List TextEdit}
    {replacement : Replacement}
    (found : edits.mapM (Replacement.ofEdit (LineIndex.ofText text)) = .ok [replacement])
    (made : replacement.resultIn? text = some revised) : revise text edits = .ok revised := by
  -- The sort is by well-founded recursion, which does not evaluate.
  have alone : Replacement.fromTheEnd [replacement] = [replacement] := List.mergeSort_singleton _
  simp only [revise, found, bind, Except.bind, alone, List.foldlM_cons, List.foldlM_nil, made]
  rfl

section Exchange

-- The new text of a stretch of GraphQL, where it gets one.
variable (revised? : Text → Option Text)

/-- The strand after its content got the new text. -/
def Strand.exchange (strand : Strand) : Strand :=
  { strand with content := (revised? strand.content).getD strand.content }

/-- The edits of excerpts. -/
def excerptEdits (index : LineIndex) (excerpts : List Excerpt) : List TextEdit :=
  excerpts.filterMap fun excerpt =>
    (revised? excerpt.content).map (⟨(Region.ofExcerpt index excerpt).hostRange, ·⟩)

/-- The edits of excerpts, by offsets. -/
private def replacements (excerpts : List Excerpt) : List Replacement :=
  excerpts.filterMap fun excerpt => (revised? excerpt.content).map (⟨excerpt.span, ·⟩)

/-- The ends of an excerpt are found again. -/
theorem ofEdit_excerpt {text : Text} (short : text.width < 2 ^ 32) {excerpt : Excerpt}
    (stands : excerpt.StandsIn text) (newText : Text) :
    Replacement.ofEdit (LineIndex.ofText text)
      ⟨(Region.ofExcerpt (LineIndex.ofText text) excerpt).hostRange, newText⟩ =
        .ok ⟨excerpt.span, newText⟩ := by
  obtain ⟨before, after, rfl, placed⟩ := stands
  have start := LineIndex.offset?_position before (excerpt.content ++ after)
    (by rwa [← List.append_assoc])
  have stop := LineIndex.offset?_position (before ++ excerpt.content) after short
  rw [← List.append_assoc] at start
  rw [Text.width_append before excerpt.content] at stop
  rw [placed]
  simp only [Region.ofExcerpt, Region.hostRange, Excerpt.startingAt, Replacement.ofEdit, start,
    stop]
  rfl

private theorem mapM_ofEdit {text : Text} (short : text.width < 2 ^ 32) {excerpts : List Excerpt}
    (stand : ∀ excerpt ∈ excerpts, excerpt.StandsIn text) :
    (excerptEdits revised? (LineIndex.ofText text) excerpts).mapM
      (Replacement.ofEdit (LineIndex.ofText text)) = .ok (replacements revised? excerpts) := by
  induction excerpts with
  | nil => rfl
  | cons excerpt rest ih =>
    obtain ⟨own, others⟩ := List.forall_mem_cons.mp stand
    have later := ih others
    simp only [excerptEdits, replacements, List.filterMap_cons] at later ⊢
    cases revised? excerpt.content with
    | none => exact later
    | some newText =>
      simp only [Option.map_some, List.mapM_cons, ofEdit_excerpt short own, later]
      rfl

/-- Carried out from the end, the replacements exchange the strands. -/
private theorem foldrM_replacements (front : Text) (strands : List Strand) :
    (replacements revised? (Strand.excerptsFrom front.width strands)).foldrM
      (fun replacement revised =>
        match replacement.resultIn? revised with
        | some revised => Except.ok revised
        | none => .error (Obstacle.trapped .slice)) (Strand.weave front strands) =
      .ok (Strand.weave front (strands.map (Strand.exchange revised?))) := by
  induction strands generalizing front with
  | nil => rfl
  | cons strand rest ih =>
    have later := ih (front ++ strand.content ++ strand.code)
    simp only [Text.width_append, ← Strand.append_weave, List.append_assoc] at later
    rw [Strand.weave_cons, List.map_cons, Strand.weave_cons]
    simp only [replacements, Strand.excerptsFrom, List.filterMap_cons, Nat.add_assoc] at later ⊢
    simp only [Strand.exchange, Excerpt.startingAt]
    cases revised? strand.content with
    | none => exact later
    | some newText =>
      simp only [Option.map_some, List.foldrM_cons, later, Option.getD_some]
      have replaced := Replacement.resultIn?_slice front strand.content
        (Strand.weave strand.code (rest.map (Strand.exchange revised?))) newText
      simp only [List.append_assoc] at replaced
      simp only [bind, Except.bind, replaced]

private theorem replacements_ascend {excerpts : List Excerpt}
    (apart : excerpts.Pairwise fun first second => first.span.start < second.span.start) :
    (replacements revised? excerpts).Pairwise fun first second =>
      first.span.start < second.span.start := by
  refine List.Pairwise.filterMap _ ?_ apart
  intro first second less _ same _ same'
  obtain ⟨_, -, rfl⟩ := Option.map_eq_some_iff.mp same
  obtain ⟨_, -, rfl⟩ := Option.map_eq_some_iff.mp same'
  exact less

/-- The edits of the strands of a document, carried out, exchange the strands. -/
theorem revise_weave {front : Text} {strands : List Strand}
    (short : (Strand.weave front strands).width < 2 ^ 32)
    (apart : (Strand.excerptsFrom front.width strands).Pairwise fun first second =>
      first.span.start < second.span.start) :
    revise (Strand.weave front strands)
      (excerptEdits revised? (LineIndex.ofText (Strand.weave front strands))
        (Strand.excerptsFrom front.width strands)) =
      .ok (Strand.weave front (strands.map (Strand.exchange revised?))) := by
  have found := mapM_ofEdit revised? short fun _ => Strand.standsIn_weave
  have order := Replacement.fromTheEnd_eq_reverse (replacements_ascend revised? apart)
  simp only [revise, found]
  simp only [bind, Except.bind, order, List.foldlM_reverse]
  exact foldrM_replacements revised? front strands

theorem Strand.forall_excerptsFrom (holds : Text → Prop) {strands : List Strand} (offset : Nat) :
    (∀ excerpt ∈ excerptsFrom offset strands, holds excerpt.content) ↔
      ∀ strand ∈ strands, holds strand.content := by
  induction strands generalizing offset with
  | nil => simp [excerptsFrom]
  | cons strand rest ih =>
    simp only [excerptsFrom, List.forall_mem_cons, ih]
    rfl

theorem excerptEdits_eq_nil_iff {index : LineIndex} {excerpts : List Excerpt} :
    excerptEdits revised? index excerpts = [] ↔
      ∀ excerpt ∈ excerpts, revised? excerpt.content = none := by
  simp [excerptEdits, List.filterMap_eq_nil_iff]

theorem forall_newText_excerptEdits (holds : Text → Prop) {index : LineIndex}
    {excerpts : List Excerpt} :
    (∀ edit ∈ excerptEdits revised? index excerpts, holds edit.newText) ↔
      ∀ excerpt ∈ excerpts, ∀ newText ∈ revised? excerpt.content, holds newText := by
  simp only [excerptEdits, List.mem_filterMap, Option.map_eq_some_iff]
  constructor
  · intro every excerpt member newText revised
    exact every _ ⟨excerpt, member, newText, revised, rfl⟩
  · rintro every _ ⟨excerpt, member, newText, revised, rfl⟩
    exact every excerpt member newText revised

theorem Strand.sameCode_exchange (strands : List Strand) :
    SameCode strands (strands.map (exchange revised?)) := by
  simp [SameCode, exchange]

/-- Strands with code behind each start one after the other. -/
theorem Strand.excerptsFrom_ascend {strands : List Strand}
    (coded : ∀ strand ∈ strands, strand.code ≠ []) (offset : Nat) :
    (∀ excerpt ∈ excerptsFrom offset strands, offset ≤ excerpt.span.start) ∧
      (excerptsFrom offset strands).Pairwise fun first second =>
        first.span.start < second.span.start := by
  induction strands generalizing offset with
  | nil => exact ⟨nofun, .nil⟩
  | cons strand rest ih =>
    obtain ⟨own, others⟩ := List.forall_mem_cons.mp coded
    have wide := Text.width_pos own
    obtain ⟨behind, ascends⟩ := ih others (offset + strand.content.width + strand.code.width)
    simp only [excerptsFrom, List.forall_mem_cons, List.pairwise_cons]
    refine ⟨⟨Nat.le_refl _, fun excerpt member => ?_⟩, fun excerpt member => ?_, ascends⟩
    · have := behind excerpt member
      omega
    · have := behind excerpt member
      simp only [Excerpt.startingAt]
      omega

end Exchange

end Host

end RelayWorkbench
