import RelayWorkbench.Proofs.Host.DisjointEdits
import RelayWorkbench.Proofs.Relay.Reformatting

/-! The edits that lay out a document. The regions of a document stand one behind the other, each at
bytes that the position of its edit leads back to. So the edits can be carried out in any order, and
they change nothing but the regions. -/

namespace RelayWorkbench

namespace Host

namespace Strand

theorem excerptsFrom_apart {strands : List Strand} (coded : ∀ strand ∈ strands, strand.code ≠ [])
    (offset : Nat) :
    (excerptsFrom offset strands).Pairwise fun first second =>
      first.span.stop < second.span.start := by
  induction strands generalizing offset with
  | nil => exact .nil
  | cons strand rest ih =>
    obtain ⟨own, others⟩ := List.forall_mem_cons.mp coded
    have wide := Text.width_pos own
    refine List.pairwise_cons.mpr ⟨fun excerpt member => ?_, ih others _⟩
    have behind := (excerptsFrom_ascend others _).1 excerpt member
    simp only [Excerpt.startingAt]
    omega

/-- An excerpt of a woven document that is not empty is a stretch of it. -/
theorem marks_of_mem {front : Text} {strands : List Strand} {excerpt : Excerpt}
    (member : excerpt ∈ excerptsFrom front.width strands) (written : excerpt.content ≠ []) :
    excerpt.span.Marks (weave front strands) := by
  obtain ⟨before, after, split, placed⟩ := standsIn_weave member
  exact ⟨before, excerpt.content, after, split, written, congrArg Excerpt.span placed⟩

end Strand

variable {language : Language} {text : Text}

/-- The parts of a document that are marked as GraphQL are not empty and stand apart, each one
behind the one before. -/
theorem embeddedExcerpts_apart (embeds : language ≠ .graphQL) (text : Text) :
    (embeddedExcerpts language text).Pairwise (fun first second =>
        first.span.stop < second.span.start) ∧
      ∀ excerpt ∈ embeddedExcerpts language text, excerpt.span.Marks text := by
  obtain ⟨front, strands, rfl, weaves⟩ := Language.exists_weave embeds text
  rw [weaves.finds strands rfl weaves.admits]
  have written := (Strand.forall_excerptsFrom (· ≠ []) front.width).mpr
    fun strand member => (weaves.admits strand member).written
  exact ⟨Strand.excerptsFrom_apart weaves.coded _,
    fun excerpt member => Strand.marks_of_mem member (written excerpt member)⟩

variable (revised? : Text → Option Text)

/-- The edits of the excerpts of a document stand where the excerpts do. -/
theorem resolved_excerptEdits (short : text.width < 2 ^ 32) {excerpts : List Excerpt}
    (stand : ∀ excerpt ∈ excerpts, excerpt.StandsIn text) :
    resolved text (excerptEdits revised? (LineIndex.ofText text) excerpts) =
      excerpts.filterMap fun excerpt => (revised? excerpt.content).map (⟨excerpt.span, ·⟩) := by
  rw [resolved, excerptEdits, List.filterMap_filterMap]
  refine List.filterMap_congr fun excerpt member => ?_
  cases revised? excerpt.content with
  | none => rfl
  | some newText =>
    simp only [Option.map_some, Option.bind_some, ofEdit_excerpt short (stand excerpt member)]
    rfl

theorem fitTogether_excerptEdits (short : text.width < 2 ^ 32) {excerpts : List Excerpt}
    (stand : ∀ excerpt ∈ excerpts, excerpt.StandsIn text)
    (apart : excerpts.Pairwise fun first second => first.span.stop < second.span.start)
    (written : revised? [] = none) :
    FitTogether text (excerptEdits revised? (LineIndex.ofText text) excerpts) where
  resolves := by
    intro edit member
    obtain ⟨excerpt, there, revised⟩ := List.mem_filterMap.mp member
    obtain ⟨newText, -, rfl⟩ := Option.map_eq_some_iff.mp revised
    exact ⟨_, ofEdit_excerpt short (stand excerpt there) newText⟩
  fits := by
    rw [resolved_excerptEdits revised? short stand]
    constructor
    · intro replacement member
      obtain ⟨excerpt, there, revised⟩ := List.mem_filterMap.mp member
      obtain ⟨newText, changes, rfl⟩ := Option.map_eq_some_iff.mp revised
      obtain ⟨before, after, split, placed⟩ := stand excerpt there
      refine ⟨before, excerpt.content, after, split, ?_, congrArg Excerpt.span placed⟩
      intro empty
      rw [empty, written] at changes
      cases changes
    · refine List.Pairwise.filterMap _ ?_ apart
      intro first second before _ same _ same'
      obtain ⟨_, -, rfl⟩ := Option.map_eq_some_iff.mp same
      obtain ⟨_, -, rfl⟩ := Option.map_eq_some_iff.mp same'
      exact .inl (Nat.le_of_lt before)

end Host

namespace Relay

open RelayWorkbench.Host

variable {language : Language} {text : Text}

/-- The regions of a document, with the bytes they stand at. -/
def excerptsIn (language : Language) (text : Text) : List Excerpt :=
  if language = .graphQL then [Excerpt.startingAt 0 text] else embeddedExcerpts language text

/-- The region that is made of an excerpt. -/
def regionOf (language : Language) (text : Text) (excerpt : Excerpt) : Region :=
  if language = .graphQL then .document excerpt.content
  else .ofExcerpt (LineIndex.ofText text) excerpt

theorem regionsIn_eq (language : Language) (text : Text) :
    regionsIn language text = (excerptsIn language text).map (regionOf language text) := by
  by_cases whole : language = .graphQL
  · simp [regionsIn, excerptsIn, regionOf, whole, Excerpt.startingAt]
  · simp [regionsIn, excerptsIn, regionOf, whole]

theorem layout?_nil (whole : Bool) : layout? whole [] = none := by
  simp [layout?, Text.isEmpty_trim]

/-- A document is woven of code and its regions, and the edits that lay it out are edits of
these. -/
theorem exists_weave_layout (language : Language) (text : Text) :
    ∃ whole front strands, text = Strand.weave front strands ∧
      excerptsIn language text = Strand.excerptsFrom front.width strands ∧
      (Strand.excerptsFrom front.width strands).Pairwise (fun first second =>
        first.span.stop < second.span.start) ∧
      (regionsIn language text).filterMap layoutEdit? =
        excerptEdits (layout? whole) (LineIndex.ofText text)
          (Strand.excerptsFrom front.width strands) := by
  by_cases whole : language = .graphQL
  · subst whole
    refine ⟨true, [], [⟨text, []⟩], by simp [Strand.weave], rfl, List.pairwise_singleton .., ?_⟩
    exact filterMap_layoutEdit?_document text
  · obtain ⟨front, strands, rfl, weaves⟩ := Language.exists_weave whole text
    have found := weaves.finds strands rfl weaves.admits
    refine ⟨false, front, strands, rfl, ?_, Strand.excerptsFrom_apart weaves.coded _, ?_⟩
    · rw [excerptsIn, if_neg whole, found]
    · rw [filterMap_layoutEdit? whole, found]

/-- The range of an edit that lays out a region leads back to the bytes of the region. -/
theorem ofEdit_layoutEdit (short : text.width < 2 ^ 32) {excerpt : Excerpt}
    (member : excerpt ∈ excerptsIn language text) {edit : TextEdit}
    (lays : layoutEdit? (regionOf language text excerpt) = some edit) :
    Replacement.ofEdit (LineIndex.ofText text) edit = .ok ⟨excerpt.span, edit.newText⟩ := by
  obtain ⟨whole, front, strands, woven, excerpts, -⟩ := exists_weave_layout language text
  have place : (regionOf language text excerpt).hostRange =
      (Region.ofExcerpt (LineIndex.ofText text) excerpt).hostRange := by
    by_cases whole : language = .graphQL
    · rw [excerptsIn, if_pos whole, List.mem_singleton] at member
      rw [regionOf, if_pos whole, member]
      exact (hostRange_document text).symm
    · rw [regionOf, if_neg whole]
  rw [excerpts] at member
  rw [layoutEdit?_eq, place] at lays
  obtain ⟨newText, -, rfl⟩ := Option.map_eq_some_iff.mp lays
  exact ofEdit_excerpt short (woven ▸ Strand.standsIn_weave member) newText

/-- Revising rewrites the regions and nothing else. Edits of disjoint stretches of a document are
made at once, in whatever order they come. The regions of a document that embeds GraphQL are such
stretches, and the edits that lay out a document lead back to its regions; carried out, they leave
all code between the regions as it was. -/
theorem revise_rewrites_regions :
    (∀ text edits, FitTogether text edits → ∀ others : List TextEdit, others.Perm edits →
      revise text others = .ok (Replacement.rewrite (resolved text edits) 0 text)) ∧
    (∀ language text, language ≠ .graphQL →
      (embeddedExcerpts language text).Pairwise (fun first second =>
          first.span.stop < second.span.start) ∧
        ∀ excerpt ∈ embeddedExcerpts language text, excerpt.span.Marks text) ∧
    ∀ identifier text, text.width < 2 ^ 32 →
      FitTogether text (layoutEdits identifier text) ∧
      (Language.ofIdentifier? identifier = none →
        revise text (layoutEdits identifier text) = .ok text) ∧
      ∀ language, Language.ofIdentifier? identifier = some language →
        layoutEdits identifier text = (excerptsIn language text).filterMap (fun excerpt =>
          layoutEdit? (regionOf language text excerpt)) ∧
        (∀ excerpt ∈ excerptsIn language text, ∀ edit,
          layoutEdit? (regionOf language text excerpt) = some edit →
            Replacement.ofEdit (LineIndex.ofText text) edit =
              .ok ⟨excerpt.span, edit.newText⟩) ∧
        ∃ front strands others, text = Strand.weave front strands ∧
          excerptsIn language text = Strand.excerptsFrom front.width strands ∧
          Strand.SameCode strands others ∧
          revise text (layoutEdits identifier text) = .ok (Strand.weave front others) := by
  refine ⟨fun text edits fit others same => fit.revise_eq same,
    fun language text embeds => embeddedExcerpts_apart embeds text, ?_⟩
  intro identifier text short
  cases known : Language.ofIdentifier? identifier with
  | none =>
    have nothing : layoutEdits identifier text = [] := by simp [layoutEdits, regions?, known]
    rw [nothing]
    refine ⟨⟨List.forall_mem_nil _, List.forall_mem_nil _, .nil⟩, fun _ => ?_, by simp⟩
    simp [revise, Replacement.fromTheEnd]
    rfl
  | some language =>
    have edits : layoutEdits identifier text = (regionsIn language text).filterMap layoutEdit? := by
      simp [layoutEdits, regions?, known]
    obtain ⟨whole, front, strands, rfl, excerpts, apart, laid⟩ := exists_weave_layout language text
    refine ⟨?_, by simp, ?_⟩
    · rw [edits, laid]
      exact fitTogether_excerptEdits _ short (fun _ => Strand.standsIn_weave) apart
        (layout?_nil whole)
    · rintro _ ⟨⟩
      refine ⟨?_, fun excerpt member edit => ofEdit_layoutEdit short member, ?_⟩
      · rw [edits, regionsIn_eq, List.filterMap_map]
        rfl
      · refine ⟨front, strands, strands.map (Strand.exchange (layout? whole)), rfl, excerpts,
          Strand.sameCode_exchange _ strands, ?_⟩
        rw [edits, laid]
        refine revise_weave _ short (apart.imp_of_mem fun here _ before => ?_)
        obtain ⟨_, _, -, placed⟩ := Strand.standsIn_weave here
        rw [placed] at before ⊢
        exact Nat.lt_of_le_of_lt (Nat.le_add_right ..) before

/-- Two queries of a script are laid out, whichever comes first. -/
theorem revise_rewrites_regions_swapped :
    let text : Text := "gql\x60query Q \x7b a \x7d\x60; gql\x60query R \x7b b \x7d\x60".toList
    text.width < 2 ^ 32 ∧ (layoutEdits "javascript" text).length = 2 ∧
      FitTogether text (layoutEdits "javascript" text) ∧
      revise text (layoutEdits "javascript" text).reverse =
        .ok (Replacement.rewrite (resolved text (layoutEdits "javascript" text)) 0 text) ∧
      ∃ front strands others, text = Strand.weave front strands ∧
        excerptsIn .javaScript text = Strand.excerptsFrom front.width strands ∧
        Strand.SameCode strands others ∧
        revise text (layoutEdits "javascript" text) = .ok (Strand.weave front others) := by
  intro text
  have short : text.width < 2 ^ 32 := by decide +kernel
  obtain ⟨rewrites, -, lays⟩ := revise_rewrites_regions
  obtain ⟨fit, -, known⟩ := lays "javascript" text short
  obtain ⟨-, -, woven⟩ := known .javaScript rfl
  exact ⟨short, by decide +kernel, fit, rewrites text _ fit _ (List.reverse_perm _), woven⟩

end Relay

end RelayWorkbench
