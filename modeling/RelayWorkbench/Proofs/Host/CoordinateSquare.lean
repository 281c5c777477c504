import RelayWorkbench.Proofs.Host.EmbeddedRegions
import RelayWorkbench.Proofs.Host.RegionPlaces
import RelayWorkbench.Proofs.Text.LineStarts

/-! Host positions and region positions name the same places. The lines of a document and the
lines of one of its excerpts differ by the lines before the excerpt, and the columns of its first
line by the column it starts at. -/

namespace RelayWorkbench.Host

open LineIndex

namespace Region

section Excerpts

variable {before content after : Text}

/-- The region of the excerpt between `before` and `after`. -/
private abbrev between (before content after : Text) : Region :=
  ofExcerpt (LineIndex.ofText (before ++ content ++ after))
    (Excerpt.startingAt before.width content)

private theorem start_between (before content after : Text) :
    (between before content after).start =
      ⟨UInt32.ofNat (startsAfter 0 before).length,
        UInt32.ofNat (before.width - lastStart (startsAfter 0 before))⟩ := by
  simp only [between, ofExcerpt, start, Excerpt.startingAt, position, List.append_assoc,
    lineColumn_slice_start]

private theorem stopLine_between :
    (between before content after).hostRange.stop.line =
      UInt32.ofNat ((startsAfter 0 before).length + (startsAfter 0 content).length) := by
  simp only [between, ofExcerpt, hostRange, Excerpt.startingAt, position,
    lineColumn_slice before content after (Nat.le_refl _), lineColumn_eq content (Nat.le_refl _),
    passed_width]

/-- On the lines of a region every host position reaches a place of the region: the byte it names
or the nearest end. -/
private theorem offset?_toRegion (short : (before ++ content ++ after).width < 2 ^ 32)
    (coded : after ≠ []) {host : Position}
    (onLine : (between before content after).onLineOf host) :
    ∃ place inside, (LineIndex.ofText (before ++ content ++ after)).offset? host.line.toNat
        host.character.toNat = .ok (some place) ∧
      (between before content after).toRegion host = .ok inside ∧
      (RegionLocator.ofContent content).offset? inside =
        .ok (some
          (min (max place before.width) (before.width + content.width) - before.width)) := by
  have linesBefore := length_startsAfter_le 0 before
  have linesInside := length_startsAfter_le 0 content
  have early := lastStart_startsAfter_le before
  have code := Text.width_pos coded
  simp only [Text.width_append] at short
  have starts := start_between before content after
  have onLine : (startsAfter 0 before).length ≤ host.line.toNat ∧
      host.line.toNat ≤ (startsAfter 0 before).length + (startsAfter 0 content).length := by
    have first : (between before content after).hostRange.start =
      (between before content after).start := rfl
    simp only [onLineOf, Bool.and_eq_true, decide_eq_true_eq, first, starts, stopLine_between,
      UInt32.le_iff_toNat_le, UInt32.toNat_ofNat'] at onLine
    omega
  obtain ⟨line, hostLine⟩ : ∃ line, host.line.toNat = (startsAfter 0 before).length + line :=
    ⟨host.line.toNat - (startsAfter 0 before).length, by omega⟩
  have inside : line ≤ (startsAfter 0 content).length := by omega
  have narrow := host.character.toNat_lt
  obtain ⟨place, outer, inner⟩ := offset?_slice before content after inside
    (show before.width + content.width + host.character.toNat < 2 ^ 64 by omega)
  have startLine : (between before content after).start.line.toNat =
      (startsAfter 0 before).length := by
    rw [starts, UInt32.toNat_ofNat', Nat.mod_eq_of_lt (by omega)]
  have startColumn : (between before content after).start.character.toNat =
      before.width - lastStart (startsAfter 0 before) := by
    rw [starts, UInt32.toNat_ofNat', Nat.mod_eq_of_lt (by omega)]
  obtain ⟨reached, moved⟩ := @toRegion_returns (between before content after) host (by omega)
  obtain ⟨regionLine, regionColumn⟩ := toRegion_eq_ok_iff.mp moved
  rw [hostLine, startLine, Nat.add_sub_cancel_left] at regionLine
  rw [hostLine, startLine, startColumn] at regionColumn
  refine ⟨place, reached, by rw [hostLine]; exact outer, moved, ?_⟩
  simp only [RegionLocator.offset?, regionLine, regionColumn, Nat.add_eq_left]
  exact inner

/-- A place in a region and that place in the document have corresponding positions. -/
private theorem toHost_position (short : (before ++ content ++ after).width < 2 ^ 32)
    (coded : after ≠ []) {offset : Nat} (inside : offset ≤ content.width) :
    ∃ place, (RegionLocator.ofContent content).position offset = .ok place ∧
      (between before content after).toHost place =
        .ok ((LineIndex.ofText (before ++ content ++ after)).position (before.width + offset)) := by
  have fewer : (passed content offset).length ≤ content.width :=
    Nat.le_trans (List.takeWhile_sublist _).length_le (length_startsAfter_le 0 content)
  have linesBefore := length_startsAfter_le 0 before
  have early := lastStart_startsAfter_le before
  have code := Text.width_pos coded
  simp only [Text.width_append] at short
  have placed := lineColumn_slice before content after inside
  have ends := lineColumn_eq content inside
  obtain ⟨place, there⟩ := @RegionLocator.position_returns (RegionLocator.ofContent content) offset
    (by simp only [RegionLocator.ofContent, ends]; omega)
  obtain ⟨line, column⟩ := RegionLocator.position_eq_ok_iff.mp there
  simp only [RegionLocator.ofContent, ends] at line column
  rw [Nat.mod_eq_of_lt (by omega)] at line column
  refine ⟨place, there, toHost_eq_ok_iff.mpr ?_⟩
  simp only [position, placed, ends, start_between, UInt32.toNat_ofNat', line, column]
  rw [Nat.mod_eq_of_lt (show (startsAfter 0 before).length < 2 ^ 32 by omega),
    Nat.mod_eq_of_lt (show before.width - lastStart (startsAfter 0 before) < 2 ^ 32 by omega)]
  split
  · next first =>
    have zero : (passed content offset).length = 0 := by omega
    rw [if_pos zero, zero, Nat.add_zero]
    exact ⟨rfl, Nat.mod_eq_of_lt (by omega)⟩
  · next later =>
    rw [if_neg (show (passed content offset).length ≠ 0 by omega)]
    refine ⟨by omega, ?_, ?_⟩
    · rw [Nat.mod_eq_of_lt (by omega)]
      omega
    · rw [← UInt32.toNat_inj, column, UInt32.toNat_ofNat', Nat.mod_eq_of_lt (by omega)]

end Excerpts

/-- The first end of an ordered selection that starts on a region is inside the region. -/
private theorem offset?_normalizeSelection {region : Region} {locator : RegionLocator}
    {range : Range} {first last place : RegionPosition} {offset : Nat}
    (ends : region.normalizeSelection range = .ok (first, last))
    (ordered : ¬ range.stop < range.start) (after : region.start.line ≤ range.start.line)
    (moved : region.toRegion range.start = .ok place)
    (reached : locator.offset? place = .ok (some offset)) :
    locator.offset? first = .ok (some offset) := by
  obtain ⟨start, stop, movedAgain, movedToo, same⟩ := normalizeSelection_eq_ok_iff.mp ends
  obtain rfl := Except.ok.inj (moved.symm.trans movedAgain)
  rw [if_neg (toRegion_not_lt ordered after moved movedToo)] at same
  obtain ⟨rfl, -⟩ := Prod.mk.inj same
  exact reached

/-- The coordinate square. In a document of less than `2 ^ 32` bytes, a host position on the lines
of an embedded region reaches the byte it names, moved to the nearest end of the region; the
places of the region and of the document correspond; and a selection that starts on the region does
not start outside it. Nothing of this ends the program, except for a selection that stops on the
last line that a position can name. -/
theorem coordinate_square {language : Language} (embeds : language ≠ .graphQL) {text : Text}
    (short : text.width < 2 ^ 32) {excerpt : Excerpt}
    (member : excerpt ∈ embeddedExcerpts language text) :
    let index := LineIndex.ofText text
    let region := ofExcerpt index excerpt
    let locator := RegionLocator.ofContent region.content
    (∀ host, region.onLineOf host →
      ∃ place inside, index.offset? host.line.toNat host.character.toNat = .ok (some place) ∧
        region.toRegion host = .ok inside ∧
        locator.offset? inside =
          .ok (some (min (max place excerpt.span.start) excerpt.span.stop - excerpt.span.start))) ∧
    (∀ offset ≤ excerpt.span.stop - excerpt.span.start,
      ∃ place, locator.position offset = .ok place ∧
        region.toHost place = .ok (index.position (excerpt.span.start + offset))) ∧
    ∀ selection : Range, region.onLineOf selection.ordered.start →
      (∀ trap, region.normalizeSelection selection.ordered = .error trap ↔
        trap = .overflow ∧ region.Overflows selection.ordered) ∧
      ∀ first last, region.normalizeSelection selection.ordered = .ok (first, last) →
        ∃ offset, locator.offset? first = .ok (some offset) := by
  obtain ⟨before, after, rfl, coded, placed⟩ := exists_split_of_mem embeds member
  rw [placed]
  refine ⟨fun host onLine => offset?_toRegion short coded onLine, fun offset inside => ?_,
    fun selection onLine => ⟨fun trap => ?_, fun first last ends => ?_⟩⟩
  · refine toHost_position short coded ?_
    simp only [Excerpt.startingAt] at inside
    omega
  · exact normalizeSelection_eq_error_iff selection.ordered_stop_not_lt
  · obtain ⟨place, inside, -, moved, reached⟩ := offset?_toRegion short coded onLine
    obtain ⟨after, -⟩ := by simpa only [onLineOf, Bool.and_eq_true, decide_eq_true_eq] using onLine
    exact ⟨_, offset?_normalizeSelection ends selection.ordered_stop_not_lt after moved reached⟩

/-- A region of two lines in a script: its places and those of the script correspond. -/
theorem coordinate_square_two_lines :
    let text : Text := "let q = gql\x60\x7b\n  a \x7d\x60;".toList
    let excerpt := Excerpt.startingAt 12 "\x7b\n  a \x7d".toList
    let region := ofExcerpt (LineIndex.ofText text) excerpt
    excerpt ∈ embeddedExcerpts .javaScript text ∧ text.width < 2 ^ 32 ∧
      ∀ offset ≤ 7, ∃ place, (RegionLocator.ofContent region.content).position offset = .ok place ∧
        region.toHost place = .ok ((LineIndex.ofText text).position (12 + offset)) := by
  intro text excerpt region
  have member : excerpt ∈ embeddedExcerpts .javaScript text := by decide +kernel
  have short : text.width < 2 ^ 32 := by decide +kernel
  exact ⟨member, short, (coordinate_square (by decide) short member).2.1⟩

end Region

end RelayWorkbench.Host
