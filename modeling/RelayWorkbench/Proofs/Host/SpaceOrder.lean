import RelayWorkbench.Proofs.Host.RegionPlaces

/-! The order of host positions and of region positions. From the start of a region on the two
spaces are one order, as far as words of 32 bits can name their positions and the sums that lead
from one to the other; what stands to the left of the region on its first line falls onto its
start. So the ends of a selection stay in order. -/

namespace RelayWorkbench

theorem RegionPosition.eq_of_not_lt {first second : RegionPosition} (before : ¬ first < second)
    (after : ¬ second < first) : first = second := by
  rw [RegionPosition.lt_iff] at before after
  exact RegionPosition.ext_iff_toNat.mpr (by omega)

namespace Host.Region

/-- Whether a host position does not precede the region and is found again from its region position:
on a later line than the region's first it must not be on the last one that a word can name. -/
def Reaches (region : Region) (host : Position) : Prop :=
  ¬ host < region.start ∧
    (host.line.toNat = region.start.line.toNat ∨ host.line.toNat + 1 < 2 ^ 32)

/-- Whether a region position is on a line of its own and words can name the sum of its column, on
the first line, or of its line, on the later ones, with that of the start of the region. -/
def Names (region : Region) (place : RegionPosition) : Prop :=
  (place.line.toNat = 1 ∧ region.start.character.toNat + place.character.toNat < 2 ^ 32) ∨
    (1 < place.line.toNat ∧ region.start.line.toNat + place.line.toNat < 2 ^ 32)

section Values

variable {region : Region}

theorem toHost_of_toRegion {host : Position} (reaches : region.Reaches host) :
    ∃ place, region.toRegion host = .ok place ∧ region.Names place ∧
      region.toHost place = .ok host := by
  obtain ⟨after, fits⟩ := reaches
  have columns := host.character.toNat_lt
  have startLines := region.start.line.toNat_lt
  rw [Position.lt_iff] at after
  obtain ⟨place, moved⟩ := @toRegion_returns region host (by omega)
  obtain ⟨line, character⟩ := toRegion_eq_ok_iff.mp moved
  refine ⟨place, moved, ?_, toHost_eq_ok_iff.mpr ?_⟩
  · rw [Names, line, character]
    split <;> omega
  · rcases Nat.eq_or_lt_of_le (show region.start.line.toNat ≤ host.line.toNat by omega) with
      same | later
    · rw [if_pos same.symm] at character
      rw [if_pos (by omega)]
      exact ⟨UInt32.toNat_inj.mp same.symm, by omega⟩
    · rw [if_neg (by omega)] at character
      rw [if_neg (by omega)]
      exact ⟨by omega, by omega, UInt32.toNat_inj.mp character.symm⟩

theorem toRegion_of_toHost {place : RegionPosition} (names : region.Names place) :
    ∃ host, region.toHost place = .ok host ∧ region.Reaches host ∧
      region.toRegion host = .ok place := by
  have lines := place.line.toNat_lt
  cases found : region.toHost place with
  | error trap =>
    obtain ⟨-, past⟩ := toHost_eq_error_iff.mp found
    rw [Names] at names
    split at past <;> omega
  | ok host =>
    have numbers := toHost_eq_ok_iff.mp found
    have startLines := region.start.line.toNat_lt
    rcases names with ⟨one, fits⟩ | ⟨later, fits⟩
    · rw [if_pos (by omega)] at numbers
      obtain ⟨line, column⟩ := numbers
      rw [← UInt32.toNat_inj] at line
      refine ⟨host, rfl, ?_, toRegion_eq_ok_iff.mpr ?_⟩
      · rw [Reaches, Position.lt_iff]
        omega
      · rw [if_pos line]
        omega
    · rw [if_neg (by omega)] at numbers
      obtain ⟨-, line, column⟩ := numbers
      rw [← UInt32.toNat_inj] at column
      refine ⟨host, rfl, ?_, toRegion_eq_ok_iff.mpr ?_⟩
      · rw [Reaches, Position.lt_iff]
        omega
      · rw [if_neg (by omega)]
        omega

/-- From the start of the region on the order of positions is that of their region positions. -/
theorem toRegion_lt_iff {first second : Position} {place other : RegionPosition}
    (after : ¬ first < region.start) (behind : ¬ second < region.start)
    (moved : region.toRegion first = .ok place) (movedToo : region.toRegion second = .ok other) :
    place < other ↔ first < second := by
  rw [toRegion_eq_ok_iff] at moved movedToo
  rw [Position.lt_iff] at after behind
  rw [RegionPosition.lt_iff, Position.lt_iff, moved.1, moved.2, movedToo.1, movedToo.2]
  split <;> split <;> omega

end Values

/-- The host positions from the start of a region on and the region positions are one order. -/
theorem exists_spaceIso (region : Region) :
    ∃ iso : Subrel (· < ·) region.Reaches ≃r Subrel (· < ·) region.Names,
      (∀ host : Subtype region.Reaches, region.toRegion host.val = .ok (iso host).val) ∧
        ∀ place : Subtype region.Names, region.toHost place.val = .ok (iso.symm place).val := by
  choose image moved names back using
    fun host : { host // region.Reaches host } => toHost_of_toRegion host.property
  choose origin found reaches forth using
    fun place : { place // region.Names place } => toRegion_of_toHost place.property
  refine ⟨{
    toFun := fun host => ⟨image host, names host⟩
    invFun := fun place => ⟨origin place, reaches place⟩
    left_inv := fun host => Subtype.ext (Except.ok.inj ((found _).symm.trans (back host)))
    right_inv := fun place => Subtype.ext (Except.ok.inj ((moved _).symm.trans (forth place)))
    map_rel_iff' := fun {first second} =>
      toRegion_lt_iff first.property.1 second.property.1 (moved first) (moved second)
  }, moved, found⟩

/-- Moved into the region, the ends of a selection on its lines are in the order of the ends. -/
theorem normalizeSelection_eq {region : Region} {selection : Range} {first last : RegionPosition}
    (above : region.start.line ≤ selection.start.line)
    (below : region.start.line ≤ selection.stop.line)
    (moved : region.toRegion selection.ordered.start = .ok first)
    (movedToo : region.toRegion selection.ordered.stop = .ok last) :
    region.normalizeSelection selection = .ok (first, last) := by
  rw [normalizeSelection_eq_ok_iff]
  by_cases backwards : selection.stop < selection.start
  · have forwards : ¬ selection.start < selection.stop := by
      rw [Position.lt_iff] at backwards ⊢
      omega
    simp only [Range.ordered, if_pos backwards] at moved movedToo
    refine ⟨last, first, movedToo, moved, ?_⟩
    split
    · rfl
    · next same =>
      rw [RegionPosition.eq_of_not_lt same (toRegion_not_lt forwards below moved movedToo)]
  · simp only [Range.ordered, if_neg backwards] at moved movedToo
    exact ⟨first, last, moved, movedToo,
      if_neg (toRegion_not_lt backwards above moved movedToo)⟩

/-- Host space and region space in order. The conversions are an isomorphism of the orders of the
host positions from the start of the region on and of the region positions, as far as words can
name the sums; the only positions that are not converted are those that have no such sum. Wherever
host positions have region positions, their order is kept from the start of the region on, and on
all lines from that of the start on none overtakes another, though positions left of the region may
fall together. So a selection on these lines, in either direction, is normalized to its ordered
ends. -/
theorem space_order (region : Region) :
    (∃ iso : Subrel (· < ·) region.Reaches ≃r Subrel (· < ·) region.Names,
      (∀ host : Subtype region.Reaches, region.toRegion host.val = .ok (iso host).val) ∧
        ∀ place : Subtype region.Names, region.toHost place.val = .ok (iso.symm place).val) ∧
    (∀ host trap, region.toRegion host = .error trap ↔
      trap = .overflow ∧ host.line.toNat + 1 = 2 ^ 32 ∧ region.start.line = 0) ∧
    (∀ place : RegionPosition, 1 ≤ place.line.toNat → ∀ trap,
      (region.toHost place = .error trap ↔ trap = .overflow ∧ ¬ region.Names place)) ∧
    (∀ first last place behind, region.toRegion first = .ok place →
      region.toRegion last = .ok behind →
        (¬ first < region.start → first < last → place < behind) ∧
        (region.start.line ≤ first.line → ¬ last < first → ¬ behind < place)) ∧
    ∀ selection : Range,
      region.start.line ≤ selection.start.line → region.start.line ≤ selection.stop.line →
      ¬ region.Overflows selection.ordered →
        ∃ first last, region.toRegion selection.ordered.start = .ok first ∧
          region.toRegion selection.ordered.stop = .ok last ∧
          region.normalizeSelection selection = .ok (first, last) := by
  refine ⟨region.exists_spaceIso, fun _ _ => toRegion_eq_error_iff, ?_, ?_, ?_⟩
  · intro place numbered trap
    rw [toHost_eq_error_iff, Names]
    refine and_congr_right fun _ => ?_
    split <;> omega
  · intro first last place behind moved movedToo
    refine ⟨fun after before => ?_, fun after ordered =>
      toRegion_not_lt ordered after moved movedToo⟩
    have later : ¬ last < region.start := by
      rw [Position.lt_iff] at after before ⊢
      omega
    exact (toRegion_lt_iff after later moved movedToo).mpr before
  · intro selection above below within
    have ordered := selection.ordered_stop_not_lt
    cases ends : region.normalizeSelection selection.ordered with
    | error trap => exact absurd ((normalizeSelection_eq_error_iff ordered).mp ends).2 within
    | ok pair =>
      obtain ⟨first, last, moved, movedToo, -⟩ := normalizeSelection_eq_ok_iff.mp ends
      exact ⟨first, last, moved, movedToo, normalizeSelection_eq above below moved movedToo⟩

/-- A selection made backwards that stops left of a region on its first line. -/
theorem space_order_backwards :
    let region := Region.embedded "\n  a\n".toList ⟨⟨3, 7⟩, ⟨5, 0⟩⟩
    let selection : Range := ⟨⟨4, 2⟩, ⟨3, 1⟩⟩
    region.start.line ≤ selection.start.line ∧ region.start.line ≤ selection.stop.line ∧
      ¬ region.Overflows selection.ordered ∧
      ∃ first last, region.toRegion ⟨3, 1⟩ = .ok first ∧ region.toRegion ⟨4, 2⟩ = .ok last ∧
        region.normalizeSelection selection = .ok (first, last) := by
  intro region selection
  have above : region.start.line ≤ selection.start.line := by decide
  have below : region.start.line ≤ selection.stop.line := by decide
  have within : ¬ region.Overflows selection.ordered := fun past => absurd past.2 (by decide)
  exact ⟨above, below, within, (space_order region).2.2.2.2 selection above below within⟩

/-- The last line that a position can name has a region position in a region that starts on the
second line of a script, but is not found again from it. -/
theorem toHost_last_line :
    let region := Region.embedded "\x7b a \x7d".toList ⟨⟨1, 4⟩, ⟨1, 9⟩⟩
    let host : Position := ⟨4294967295, 0⟩
    let place : RegionPosition := ⟨4294967295, 0⟩
    regionAt? "javascript" "\ngql\x60\x7b a \x7d\x60".toList ⟨1, 0⟩ = some region ∧
      ¬ host < region.start ∧ region.toRegion host = .ok place ∧
        region.toHost place = .error .overflow := by
  decide +kernel

end Host.Region

end RelayWorkbench
