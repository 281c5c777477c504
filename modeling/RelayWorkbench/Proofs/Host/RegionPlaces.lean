import RelayWorkbench.Host.RegionSpace
import RelayWorkbench.Proofs.Text.LineStarts
import RelayWorkbench.Proofs.Text.Traps

/-! Positions in numbers: how they are ordered, which host positions have a region position and
which region positions a host position, and which one it is. A region position counts its lines from
one, so that a host position has none when its line would be one past the last word. -/

namespace RelayWorkbench

theorem Position.lt_iff (first second : Position) :
    first < second ↔ first.line.toNat < second.line.toNat ∨
      (first.line.toNat = second.line.toNat ∧
        first.character.toNat < second.character.toNat) := by
  simp only [← UInt32.lt_iff_toNat_lt, UInt32.toNat_inj]
  rfl

theorem RegionPosition.lt_iff (first second : RegionPosition) :
    first < second ↔ first.line.toNat < second.line.toNat ∨
      (first.line.toNat = second.line.toNat ∧
        first.character.toNat < second.character.toNat) := by
  simp only [← UInt32.lt_iff_toNat_lt, UInt32.toNat_inj]
  rfl

theorem Position.ext_iff_toNat {first second : Position} :
    first = second ↔ first.line.toNat = second.line.toNat ∧
      first.character.toNat = second.character.toNat := by
  cases first
  cases second
  rw [Position.mk.injEq, UInt32.toNat_inj, UInt32.toNat_inj]

theorem RegionPosition.ext_iff_toNat {first second : RegionPosition} :
    first = second ↔ first.line.toNat = second.line.toNat ∧
      first.character.toNat = second.character.toNat := by
  cases first
  cases second
  rw [RegionPosition.mk.injEq, UInt32.toNat_inj, UInt32.toNat_inj]

theorem Range.ordered_stop_not_lt (range : Range) :
    ¬ range.ordered.stop < range.ordered.start := by
  simp only [Range.ordered]
  split
  · next less =>
    simp only [Position.lt_iff] at less ⊢
    omega
  · next more => exact more

namespace Host

@[simp] theorem toNat_monus (first second : UInt32) :
    (monus first second).toNat = first.toNat - second.toNat := by
  simp only [monus, UInt32.lt_iff_toNat_lt]
  split
  · next less => simp; omega
  · next more => exact UInt32.toNat_sub_of_le _ _ (by rw [UInt32.le_iff_toNat_le]; omega)

namespace Region

variable {region : Region}

theorem toRegion_eq_ok_iff {host : Position} {place : RegionPosition} :
    region.toRegion host = .ok place ↔
      place.line.toNat = host.line.toNat - region.start.line.toNat + 1 ∧
      place.character.toNat =
        if host.line.toNat = region.start.line.toNat then
          host.character.toNat - region.start.character.toNat
        else host.character.toNat := by
  simp only [toRegion, Checked.bind_eq_ok_iff, Checked.sum_eq_ok_iff, toNat_monus,
    UInt32.toNat_one, UInt32.toNat_inj]
  constructor
  · rintro ⟨line, sum, made⟩
    obtain rfl := Except.ok.inj made
    refine ⟨sum, ?_⟩
    split <;> simp
  · rintro ⟨line, character⟩
    refine ⟨place.line, line, congrArg Except.ok (RegionPosition.ext_iff_toNat.mpr ⟨rfl, ?_⟩)⟩
    rw [character]
    split <;> simp

theorem toRegion_eq_error_iff {host : Position} {trap : Trap} :
    region.toRegion host = .error trap ↔
      trap = .overflow ∧ host.line.toNat + 1 = 2 ^ 32 ∧ region.start.line = 0 := by
  have small := host.line.toNat_lt
  have ended : region.toRegion host = .error trap ↔
      Checked.sum (monus host.line region.start.line) 1 = .error trap := by
    rw [toRegion, Checked.bind_eq_error_iff]
    exact or_iff_left fun ⟨_, _, ended⟩ => nomatch ended
  rw [ended, Checked.sum_eq_error_iff, toNat_monus, UInt32.toNat_one, ← UInt32.toNat_inj,
    UInt32.toNat_zero]
  refine and_congr_right fun _ => ?_
  omega

theorem toRegion_returns {host : Position}
    (fits : host.line.toNat - region.start.line.toNat + 1 < 2 ^ 32) :
    ∃ place, region.toRegion host = .ok place := by
  cases moved : region.toRegion host with
  | ok place => exact ⟨place, rfl⟩
  | error trap =>
    obtain ⟨-, last, first⟩ := toRegion_eq_error_iff.mp moved
    rw [first, UInt32.toNat_zero] at fits
    omega

theorem toHost_eq_ok_iff {place : RegionPosition} {host : Position} :
    region.toHost place = .ok host ↔
      if place.line.toNat ≤ 1 then
        host.line = region.start.line ∧
          host.character.toNat = region.start.character.toNat + place.character.toNat
      else region.start.line.toNat + place.line.toNat < 2 ^ 32 ∧
        host.line.toNat = region.start.line.toNat + place.line.toNat - 1 ∧
          host.character = place.character := by
  simp only [toHost, UInt32.le_iff_toNat_le, UInt32.toNat_one]
  split
  · simp only [Checked.bind_eq_ok_iff, Checked.sum_eq_ok_iff]
    constructor
    · rintro ⟨column, sum, made⟩
      obtain rfl := Except.ok.inj made
      exact ⟨rfl, sum⟩
    · rintro ⟨line, column⟩
      exact ⟨host.character, column, congrArg Except.ok (by rw [← line])⟩
  · next later =>
    simp only [Checked.bind_eq_ok_iff, Checked.sum_eq_ok_iff]
    have lessOne : ∀ line : UInt32, line.toNat = region.start.line.toNat + place.line.toNat →
        (line - 1).toNat = line.toNat - 1 := fun line sum =>
      UInt32.toNat_sub_of_le _ _ (by rw [UInt32.le_iff_toNat_le, UInt32.toNat_one]; omega)
    constructor
    · rintro ⟨line, sum, made⟩
      obtain rfl := Except.ok.inj made
      have small := line.toNat_lt
      exact ⟨by omega, by rw [lessOne line sum, sum], rfl⟩
    · rintro ⟨fits, line, column⟩
      have sum : (region.start.line + place.line).toNat =
          region.start.line.toNat + place.line.toNat := by
        rw [UInt32.toNat_add, Nat.mod_eq_of_lt fits]
      refine ⟨_, sum, congrArg Except.ok (Position.ext_iff_toNat.mpr ⟨?_, by rw [column]⟩)⟩
      rw [lessOne _ sum, sum, line]

theorem toHost_eq_error_iff {place : RegionPosition} {trap : Trap} :
    region.toHost place = .error trap ↔ trap = .overflow ∧
      if place.line.toNat ≤ 1 then
        2 ^ 32 ≤ region.start.character.toNat + place.character.toNat
      else 2 ^ 32 ≤ region.start.line.toNat + place.line.toNat := by
  simp only [toHost, UInt32.le_iff_toNat_le, UInt32.toNat_one]
  split <;> rw [Checked.bind_eq_error_iff, Checked.sum_eq_error_iff] <;>
    exact or_iff_left fun ⟨_, _, ended⟩ => nomatch ended

theorem normalizeSelection_eq_ok_iff {selection : Range}
    {ends : RegionPosition × RegionPosition} :
    region.normalizeSelection selection = .ok ends ↔
      ∃ first last, region.toRegion selection.start = .ok first ∧
        region.toRegion selection.stop = .ok last ∧
          (if last < first then (last, first) else (first, last)) = ends := by
  simp only [normalizeSelection, Checked.bind_eq_ok_iff]
  constructor
  · rintro ⟨first, moved, last, movedToo, made⟩
    exact ⟨first, last, moved, movedToo, Except.ok.inj made⟩
  · rintro ⟨first, last, moved, movedToo, rfl⟩
    exact ⟨first, moved, last, movedToo, rfl⟩

/-- Whether a selection stops on the last line that a position can name, above a region that starts
on the first one. -/
def Overflows (region : Region) (selection : Range) : Prop :=
  selection.stop.line.toNat + 1 = 2 ^ 32 ∧ region.start.line = 0

/-- The ends of an ordered selection have region positions unless the last one has none. -/
theorem normalizeSelection_eq_error_iff {selection : Range} {trap : Trap}
    (ordered : ¬ selection.stop < selection.start) :
    region.normalizeSelection selection = .error trap ↔
      trap = .overflow ∧ region.Overflows selection := by
  have ended : region.normalizeSelection selection = .error trap ↔
      region.toRegion selection.start = .error trap ∨
        ∃ first, region.toRegion selection.start = .ok first ∧
          region.toRegion selection.stop = .error trap := by
    rw [normalizeSelection, Checked.bind_eq_error_iff]
    refine or_congr_right (exists_congr fun first => and_congr_right fun _ => ?_)
    rw [Checked.bind_eq_error_iff]
    exact or_iff_left fun ⟨_, _, ended⟩ => nomatch ended
  rw [Position.lt_iff] at ordered
  have small := selection.stop.line.toNat_lt
  rw [ended, toRegion_eq_error_iff, toRegion_eq_error_iff, Overflows]
  constructor
  · rintro (⟨same, last, first⟩ | ⟨_, -, past⟩)
    · exact ⟨same, by omega, first⟩
    · exact past
  · rintro ⟨same, last, first⟩
    cases moved : region.toRegion selection.start with
    | ok place => exact .inr ⟨place, rfl, same, last, first⟩
    | error other => exact .inl ⟨same, (toRegion_eq_error_iff.mp moved).2⟩

theorem toRegion_not_lt {first last : Position} {place behind : RegionPosition}
    (ordered : ¬ last < first) (after : region.start.line ≤ first.line)
    (moved : region.toRegion first = .ok place) (movedToo : region.toRegion last = .ok behind) :
    ¬ behind < place := by
  rw [toRegion_eq_ok_iff] at moved movedToo
  rw [UInt32.le_iff_toNat_le] at after
  rw [Position.lt_iff] at ordered
  rw [RegionPosition.lt_iff, moved.1, moved.2, movedToo.1, movedToo.2]
  split <;> split <;> omega

end Region

namespace RegionLocator

variable {locator : RegionLocator} {offset : Nat}

theorem position_eq_ok_iff {place : RegionPosition} :
    locator.position offset = .ok place ↔
      place.line.toNat = (locator.index.lineColumn offset).1 % 2 ^ 32 + 1 ∧
      place.character.toNat = (locator.index.lineColumn offset).2 % 2 ^ 32 := by
  simp only [position, Checked.bind_eq_ok_iff, Checked.sum_eq_ok_iff, UInt32.toNat_ofNat',
    UInt32.toNat_one]
  constructor
  · rintro ⟨line, sum, made⟩
    obtain rfl := Except.ok.inj made
    exact ⟨sum, UInt32.toNat_ofNat'⟩
  · rintro ⟨line, column⟩
    exact ⟨place.line, line, congrArg Except.ok
      (RegionPosition.ext_iff_toNat.mpr ⟨rfl, by rw [column, UInt32.toNat_ofNat']⟩)⟩

theorem position_returns (fits : (locator.index.lineColumn offset).1 + 1 < 2 ^ 32) :
    ∃ place, locator.position offset = .ok place := by
  have sum := @Checked.sum_of_lt (UInt32.ofNat (locator.index.lineColumn offset).1) 1
    (by rw [UInt32.toNat_ofNat', UInt32.toNat_one, Nat.mod_eq_of_lt (by omega)]; exact fits)
  simp only [position, sum]
  exact ⟨_, rfl⟩

/-- In a region that 32 bits can measure every column has an offset. -/
theorem offset?_returns {content : Text} (short : content.width < 2 ^ 32) (place : RegionPosition) :
    ∃ found, (ofContent content).offset? place = .ok found := by
  have narrow := place.character.toNat_lt
  rw [offset?]
  cases place.line.toNat with
  | zero => exact ⟨none, rfl⟩
  | succ line =>
    cases starts : (LineIndex.ofText content).lineStart? line with
    | none => exact ⟨none, by simp only [ofContent, LineIndex.offset?, starts]; rfl⟩
    | some start =>
      have early := LineIndex.lineStart?_le starts
      exact ⟨_, LineIndex.offset?_eq_some starts (by omega)⟩

end RegionLocator

end Host

end RelayWorkbench
