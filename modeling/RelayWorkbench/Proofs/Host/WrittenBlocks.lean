import RelayWorkbench.Proofs.Host.EmbeddedRegions
import RelayWorkbench.Proofs.Host.Sparing
import RelayWorkbench.Proofs.Text.LineStarts

/-! Blocks that are written at the end of a Reason file. If all blocks of the file close, then the
new block is found behind them, and nothing else changes. -/

namespace RelayWorkbench.Host

/-- What is in a text that a Reason file is read over is what does not close a block. -/
theorem Language.spares_reason_iff {text : Text} :
    Language.reason.Spares text ↔ ¬ "|\x7d".toList <:+: text := by
  constructor
  · rintro ⟨-, apart⟩ ⟨front, back, rfl⟩
    have inside : ("|\x7d".toList ++ back).IsChain Language.reason.Apart := by
      rw [List.append_assoc] at apart
      exact apart.right_of_append
    exact inside.rel_head? rfl rfl rfl
  · intro open'
    refine ⟨nofun, ?_⟩
    induction text with
    | nil => exact .nil
    | cons char rest ih =>
      have later : ¬ "|\x7d".toList <:+: rest := fun ⟨front, back, same⟩ =>
        open' ⟨char :: front, back, by rw [← same]; rfl⟩
      refine (ih later).cons ?_
      rintro next here rfl rfl
      cases rest with
      | nil => cases here
      | cons first rest =>
        cases here
        exact open' ⟨[], rest, rfl⟩

namespace QuotedBlock

/-- A text in which every block that opens closes. -/
inductive Closed : Text → Prop where
  | code {text : Text} (plain : Text.cut? opening text = none) : Closed text
  | block {text gap inside body rest : Text} (opens : Text.cut? opening text = some (gap, inside))
      (closes : Text.cut? closing inside = some (body, rest)) (later : Closed rest) : Closed text

theorem announces_append {front back : Text} (announced : announces back) :
    announces (front ++ back) := by
  induction front with
  | nil => exact announced
  | cons char rest ih => rw [List.cons_append, announces, ih, Bool.or_true]

/-- Without a bar no block closes early. -/
theorem closesAfter_of_notMem {body : Text} (plain : '|' ∉ body) :
    Language.reason.closesAfter body := by
  have none : Text.cut? ['|', '\x7d'] body = none :=
    Text.cut?_of_notMem (List.mem_cons_self (l := ['\x7d'])) plain
  have apart : (['|', '\x7d'] : Text).head? ≠ some '\x7d' := by decide
  have cut : Text.cut? closing (body ++ closing) = some (body, []) :=
    (Text.cut?_append_of_none none apart).trans (by simp [Text.cut?])
  exact closesAfter_of_cut cut

/-- Code with one announced block in it, to be put behind other code. -/
structure Written where
  before : Text
  body : Text
  behind : Text
  /-- Nothing opens before the block, not even together with the code in front. -/
  opens : '\x7b' ∉ before
  apart : before.head? ≠ some '|'
  announced : announces before
  closes : Language.reason.closesAfter body
  written : body ≠ []
  plain : '|' ∉ behind

namespace Written

def text (block : Written) : Text :=
  block.before ++ opening ++ (block.body ++ closing ++ block.behind)

/-- Behind code without blocks the block is found. -/
private theorem announcedFrom_code (block : Written) {front : Text}
    (plain : Text.cut? opening front = none) {fuel : Nat} (offset : Nat) (enough : 0 < fuel) :
    announcedFrom fuel offset (front ++ block.text) =
      [Excerpt.startingAt (offset + front.width + block.before.width + 2) block.body] := by
  obtain ⟨fuel, rfl⟩ : ∃ less, fuel = less + 1 := ⟨fuel - 1, by omega⟩
  have opens : ∀ other, Text.cut? opening (front ++ block.before ++ opening ++ other) =
      some (front ++ block.before, other) := by
    have literal : opening = ['\x7b', '|'] := rfl
    rw [literal] at plain ⊢
    have none := Text.cut?_of_notMem (List.mem_cons_self (l := ['|'])) block.opens
    have own : Text.cut? ['\x7b', '|'] (block.before ++ ['\x7b', '|']) = _ :=
      Text.cut?_append_of_none none (by decide)
    have apart : (block.before ++ ['\x7b', '|']).head? ≠ some '|' := by
      cases same : block.before with
      | nil => decide
      | cons char rest => simpa [same] using block.apart
    have all := Text.cut?_append_of_none plain apart
    rw [own, ← List.append_assoc] at all
    exact Text.cut?_append (by decide) (by simpa [Text.cut?] using all)
  have parts : front ++ block.text =
      front ++ block.before ++ opening ++ (block.body ++ closing ++ block.behind) := by
    simp [text]
  have announced : announces (front ++ block.before) := announces_append block.announced
  have endless : ∀ gap inside, Text.cut? opening block.behind = some (gap, inside) →
      Text.cut? closing inside = none := by
    intro gap inside found
    have none := Text.cut?_of_notMem (by decide : '|' ∈ opening) block.plain
    cases none.symm.trans found
  rw [parts, announcedFrom_block fuel offset opens block.closes, announcedFrom_eq_nil endless]
  simp [announced, block.written, Text.width_append, Nat.add_assoc]

private theorem announcedFrom_append (block : Written) {front : Text} (closed : Closed front)
    (fuel more offset : Nat) (enough : front.length ≤ fuel)
    (whole : (front ++ block.text).length ≤ more) :
    announcedFrom more offset (front ++ block.text) = announcedFrom fuel offset front ++
      [Excerpt.startingAt (offset + front.width + block.before.width + 2) block.body] := by
  induction closed generalizing fuel more offset with
  | code plain =>
    next front =>
    have positive : 0 < more := by
      have := length_opening
      simp only [text, List.length_append] at whole
      omega
    have none : announcedFrom fuel offset front = [] := announcedFrom_eq_nil (by simp [plain]) _ _
    rw [none, block.announcedFrom_code plain offset positive, List.nil_append]
  | block opens closes later ih =>
    next front gap inside body rest =>
    have splitInside := Text.eq_of_cut? closes
    have split := Text.eq_of_cut? opens
    have opensFor := Text.cut?_append (by decide) opens
    have closesBody := closesAfter_of_cut closes
    subst splitInside split
    simp only [List.length_append, length_opening, length_closing] at enough whole
    obtain ⟨fuel, rfl⟩ : ∃ less, fuel = less + 1 := ⟨fuel - 1, by omega⟩
    obtain ⟨more, rfl⟩ : ∃ less, more = less + 1 := ⟨more - 1, by omega⟩
    have parts : gap ++ opening ++ (body ++ closing ++ rest) ++ block.text =
        gap ++ opening ++ (body ++ closing ++ (rest ++ block.text)) := by
      simp
    have further := ih fuel more (offset + gap.width + 2 + body.width + 2) (by omega)
      (by rw [List.length_append]; omega)
    rw [parts, announcedFrom_block more offset opensFor closesBody,
      announcedFrom_block fuel offset opensFor closesBody, further, List.append_assoc]
    simp only [Text.width_append, width_opening, width_closing, Nat.add_assoc]

def region (block : Written) (front : Text) : Region :=
  Region.ofExcerpt (LineIndex.ofText (front ++ block.text))
    (Excerpt.startingAt (front.width + block.before.width + 2) block.body)

theorem content_region (block : Written) (front : Text) :
    (block.region front).content = block.body := rfl

/-- The regions of a file with a block at its end are those of the file before, and the block. -/
theorem regionsIn_append (block : Written) {front : Text} (closed : Closed front) :
    regionsIn .reason (front ++ block.text) =
      regionsIn .reason front ++ [block.region front] := by
  have found := block.announcedFrom_append closed _ _ 0 (Nat.le_refl _) (Nat.le_refl _)
  have still : ∀ excerpt ∈ announcedBlocks front,
      Region.ofExcerpt (LineIndex.ofText (front ++ block.text)) excerpt =
        Region.ofExcerpt (LineIndex.ofText front) excerpt := by
    intro excerpt member
    obtain ⟨before, after, split, -, placed⟩ :=
      exists_split_of_mem (by decide : Language.reason ≠ .graphQL) member
    have start : excerpt.span.start = before.width := by rw [placed]; rfl
    have stop : excerpt.span.stop = before.width + excerpt.content.width := by rw [placed]; rfl
    have wide : front.width = before.width + excerpt.content.width + after.width := by
      rw [split, Text.width_append, Text.width_append]
    rw [Region.ofExcerpt, Region.ofExcerpt, LineIndex.position_append _ _ (by omega),
      LineIndex.position_append _ _ (by omega)]
  have blocks : ∀ text, regionsIn .reason text =
      (announcedBlocks text).map (Region.ofExcerpt (LineIndex.ofText text)) := fun _ => rfl
  rw [blocks, blocks, announcedBlocks, found, List.map_append, List.map_singleton, Nat.zero_add]
  exact congrArg (· ++ [block.region front]) (List.map_congr_left still)

end Written

end QuotedBlock

end RelayWorkbench.Host
