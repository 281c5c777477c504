import RelayWorkbench.Proofs.Host.BlockWeaving

/-! Reason files as gaps and blocks in turn. There is one way to take a text apart like that, and
the blocks that are found are the written ones whose own gap announces GraphQL. -/

namespace RelayWorkbench.Host.QuotedBlock

/-- A complete block, and the gap between the block before and this one. -/
@[ext] structure Block where
  gap : Text
  body : Text
  unopened : ¬ opening <:+: gap
  unclosed : ¬ closing <:+: body

def Block.text (block : Block) : Text :=
  block.gap ++ opening ++ (block.body ++ closing)

/-- A block that opens and closes stands somewhere in the text. -/
def HoldsBlock (text : Text) : Prop :=
  ∃ before body behind, text = before ++ opening ++ (body ++ closing ++ behind)

/-- Gaps and blocks in turn, and a text without complete blocks behind them. -/
@[ext] structure Split where
  blocks : List Block
  tail : Text
  endless : ¬ HoldsBlock tail

def Split.text (split : Split) : Text := split.blocks.flatMap Block.text ++ split.tail

/-- In a gap stands `[%graphql` with no word character behind it, or `[%relay.` with one. -/
def Announced (gap : Text) : Prop :=
  ∃ before behind,
    gap = before ++ "[%graphql".toList ++ behind ∧ behind.head?.any Text.isWordChar = false ∨
    gap = before ++ "[%relay.".toList ++ behind ∧ behind.head?.any Text.isWordChar

private theorem announces_iff_exists {gap : Text} :
    announces gap ↔ ∃ before point, gap = before ++ point ∧ startsExtensionPoint point := by
  induction gap with
  | nil =>
    refine ⟨nofun, fun ⟨before, point, split, starts⟩ => ?_⟩
    obtain ⟨-, rfl⟩ := List.append_eq_nil_iff.mp split.symm
    exact absurd starts (by decide)
  | cons char rest ih =>
    rw [announces, Bool.or_eq_true, ih]
    constructor
    · rintro (starts | ⟨before, point, rfl, starts⟩)
      · exact ⟨[], char :: rest, rfl, starts⟩
      · exact ⟨char :: before, point, rfl, starts⟩
    · rintro ⟨before, point, split, starts⟩
      cases before with
      | nil =>
        cases split
        exact .inl starts
      | cons first before =>
        cases split
        exact .inr ⟨before, point, rfl, starts⟩

private theorem isPrefixOf_iff {word point : Text} (holds : Text → Prop) :
    (word.isPrefixOf point ∧ holds (point.drop word.length)) ↔
      ∃ behind, point = word ++ behind ∧ holds behind := by
  rw [List.isPrefixOf_iff_prefix]
  constructor
  · rintro ⟨⟨behind, rfl⟩, rest⟩
    exact ⟨behind, rfl, by rwa [List.drop_left] at rest⟩
  · rintro ⟨behind, rfl, rest⟩
    exact ⟨List.prefix_append .., by rwa [List.drop_left]⟩

private theorem startsExtensionPoint_iff {point : Text} :
    startsExtensionPoint point ↔ ∃ behind,
      point = "[%graphql".toList ++ behind ∧ behind.head?.any Text.isWordChar = false ∨
      point = "[%relay.".toList ++ behind ∧ behind.head?.any Text.isWordChar := by
  rw [startsExtensionPoint, Bool.or_eq_true, Bool.and_eq_true, Bool.and_eq_true,
    Bool.not_eq_true', exists_or]
  exact or_congr (isPrefixOf_iff fun behind => behind.head?.any Text.isWordChar = false)
    (isPrefixOf_iff fun behind => behind.head?.any Text.isWordChar)

theorem announces_iff {gap : Text} : announces gap ↔ Announced gap := by
  simp only [announces_iff_exists, startsExtensionPoint_iff, Announced]
  constructor
  · rintro ⟨before, point, rfl, behind, ⟨rfl, ends⟩ | ⟨rfl, goes⟩⟩
    · exact ⟨before, behind, .inl ⟨(List.append_assoc ..).symm, ends⟩⟩
    · exact ⟨before, behind, .inr ⟨(List.append_assoc ..).symm, goes⟩⟩
  · rintro ⟨before, behind, ⟨rfl, ends⟩ | ⟨rfl, goes⟩⟩
    · exact ⟨before, _, List.append_assoc .., behind, .inl ⟨rfl, ends⟩⟩
    · exact ⟨before, _, List.append_assoc .., behind, .inr ⟨rfl, goes⟩⟩

instance (gap : Text) : Decidable (Announced gap) := decidable_of_iff _ announces_iff

/-- The bodies of the blocks that have some and whose own gap announces GraphQL, in order. Each one
begins behind the two bytes that open it and reaches as far as it is wide. -/
def announcedIn (offset : Nat) : List Block → List Excerpt
  | [] => []
  | block :: rest =>
    let later := announcedIn (offset + block.text.width) rest
    if Announced block.gap ∧ block.body ≠ [] then
      let start := offset + block.gap.width + 2
      ⟨⟨start, start + block.body.width⟩, block.body⟩ :: later
    else later

namespace Block

variable (block : Block)

theorem text_append (rest : Text) :
    block.text ++ rest = block.gap ++ opening ++ (block.body ++ closing ++ rest) := by
  simp [text]

theorem cut?_opening (other : Text) :
    Text.cut? opening (block.gap ++ opening ++ other) = some (block.gap, other) :=
  Text.cut?_append_pair (by decide) block.unopened other

theorem closesAfter : Language.reason.closesAfter block.body :=
  closesAfter_of_cut (Text.cut?_append_pair (by decide) block.unclosed [])

/-- A block is cut off a text in one way only. -/
theorem append_inj {other : Block} {rest behind : Text}
    (same : block.text ++ rest = other.text ++ behind) : block = other ∧ rest = behind := by
  rw [text_append, text_append] at same
  have opens := block.cut?_opening (block.body ++ closing ++ rest)
  rw [same, other.cut?_opening] at opens
  obtain ⟨gap, inside⟩ := Prod.mk.inj (Option.some.inj opens)
  have closes := cut_of_closesAfter block.closesAfter rest
  rw [← inside, cut_of_closesAfter other.closesAfter] at closes
  obtain ⟨body, tail⟩ := Prod.mk.inj (Option.some.inj closes)
  exact ⟨Block.ext gap.symm body.symm, tail.symm⟩

end Block

/-- A text holds a complete block exactly if the first that opens closes. -/
theorem holdsBlock_iff {text : Text} :
    HoldsBlock text ↔ ∃ gap inside body rest, Text.cut? opening text = some (gap, inside) ∧
      Text.cut? closing inside = some (body, rest) := by
  constructor
  · rintro ⟨before, body, behind, rfl⟩
    have opens : ∃ gap inside, Text.cut? opening
        (before ++ opening ++ (body ++ closing ++ behind)) = some (gap, inside) ∧
          closing <:+: inside := by
      cases early : Text.cut? opening before with
      | none =>
        let block : Block := ⟨before, [], Text.cut?_eq_none_iff.mp early, by decide⟩
        exact ⟨before, _, block.cut?_opening _, body, behind, rfl⟩
      | some parts =>
        obtain ⟨gap, inside⟩ := parts
        have found := Text.cut?_append (by decide) early
          (inside ++ opening ++ (body ++ closing ++ behind))
        refine ⟨gap, inside ++ opening ++ (body ++ closing ++ behind), ?_,
          inside ++ opening ++ body, behind, by simp⟩
        rw [Text.eq_of_cut? early, ← found]
        simp
    obtain ⟨gap, inside, opens, closes⟩ := opens
    obtain ⟨⟨body, rest⟩, closed⟩ := Option.isSome_iff_exists.mp (Text.isSome_cut? closes)
    exact ⟨gap, inside, body, rest, opens, closed⟩
  · rintro ⟨gap, inside, body, rest, opens, closes⟩
    exact ⟨gap, body, rest, by rw [Text.eq_of_cut? opens, Text.eq_of_cut? closes]⟩

theorem HoldsBlock.behind (block : Block) (rest : Text) : HoldsBlock (block.text ++ rest) :=
  ⟨block.gap, block.body, rest, block.text_append rest⟩

theorem exists_split (text : Text) : ∃ split : Split, split.text = text := by
  by_cases holds : HoldsBlock text
  · obtain ⟨gap, inside, body, rest, opens, closes⟩ := holdsBlock_iff.mp holds
    have parts : text = gap ++ opening ++ (body ++ closing ++ rest) := by
      rw [Text.eq_of_cut? opens, Text.eq_of_cut? closes]
    obtain ⟨⟨blocks, tail, endless⟩, later⟩ := exists_split rest
    let block : Block := ⟨gap, body, Text.not_infix_of_cut? (by decide) opens,
      Text.not_infix_of_cut? (by decide) closes⟩
    refine ⟨⟨block :: blocks, tail, endless⟩, ?_⟩
    rw [parts, ← later, ← block.text_append]
    simp [Split.text]
  · exact ⟨⟨[], text, holds⟩, rfl⟩
termination_by text.length
decreasing_by
  rw [parts]
  simp only [List.length_append, length_opening, length_closing]
  omega

theorem Split.eq_of_text_eq {split other : Split} (same : split.text = other.text) :
    split = other := by
  obtain ⟨blocks, tail, endless⟩ := split
  obtain ⟨others, rest, endlessOther⟩ := other
  simp only [Split.text] at same
  induction blocks generalizing others with
  | nil =>
    cases others with
    | nil => exact Split.ext rfl same
    | cons block others =>
      rw [List.flatMap_nil, List.nil_append, List.flatMap_cons, List.append_assoc] at same
      exact absurd (same ▸ HoldsBlock.behind block _) endless
  | cons block blocks ih =>
    cases others with
    | nil =>
      rw [List.flatMap_nil, List.nil_append, List.flatMap_cons, List.append_assoc] at same
      exact absurd (same ▸ HoldsBlock.behind block _) endlessOther
    | cons other others =>
      simp only [List.flatMap_cons, List.append_assoc] at same
      obtain ⟨rfl, later⟩ := block.append_inj same
      obtain ⟨rfl, rfl⟩ := Split.mk.inj (ih others later)
      rfl

/-- The search goes through the blocks one by one and passes over the tail. -/
theorem announcedFrom_blocks {tail : Text} (endless : ¬ HoldsBlock tail) (blocks : List Block)
    (fuel offset : Nat) (enough : (blocks.flatMap Block.text ++ tail).length ≤ fuel) :
    announcedFrom fuel offset (blocks.flatMap Block.text ++ tail) = announcedIn offset blocks := by
  induction blocks generalizing fuel offset with
  | nil =>
    refine announcedFrom_eq_nil (fun gap inside opens => ?_) offset fuel
    refine Option.eq_none_iff_forall_ne_some.mpr fun (body, rest) closes => endless ?_
    exact holdsBlock_iff.mpr ⟨gap, inside, body, rest, opens, closes⟩
  | cons block blocks ih =>
    rw [List.flatMap_cons, List.append_assoc] at enough ⊢
    have length : block.text.length = block.gap.length + 2 + (block.body.length + 2) := by
      simp only [Block.text, List.length_append, length_opening, length_closing]
    have width : block.text.width = block.gap.width + 2 + (block.body.width + 2) := by
      simp only [Block.text, Text.width_append, width_opening, width_closing]
    rw [List.length_append] at enough
    obtain ⟨fuel, rfl⟩ : ∃ less, fuel = less + 1 := ⟨fuel - 1, by omega⟩
    have next : offset + block.gap.width + 2 + block.body.width + 2 =
        offset + block.text.width := by omega
    rw [block.text_append, announcedFrom_block fuel offset block.cut?_opening block.closesAfter,
      next, ih fuel _ (by omega), announcedIn]
    by_cases announced : Announced block.gap ∧ block.body ≠ []
    · rw [if_pos announced, if_pos (by simpa [announces_iff] using announced)]
      rfl
    · rw [if_neg announced, if_neg (by simpa [announces_iff] using announced)]
      rfl

/-- There is exactly one way to take a text apart into gaps and blocks, and the bodies that are
found are those of the blocks that are not empty and whose own gap announces GraphQL, at their
places and in order. What stands in another gap or in the tail makes no difference. -/
theorem announcedBlocks_eq_announcedIn :
    (∀ text, ∃! split : Split, split.text = text) ∧
      ∀ split : Split, announcedBlocks split.text = announcedIn 0 split.blocks := by
  refine ⟨fun text => ?_, fun split => ?_⟩
  · obtain ⟨split, same⟩ := exists_split text
    exact ⟨split, same, fun other equal => Split.eq_of_text_eq (equal.trans same.symm)⟩
  · exact announcedFrom_blocks split.endless split.blocks _ 0 (Nat.le_refl _)

-- An empty block ends its gap, `[%graphqls` announces nothing, and the last block is not closed.
example :
    announcedBlocks ("[%graphql \x7b||\x7d [%graphqls \x7b|a|\x7d ".toList ++
        "[%relay.query \x7b|é b|\x7d [%graphql \x7b|c".toList) =
      [⟨⟨48, 52⟩, "é b".toList⟩] := by
  decide +kernel

end RelayWorkbench.Host.QuotedBlock
