import RelayWorkbench.Proofs.Host.Weaving

/-! Reason files are woven of code and quoted blocks. -/

namespace RelayWorkbench.Host.QuotedBlock

def opening : Text := "\x7b|".toList

def closing : Text := "|\x7d".toList

theorem closesAfter_of_cut {inside body rest : Text}
    (cut : Text.cut? closing inside = some (body, rest)) : Language.reason.closesAfter body := by
  have here := Text.cut?_append (by decide) cut []
  rw [List.append_nil] at here
  simpa [Language.closesAfter, Language.usesTemplateTags, closing] using here

theorem cut_of_closesAfter {body : Text} (closes : Language.reason.closesAfter body) (rest : Text) :
    Text.cut? closing (body ++ closing ++ rest) = some (body, rest) := by
  have here : Text.cut? closing (body ++ closing) = some (body, []) := by
    simpa [Language.closesAfter, Language.usesTemplateTags, closing] using closes
  exact Text.cut?_append (by decide) here rest

theorem length_opening : opening.length = 2 := rfl

theorem length_closing : closing.length = 2 := rfl

theorem width_opening : opening.width = 2 := rfl

theorem width_closing : closing.width = 2 := rfl

theorem announcedFrom_eq_nil {text : Text}
    (endless : ∀ gap inside, Text.cut? opening text = some (gap, inside) →
      Text.cut? closing inside = none) (offset fuel : Nat) :
    announcedFrom fuel offset text = [] := by
  cases fuel with
  | zero => rfl
  | succ fuel =>
    rw [announcedFrom]
    split
    · rfl
    · next gap inside opens =>
      have closes := endless gap inside opens
      simp only [closing] at closes
      rw [closes]

theorem announcedFrom_block {gap body : Text} (fuel offset : Nat) {rest : Text}
    (opens : ∀ other, Text.cut? opening (gap ++ opening ++ other) = some (gap, other))
    (closes : Language.reason.closesAfter body) :
    announcedFrom (fuel + 1) offset (gap ++ opening ++ (body ++ closing ++ rest)) =
      (if announces gap && !body.isEmpty then [Excerpt.startingAt (offset + gap.width + 2) body]
        else []) ++
      announcedFrom fuel (offset + gap.width + 2 + body.width + 2) rest := by
  have opened := opens (body ++ closing ++ rest)
  have closed := cut_of_closesAfter closes rest
  simp only [opening, closing] at opened closed ⊢
  simp only [announcedFrom, opened, closed]
  split <;> rfl

/-- The search finds whatever admitted texts stand in place of the strands. -/
private def Finds (front : Text) (strands : List Strand) : Prop :=
  ∀ others, Strand.SameCode strands others →
    (∀ strand ∈ others, Language.reason.Admits strand.content) →
    ∀ offset fuel, (Strand.weave front others).length ≤ fuel →
      announcedFrom fuel offset (Strand.weave front others) =
        Strand.excerptsFrom (offset + front.width) others

/-- Without a further block that closes, the rest of a file is code. -/
private theorem finds_code {text : Text}
    (endless : ∀ gap inside, Text.cut? opening text = some (gap, inside) →
      Text.cut? closing inside = none) : Finds text [] := by
  intro others same _ offset fuel _
  obtain rfl := same.eq_nil
  simpa [Strand.weave, Strand.excerptsFrom] using announcedFrom_eq_nil endless offset fuel

private theorem finds_passed {gap body front : Text} {strands : List Strand}
    (opens : ∀ other, Text.cut? opening (gap ++ opening ++ other) = some (gap, other))
    (closes : Language.reason.closesAfter body)
    (unannounced : (announces gap && !body.isEmpty) = false) (finds : Finds front strands) :
    Finds (gap ++ opening ++ (body ++ closing ++ front)) strands := by
  intro others same admits offset fuel enough
  simp only [← Strand.append_weave, List.length_append, length_opening,
    length_closing] at enough ⊢
  obtain ⟨fuel, rfl⟩ : ∃ less, fuel = less + 1 := ⟨fuel - 1, by omega⟩
  rw [announcedFrom_block fuel offset opens closes]
  simp only [unannounced, Bool.false_eq_true, if_false, List.nil_append]
  rw [finds others same admits _ fuel (by omega)]
  simp only [Text.width_append, width_opening, width_closing]
  congr 1
  omega

private theorem finds_announced {gap body front : Text} {strands : List Strand}
    (opens : ∀ other, Text.cut? opening (gap ++ opening ++ other) = some (gap, other))
    (announced : announces gap) (finds : Finds front strands) :
    Finds (gap ++ opening) (⟨body, closing ++ front⟩ :: strands) := by
  intro others same admits offset fuel enough
  obtain ⟨other, others, rfl, tail⟩ := same.eq_cons
  have admitted := admits _ (List.mem_cons_self ..)
  have written : other.isEmpty = false := by simpa using admitted.written
  have woven : Strand.weave (gap ++ opening) (⟨other, closing ++ front⟩ :: others) =
      gap ++ opening ++ (other ++ closing ++ Strand.weave front others) := by
    rw [Strand.weave_cons, ← Strand.append_weave, List.append_assoc other]
  rw [woven] at enough ⊢
  simp only [List.length_append, length_opening, length_closing] at enough
  obtain ⟨fuel, rfl⟩ : ∃ less, fuel = less + 1 := ⟨fuel - 1, by omega⟩
  rw [announcedFrom_block fuel offset opens admitted.closes,
    finds others tail (fun strand member => admits strand (List.mem_cons_of_mem _ member)) _ fuel
      (by omega)]
  simp only [announced, written, Bool.not_false, Bool.and_true, if_true, List.singleton_append,
    Strand.excerptsFrom, Text.width_append, width_opening, width_closing, Nat.add_assoc]

/-- A Reason file is woven of code and announced blocks. -/
private theorem exists_finds (text : Text) :
    ∃ front strands, text = Strand.weave front strands ∧
      (∀ strand ∈ strands, Language.reason.Admits strand.content ∧ strand.code ≠ []) ∧
      Finds front strands := by
  cases opens : Text.cut? opening text with
  | none =>
    exact ⟨text, [], by simp [Strand.weave], by simp, finds_code (by simp [opens])⟩
  | some parts =>
    obtain ⟨gap, inside⟩ := parts
    have split := Text.eq_of_cut? opens
    have opensFor := Text.cut?_append (by decide) opens
    cases closes : Text.cut? closing inside with
    | none =>
      refine ⟨text, [], by simp [Strand.weave], by simp, finds_code ?_⟩
      intro gap' inside' found
      rw [opens] at found
      cases found
      exact closes
    | some parts =>
      obtain ⟨body, rest⟩ := parts
      have splitInside := Text.eq_of_cut? closes
      have closesBody := closesAfter_of_cut closes
      obtain ⟨front, strands, woven, admitted, finds⟩ := exists_finds rest
      cases announced : announces gap && !body.isEmpty with
      | false =>
        refine ⟨gap ++ opening ++ (body ++ closing ++ front), strands, ?_, admitted,
          finds_passed opensFor closesBody announced finds⟩
        rw [← Strand.append_weave, ← Strand.append_weave, split, splitInside, woven]
      | true =>
        obtain ⟨announced, written⟩ : announces gap ∧ body ≠ [] := by simpa using announced
        refine ⟨gap ++ opening, ⟨body, closing ++ front⟩ :: strands, ?_, ?_,
          finds_announced opensFor announced finds⟩
        · rw [Strand.weave_cons, ← Strand.append_weave, split, splitInside, woven,
            List.append_assoc body]
        · intro strand member
          rcases List.mem_cons.mp member with rfl | later
          · exact ⟨⟨written, closesBody⟩, by simp [closing]⟩
          · exact admitted strand later
termination_by text.length
decreasing_by
  rw [split, splitInside]
  simp only [List.length_append, length_opening, length_closing]
  omega

/-- Every Reason file is woven so that its blocks can be exchanged. -/
theorem exists_weave (text : Text) :
    ∃ front strands, text = Strand.weave front strands ∧
      Language.reason.Weaves front strands := by
  obtain ⟨front, strands, woven, admitted, finds⟩ := exists_finds text
  refine ⟨front, strands, woven, fun strand member => (admitted strand member).1,
    fun strand member => (admitted strand member).2, fun others same admits => ?_⟩
  simpa [embeddedExcerpts, Language.usesTemplateTags, announcedBlocks] using
    finds others same admits 0 _ (Nat.le_refl _)

end RelayWorkbench.Host.QuotedBlock
