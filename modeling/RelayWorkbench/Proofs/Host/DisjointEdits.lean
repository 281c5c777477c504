import RelayWorkbench.Proofs.Host.Revising

/-! Edits of disjoint stretches of a document. Carried out one after the other they do what they
would do at once: each stretch becomes its new text and all other characters stay. -/

namespace RelayWorkbench

/-- Whether the byte at an offset lies in a span. -/
def Span.holds (span : Span) (offset : Nat) : Bool := span.start ≤ offset && offset < span.stop

/-- A span marks a stretch of a text, of one character at least. -/
def Span.Marks (text : Text) (span : Span) : Prop :=
  ∃ before middle after, text = before ++ middle ++ after ∧ middle ≠ [] ∧
    span = ⟨before.width, before.width + middle.width⟩

/-- No byte lies in both spans. -/
def Span.Disjoint (first second : Span) : Prop :=
  first.stop ≤ second.start ∨ second.stop ≤ first.start

theorem Span.Marks.start_lt {text : Text} {span : Span} (marks : span.Marks text) :
    span.start < span.stop := by
  obtain ⟨before, middle, after, -, written, rfl⟩ := marks
  have := Text.width_pos written
  simp only
  omega

/-- Of two beginnings of a text the shorter is a beginning of the longer. -/
theorem Text.exists_between {front back before after : Text}
    (same : front ++ back = before ++ after) (shorter : front.width ≤ before.width) :
    ∃ between, before = front ++ between ∧ back = between ++ after := by
  rcases List.append_eq_append_iff.mp same with ⟨between, rfl, rfl⟩ | ⟨between, rfl, rfl⟩
  · exact ⟨between, rfl, rfl⟩
  · have none : between = [] := by
      by_contra written
      have wide := Text.width_pos written
      rw [Text.width_append] at shorter
      omega
    subst none
    exact ⟨[], by simp, by simp⟩

theorem Span.Disjoint.symm {first second : Span} (apart : first.Disjoint second) :
    second.Disjoint first := Or.symm apart

namespace Host

namespace Replacement

/-- What becomes of a text, from some byte of a document on, when all replacements are made at
once: the new text of the one that begins at a character, and the character unless one of them holds
it. -/
def rewrite (replacements : List Replacement) (offset : Nat) : Text → Text
  | [] => []
  | char :: rest =>
    (replacements.find? (·.span.start == offset)).elim [] newText ++
      (if replacements.any (·.span.holds offset) then [] else [char]) ++
        rewrite replacements (offset + char.utf8Size) rest

/-- Replacements of disjoint stretches of a text. -/
structure Fits (text : Text) (replacements : List Replacement) : Prop where
  marks : ∀ replacement ∈ replacements, replacement.span.Marks text
  disjoint : replacements.Pairwise fun first second => first.span.Disjoint second.span

variable {text : Text} {replacements : List Replacement} {replacement : Replacement} {offset : Nat}

theorem Fits.perm {others : List Replacement} (fits : Fits text replacements)
    (same : others.Perm replacements) : Fits text others where
  marks replacement member := fits.marks replacement (same.subset member)
  disjoint := (same.pairwise_iff fun apart => apart.symm).mpr fits.disjoint

theorem Fits.disjoint_of_ne (fits : Fits text replacements) {first second : Replacement}
    (here : first ∈ replacements) (there : second ∈ replacements) (apart : first ≠ second) :
    first.span.Disjoint second.span := by
  have symmetric : Std.Symm fun first second : Replacement => first.span.Disjoint second.span :=
    ⟨fun _ _ apart => apart.symm⟩
  exact fits.disjoint.forall here there apart

theorem Fits.eq_of_start_eq (fits : Fits text replacements) {first second : Replacement}
    (here : first ∈ replacements) (there : second ∈ replacements)
    (same : first.span.start = second.span.start) : first = second := by
  by_contra apart
  have long := (fits.marks first here).start_lt
  have wide := (fits.marks second there).start_lt
  rcases fits.disjoint_of_ne here there apart with before | behind
  · omega
  · omega

theorem Fits.find?_eq_some_iff (fits : Fits text replacements) :
    replacements.find? (·.span.start == offset) = some replacement ↔
      replacement ∈ replacements ∧ replacement.span.start = offset := by
  constructor
  · intro found
    exact ⟨List.mem_of_find?_eq_some found, by simpa using List.find?_some found⟩
  · rintro ⟨member, rfl⟩
    cases found : replacements.find? (·.span.start == replacement.span.start) with
    | none =>
      have missed := List.find?_eq_none.mp found replacement member
      simp at missed
    | some other =>
      have same : other.span.start = replacement.span.start := by
        simpa using List.find?_some found
      rw [fits.eq_of_start_eq (List.mem_of_find?_eq_some found) member same]

theorem any_holds (member : replacement ∈ replacements) (begun : replacement.span.start ≤ offset)
    (inside : offset < replacement.span.stop) : replacements.any (·.span.holds offset) = true := by
  refine List.any_eq_true.mpr ⟨replacement, member, ?_⟩
  rw [Span.holds, Bool.and_eq_true, decide_eq_true_eq, decide_eq_true_eq]
  exact ⟨begun, inside⟩

/-- The order of replacements does not matter. -/
theorem Fits.rewrite_perm (fits : Fits text replacements) {others : List Replacement}
    (same : others.Perm replacements) (offset : Nat) (text : Text) :
    rewrite others offset text = rewrite replacements offset text := by
  have member : ∀ replacement, replacement ∈ others ↔ replacement ∈ replacements :=
    fun _ => same.mem_iff
  have begins : ∀ offset, others.find? (·.span.start == offset) =
      replacements.find? (·.span.start == offset) := by
    intro offset
    apply Option.ext
    intro replacement
    rw [(fits.perm same).find?_eq_some_iff, fits.find?_eq_some_iff, member]
  have held : ∀ offset, others.any (·.span.holds offset) =
      replacements.any (·.span.holds offset) := by
    intro offset
    rw [Bool.eq_iff_iff, List.any_eq_true, List.any_eq_true]
    simp only [member]
  induction text generalizing offset with
  | nil => rfl
  | cons char text ih => rw [rewrite, rewrite, begins, held, ih]

/-- Where no replacement is, a text stays. -/
theorem Fits.rewrite_outside (fits : Fits text replacements) (front back : Text)
    (outside : ∀ replacement ∈ replacements, replacement.span.stop ≤ offset ∨
      offset + front.width ≤ replacement.span.start) :
    rewrite replacements offset (front ++ back) =
      front ++ rewrite replacements (offset + front.width) back := by
  induction front generalizing offset with
  | nil => simp
  | cons char front ih =>
    have wide := char.utf8Size_pos
    rw [Text.width_cons] at outside
    have begins : replacements.find? (·.span.start == offset) = none := by
      rw [List.find?_eq_none]
      intro replacement member
      have long := (fits.marks replacement member).start_lt
      have away := outside replacement member
      rw [beq_iff_eq]
      omega
    have free : replacements.any (·.span.holds offset) = false := by
      rw [List.any_eq_false]
      intro replacement member
      have away := outside replacement member
      rw [Span.holds, Bool.and_eq_true, decide_eq_true_eq, decide_eq_true_eq]
      omega
    have later : rewrite replacements (offset + char.utf8Size) (front ++ back) =
        front ++ rewrite replacements (offset + char.utf8Size + Text.width front) back :=
      ih fun replacement member => by
        have away := outside replacement member
        omega
    rw [List.cons_append, rewrite, begins, free, later, Text.width_cons, Nat.add_assoc]
    rfl

/-- Behind the first character of a replaced stretch all of it goes. -/
theorem Fits.rewrite_inside (fits : Fits text replacements) (member : replacement ∈ replacements)
    (middle back : Text) (begun : replacement.span.start < offset)
    (inside : offset + middle.width ≤ replacement.span.stop) :
    rewrite replacements offset (middle ++ back) =
      rewrite replacements (offset + middle.width) back := by
  induction middle generalizing offset with
  | nil => simp
  | cons char middle ih =>
    have wide := char.utf8Size_pos
    rw [Text.width_cons] at inside
    have begins : replacements.find? (·.span.start == offset) = none := by
      rw [List.find?_eq_none]
      intro other there
      rw [beq_iff_eq]
      intro same
      have long := (fits.marks other there).start_lt
      by_cases alike : other = replacement
      · subst alike
        omega
      · rcases fits.disjoint_of_ne there member alike with before | behind <;> omega
    have held : replacements.any (·.span.holds offset) = true :=
      any_holds member (Nat.le_of_lt begun) (by omega)
    have later : rewrite replacements (offset + char.utf8Size) (middle ++ back) =
        rewrite replacements (offset + char.utf8Size + Text.width middle) back :=
      ih (by omega) (by omega)
    rw [List.cons_append, rewrite, begins, held, later, Text.width_cons, Nat.add_assoc]
    rfl

/-- A replaced stretch becomes its new text. -/
theorem Fits.rewrite_stretch (fits : Fits text replacements) (member : replacement ∈ replacements)
    {middle : Text} (written : middle ≠ []) (back : Text)
    (stop : replacement.span.start + middle.width = replacement.span.stop) :
    rewrite replacements replacement.span.start (middle ++ back) =
      replacement.newText ++ rewrite replacements replacement.span.stop back := by
  obtain ⟨char, middle, rfl⟩ := List.exists_cons_of_ne_nil written
  have wide := char.utf8Size_pos
  rw [Text.width_cons] at stop
  have begins : replacements.find? (·.span.start == replacement.span.start) = some replacement :=
    fits.find?_eq_some_iff.mpr ⟨member, rfl⟩
  have held : replacements.any (·.span.holds replacement.span.start) = true :=
    any_holds member (Nat.le_refl _) (by omega)
  have later : rewrite replacements (replacement.span.start + char.utf8Size) (middle ++ back) =
      rewrite replacements (replacement.span.start + char.utf8Size + Text.width middle) back :=
    fits.rewrite_inside member middle back (by omega) (by omega)
  rw [List.cons_append, rewrite, begins, held, later, Nat.add_assoc, stop]
  simp

/-- Of replacements in the order of a text, the one that comes first behind some place is the first
that begins there. -/
private theorem Fits.outside_of_ascends (fits : Fits text replacements)
    {early late : List Replacement} {place : Nat}
    (whole : (early ++ replacement :: late).Perm replacements)
    (ascends : (early ++ replacement :: late).Pairwise fun first second =>
      first.span.stop ≤ second.span.start)
    (before : ∀ other ∈ early, other.span.stop ≤ place) :
    ∀ other ∈ replacements, other.span.stop ≤ place ∨
      replacement.span.start ≤ other.span.start := by
  intro other there
  obtain ⟨-, later, -⟩ := List.pairwise_append.mp ascends
  rcases List.mem_append.mp (whole.symm.subset there) with passed | coming
  · exact .inl (before other passed)
  · rcases List.mem_cons.mp coming with rfl | behind
    · exact .inr (Nat.le_refl _)
    · have long := (fits.marks replacement
        (whole.subset (List.mem_append_right early (List.mem_cons_self ..)))).start_lt
      have follows := (List.pairwise_cons.mp later).1 other behind
      exact .inr (by omega)

/-- A text is kept up to the next replaced stretch, and that becomes its new text. -/
private theorem Fits.rewrite_next (fits : Fits text replacements)
    (member : replacement ∈ replacements) {front gap middle : Text} (written : middle ≠ [])
    (placed : replacement.span = ⟨(front ++ gap).width, (front ++ gap).width + middle.width⟩)
    (outside : ∀ other ∈ replacements, other.span.stop ≤ front.width ∨
      replacement.span.start ≤ other.span.start) (back : Text) :
    rewrite replacements front.width (gap ++ (middle ++ back)) =
      gap ++ (replacement.newText ++ rewrite replacements replacement.span.stop back) := by
  have start : replacement.span.start = front.width + gap.width := by
    rw [placed, Text.width_append]
  rw [start] at outside
  rw [fits.rewrite_outside gap (middle ++ back) outside, ← start,
    fits.rewrite_stretch member written back (by rw [placed])]

/-- Replacements in the order of a text, carried out from its end, are made at once. `early` are
those before some place of the text, and `late` those behind it. -/
private theorem Fits.foldrM_late (fits : Fits text replacements) {early late : List Replacement}
    (whole : (early ++ late).Perm replacements)
    (ascends : (early ++ late).Pairwise fun first second => first.span.stop ≤ second.span.start)
    {front back : Text} (split : text = front ++ back)
    (before : ∀ replacement ∈ early, replacement.span.stop ≤ front.width)
    (behind : ∀ replacement ∈ late, front.width ≤ replacement.span.start) :
    late.foldrM (fun replacement revised =>
        match replacement.resultIn? revised with
        | some revised => Except.ok revised
        | none => .error (Obstacle.trapped .slice)) text =
      .ok (front ++ rewrite replacements front.width back) := by
  induction late generalizing early front back with
  | nil =>
    rw [List.append_nil] at whole
    have stays := fits.rewrite_outside back [] fun replacement member =>
      .inl (before replacement (whole.symm.subset member))
    rw [List.append_nil, rewrite, List.append_nil] at stays
    rw [stays, split]
    rfl
  | cons replacement late ih =>
    have member := whole.subset (List.mem_append_right early (List.mem_cons_self ..))
    obtain ⟨left, middle, right, cut, written, placed⟩ := fits.marks replacement member
    have start : replacement.span.start = left.width := by rw [placed]
    have stop : replacement.span.stop = (left ++ middle).width := by rw [placed, Text.width_append]
    obtain ⟨ahead, -⟩ := List.forall_mem_cons.mp behind
    obtain ⟨gap, rfl, rfl⟩ : ∃ gap, left = front ++ gap ∧ back = gap ++ (middle ++ right) :=
      Text.exists_between (by rw [← split, cut, List.append_assoc]) (start ▸ ahead)
    have next := fits.rewrite_next member written placed
      (fits.outside_of_ascends whole ascends before) right
    obtain ⟨-, later, -⟩ := List.pairwise_append.mp ascends
    have follow := (List.pairwise_cons.mp later).1
    have passed : ∀ other ∈ early ++ [replacement],
        other.span.stop ≤ (front ++ gap ++ middle).width := by
      refine List.forall_mem_append.mpr ⟨fun other there => ?_, ?_⟩
      · rw [List.append_assoc, Text.width_append]
        exact Nat.le_trans (before other there) (Nat.le_add_right ..)
      · exact List.forall_mem_singleton.mpr (Nat.le_of_eq stop)
    rw [List.append_cons] at whole ascends
    have rest := ih whole ascends cut passed fun other there => stop ▸ follow other there
    have result := resultIn?_slice (front ++ gap) middle
      (rewrite replacements replacement.span.stop right) replacement.newText
    rw [← placed] at result
    rw [List.foldrM_cons, rest, ← stop, next]
    simp only [bind, Except.bind, result]
    simp only [List.append_assoc]

/-- In the order of a text the stretches of replacements stand one behind the other. -/
private theorem Fits.ascends_fromTheEnd (fits : Fits text replacements) :
    (fromTheEnd replacements).reverse.Pairwise fun first second =>
      first.span.stop ≤ second.span.start := by
  let later (first second : Replacement) : Bool := second.span.start ≤ first.span.start
  have same : (fromTheEnd replacements).Perm replacements := List.mergeSort_perm replacements _
  have sorted : (fromTheEnd replacements).Pairwise (later · ·) :=
    List.pairwise_mergeSort (fun _ _ _ => by simp only [later, decide_eq_true_eq]; omega)
      (fun _ _ => by simp only [later, Bool.or_eq_true, decide_eq_true_eq]; omega) replacements
  rw [List.pairwise_reverse]
  refine (sorted.and (fits.perm same).disjoint).imp_of_mem ?_
  intro second first there here both
  have long := (fits.marks first (same.subset here)).start_lt
  have wide := (fits.marks second (same.subset there)).start_lt
  have order : first.span.start ≤ second.span.start := by simpa [later] using both.1
  rcases both.2 with behind | before
  · omega
  · exact before

/-- Replacements of disjoint stretches, carried out in the order of a revision, are made at once. -/
theorem Fits.foldlM_fromTheEnd (fits : Fits text replacements) :
    (fromTheEnd replacements).foldlM (fun revised replacement =>
        match replacement.resultIn? revised with
        | some revised => Except.ok revised
        | none => .error (Obstacle.trapped .slice)) text =
      .ok (rewrite replacements 0 text) := by
  have whole : ([] ++ (fromTheEnd replacements).reverse).Perm replacements :=
    (List.reverse_perm _).trans (List.mergeSort_perm replacements _)
  have done := fits.foldrM_late whole fits.ascends_fromTheEnd (show text = [] ++ text from rfl)
    (List.forall_mem_nil _) (fun _ _ => Nat.zero_le _)
  rw [← List.foldlM_reverse, List.reverse_reverse] at done
  exact done

end Replacement

/-- The replacements that edits ask for, as far as their ranges lie in the document. -/
def resolved (text : Text) (edits : List TextEdit) : List Replacement :=
  edits.filterMap fun edit => (Replacement.ofEdit (LineIndex.ofText text) edit).toOption

/-- Edits whose ranges lie in a document and are disjoint stretches of it. -/
structure FitTogether (text : Text) (edits : List TextEdit) : Prop where
  resolves : ∀ edit ∈ edits, ∃ replacement,
    Replacement.ofEdit (LineIndex.ofText text) edit = .ok replacement
  fits : Replacement.Fits text (resolved text edits)

theorem mapM_ofEdit_resolved {text : Text} {edits : List TextEdit}
    (resolves : ∀ edit ∈ edits, ∃ replacement,
      Replacement.ofEdit (LineIndex.ofText text) edit = .ok replacement) :
    edits.mapM (Replacement.ofEdit (LineIndex.ofText text)) = .ok (resolved text edits) := by
  induction edits with
  | nil => rfl
  | cons edit edits ih =>
    obtain ⟨⟨replacement, own⟩, others⟩ := List.forall_mem_cons.mp resolves
    have first : resolved text (edit :: edits) = replacement :: resolved text edits :=
      List.filterMap_cons_some (by rw [own]; rfl)
    rw [List.mapM_cons, ih others, own, first]
    rfl

/-- In whatever order edits of disjoint stretches come, they are made at once. -/
theorem FitTogether.revise_eq {text : Text} {edits others : List TextEdit}
    (fit : FitTogether text edits) (same : others.Perm edits) :
    revise text others = .ok (Replacement.rewrite (resolved text edits) 0 text) := by
  have resolves : ∀ edit ∈ others, ∃ replacement,
      Replacement.ofEdit (LineIndex.ofText text) edit = .ok replacement :=
    fun edit member => fit.resolves edit (same.subset member)
  have shuffled : (resolved text others).Perm (resolved text edits) := same.filterMap _
  have fits : Replacement.Fits text (resolved text others) := fit.fits.perm shuffled
  simp only [revise, mapM_ofEdit_resolved resolves]
  simp only [bind, Except.bind]
  exact fits.foldlM_fromTheEnd.trans
    (congrArg Except.ok (fit.fits.rewrite_perm shuffled 0 text))

end Host

end RelayWorkbench
