import RelayWorkbench.Proofs.Host.CheckedPlaces
import RelayWorkbench.Proofs.Host.EmbeddedRegions
import RelayWorkbench.Proofs.Host.GapsAndBlocks
import RelayWorkbench.Proofs.Host.ScriptLiterals
import RelayWorkbench.Proofs.Host.TemplateGrammar

/-! The scan of host documents by offsets, with the places it could end a program at. Offsets are
counted in bytes, and a search goes on behind what it has found: a backtick, an opening or a closing
is written in bytes that stand inside of no other character, so that every slice is cut between
characters and the scan comes to the regions that are found in the text itself. -/

namespace RelayWorkbench.Host

namespace TemplateLiteral

section Closing

variable (letters : Text)

/-- The place of the backtick that `closing?` counts the characters to. Two places are passed over
behind a backslash, which may lead past the end. -/
def closeFrom (frames : List Frame) (place : Nat) : Except Trap (Option Nat) :=
  if place < letters.length then do
    let char ← Checked.element letters place
    match frames with
    | .quoted quote :: outer =>
      if char = '\\' then closeFrom (.quoted quote :: outer) (place + 2)
      else if char = quote then closeFrom outer (place + 1)
      else if char = '\n' then return none
      else closeFrom (.quoted quote :: outer) (place + 1)
    | .braces :: outer =>
      if char = '{' then closeFrom (.braces :: .braces :: outer) (place + 1)
      else if char = '}' then closeFrom outer (place + 1)
      else if char = '\x60' then closeFrom (.template :: .braces :: outer) (place + 1)
      else if char = '\x27' || char = '"' then
        closeFrom (.quoted char :: .braces :: outer) (place + 1)
      else closeFrom (.braces :: outer) (place + 1)
    | frames =>
      if char = '\\' then closeFrom frames (place + 2)
      else if char = '\x60' then
        match frames with
        | [] => return some place
        | _ :: outer => closeFrom outer (place + 1)
      else if char = '$' && letters[place + 1]? = some '{' then
        closeFrom (.braces :: frames) (place + 2)
      else closeFrom frames (place + 1)
  else return none
  termination_by letters.length - place

variable {letters}

/-- By places the search goes where it goes over the rest of the text. -/
theorem closeFrom_eq (frames : List Frame) (place : Nat) :
    closeFrom letters frames place =
      pure ((closing? frames (letters.drop place)).map (place + ·)) := by
  induction left : letters.length - place using Nat.strong_induction_on
    generalizing frames place with
  | _ count ih =>
  rw [closeFrom]
  split
  · next inside =>
    -- whatever the character, the search goes on one or two places further, past the end at most
    have next : ∀ frames steps, 0 < steps → closeFrom letters frames (place + steps) =
        pure (((closing? frames (letters.drop (place + steps))).map (· + steps)).map
          (place + ·)) := by
      intro frames steps forward
      rw [ih _ (by omega) frames _ rfl, Option.map_map]
      simp only [Function.comp_def, Nat.add_assoc, Nat.add_comm steps]
    have one := fun frames => next frames 1 Nat.one_pos
    have two := fun frames => next frames 2 Nat.two_pos
    rw [← List.tail_drop] at two
    rw [List.drop_eq_getElem_cons inside,
      Checked.element_of_getElem? (List.getElem?_eq_getElem inside), pure_bind, ← List.head?_drop]
    generalize letters[place] = char, letters.drop (place + 1) = rest at *
    match frames with
    | .quoted quote :: outer =>
      rw [closing?_quoted]
      simp only [one, two]
      split_ifs <;> rfl
    | .braces :: outer =>
      rw [closing?_braces]
      simp only [one]
      split_ifs <;> rfl
    | [] =>
      rw [closing?_inTemplate (.inl rfl)]
      simp only [one, two]
      split_ifs <;> rfl
    | .template :: outer =>
      rw [closing?_inTemplate (.inr ⟨outer, rfl⟩)]
      simp only [one, two]
      split_ifs <;> rfl
  · next outside =>
    rw [List.drop_eq_nil_of_le (Nat.le_of_not_lt outside), closing?_nil]
    rfl

end Closing

/-- The first place of a character from a place on. -/
def nextPlace? (letters : Text) (char : Char) (place : Nat) : Option Nat :=
  ((letters.drop place).findIdx? (· == char)).map (place + ·)

def isTaggedChecked (text : Text) (tick : Nat) : Except Trap Bool := do
  return endsWithTag (← Checked.slice text 0 tick).reverse

/-- The spans of the non-empty bodies of tagged templates from an offset on; `fuel` bounds the
number of backticks. -/
def templateSpansFrom (text : Text) : Nat → Nat → Except Trap (List Span)
  | 0, _ => return []
  | fuel + 1, cursor =>
    match nextPlace? text.bytewise '\x60' cursor with
    | none => return []
    | some tick => do
      if ← isTaggedChecked text tick then
        match ← closeFrom text.bytewise [] (tick + 1) with
        | none => return []
        | some close => do
          let later ← templateSpansFrom text fuel (close + 1)
          return if tick + 1 < close then ⟨tick + 1, close⟩ :: later else later
      else templateSpansFrom text fuel (tick + 1)

section Templates

variable {front code rest : Text}

theorem drop_bytewise (front back : Text) :
    (Text.bytewise (front ++ back)).drop front.width = back.bytewise := by
  rw [Text.bytewise_append, ← Text.length_bytes, ← List.length_map (f := Char.ofUInt8)]
  exact List.drop_left ..

theorem findIdx?_of_notMem {text : Text} {char : Char} (absent : char ∉ text) :
    text.findIdx? (· == char) = none := by
  rw [List.findIdx?_eq_none_iff]
  intro other member
  simpa using fun same : other = char => absent (same ▸ member)

theorem nextPlace?_of_notMem (plain : '\x60' ∉ rest) :
    nextPlace? (Text.bytewise (front ++ rest)) '\x60' front.width = none := by
  rw [nextPlace?, drop_bytewise, findIdx?_of_notMem (Text.notMem_bytewise (by decide) plain)]
  rfl

theorem nextPlace?_backtick (plain : '\x60' ∉ code) :
    nextPlace? (Text.bytewise (front ++ (code ++ '\x60' :: rest))) '\x60' front.width =
      some (front ++ code).width := by
  have absent := findIdx?_of_notMem (Text.notMem_bytewise (by decide) plain)
  have long : (Text.bytewise code).length = code.width := by
    rw [Text.bytewise, Text.ofBytes, List.length_map, Text.length_bytes]
  rw [nextPlace?, drop_bytewise, Text.bytewise_append, Text.bytewise_cons (by decide),
    List.findIdx?_append, absent]
  simp [List.findIdx?_cons, long, Text.width_append]

theorem closeFrom_bytewise (front text : Text) :
    closeFrom (Text.bytewise (front ++ text)) [] front.width =
      pure ((closing? [] text).map fun count => front.width + Text.width (text.take count)) := by
  rw [closeFrom_eq, ← closingByte?_bytes, closingByte?, Text.bytewise, Text.ofBytes, Text.ofBytes,
    List.map_drop]

theorem closeFrom_backtick (seen back : Text) :
    closeFrom (Text.bytewise (seen ++ '\x60' :: back)) [] (seen.width + 1) =
      pure ((closing? [] back).map fun count => seen.width + 1 + Text.width (back.take count)) := by
  have small : Char.utf8Size '\x60' = 1 := rfl
  simpa [Text.width_append, small] using closeFrom_bytewise (seen ++ ['\x60']) back

/-- What closes a body closes it whatever stands behind. -/
theorem exists_body_of_closing? {text : Text} {count : Nat}
    (closes : closing? [] text = some count) :
    ∃ body more, text = body ++ '\x60' :: more ∧ body.length = count ∧
      ∀ other, closing? [] (body ++ '\x60' :: other) = some body.length := by
  obtain ⟨mark, inside⟩ := closing?_eq_some_iff.mp closes
  obtain ⟨bound, here⟩ := List.getElem?_eq_some_iff.mp mark
  refine ⟨text.take count, text.drop (count + 1), ?_,
    List.length_take_of_le (Nat.le_of_lt bound), fun other => ?_⟩
  · rw [← here, ← List.drop_eq_getElem_cons bound, List.take_append_drop]
  · rw [closing?_eq_some_iff]
    simpa using inside

theorem isTaggedChecked_eq (seen back : Text) :
    isTaggedChecked (seen ++ back) seen.width = pure (endsWithTag seen.reverse) := by
  rw [isTaggedChecked, Checked.slice_prefix, pure_bind]

/-- At a backtick the scan goes on behind the template that it opens, or behind the backtick. -/
theorem templateSpansFrom_backtick (fuel : Nat) (plain : '\x60' ∉ code) (back : Text) :
    let text := front ++ (code ++ '\x60' :: back)
    let start := (front ++ code).width + 1
    templateSpansFrom text (fuel + 1) front.width =
      if endsWithTag (front ++ code).reverse then
        match closing? [] back with
        | none => pure []
        | some count => do
          let close := start + Text.width (back.take count)
          let later ← templateSpansFrom text fuel (close + 1)
          return if start < close then ⟨start, close⟩ :: later else later
      else templateSpansFrom text fuel start := by
  intro text start
  have split : text = front ++ code ++ '\x60' :: back := (List.append_assoc ..).symm
  rw [templateSpansFrom, nextPlace?_backtick plain, split]
  dsimp only
  rw [isTaggedChecked_eq, pure_bind]
  split
  · rw [closeFrom_backtick, pure_bind]
    cases closing? [] back <;> rfl
  · rfl

/-- The scan by bytes finds the templates that the search by characters finds. -/
theorem templateSpansFrom_eq {fuel : Nat} (enough : rest.length < fuel) :
    templateSpansFrom (front ++ rest) fuel front.width =
      pure ((taggedFrom front.reverse front.width 0 rest).map Excerpt.span) := by
  induction fuel generalizing front rest with
  | zero => omega
  | succ fuel ih =>
    by_cases written : '\x60' ∈ rest
    · obtain ⟨code, back, rfl, plain⟩ := List.eq_append_cons_of_mem written
      rw [List.length_append, List.length_cons] at enough
      rw [templateSpansFrom_backtick fuel plain, ScriptLiteral.taggedFrom_code plain,
        ← List.reverse_append, ← Text.width_append, ← List.append_assoc]
      generalize front ++ code = seen
      have small : Char.utf8Size '\x60' = 1 := rfl
      -- every way on leaves a part of the rest behind, at least the backtick
      have passing : ∀ passed back : Text, back.length < fuel →
          templateSpansFrom (seen ++ '\x60' :: (passed ++ back)) fuel
              (seen.width + 1 + passed.width) =
            pure ((taggedFrom (passed.reverse ++ '\x60' :: seen.reverse)
              (seen.width + 1 + passed.width) 0 back).map Excerpt.span) := by
        intro passed back less
        have later := @ih (seen ++ '\x60' :: passed) back less
        simpa [Text.width_append, small, Nat.add_assoc] using later
      split
      · next tagged =>
        cases closes : closing? [] back with
        | none => simp [taggedFrom, tagged, closes]
        | some count =>
          obtain ⟨body, more, rfl, rfl, closed⟩ := exists_body_of_closing? closes
          have less : List.length more < fuel := by
            rw [List.length_append, List.length_cons] at enough
            omega
          have later := passing (body ++ ['\x60']) more less
          simp only [List.append_assoc, List.singleton_append, Text.width_append, Text.width_cons,
            Text.width_nil, small, Nat.add_zero, List.reverse_append, List.reverse_singleton,
            ← Nat.add_assoc] at later
          simp only [List.take_left, later, pure_bind, taggedFrom_template tagged body closed,
            List.map_append]
          cases body with
          | nil => simp
          | cons char body => simp [Excerpt.startingAt, char.utf8Size_pos]
      · next untagged =>
        have later := passing [] back (by omega)
        rw [ScriptLiteral.taggedFrom_backtick (by simpa using untagged)]
        simpa using later
    · rw [templateSpansFrom, nextPlace?_of_notMem written,
        ScriptLiteral.taggedFrom_of_code written]
      rfl

end Templates

end TemplateLiteral

namespace QuotedBlock

/-- The offset of a needle from an offset on. -/
def offsetOf? (needle text : Text) (offset : Nat) : Option Nat := do
  let rest ← text.slice? offset text.width
  let (before, _) ← Text.cut? needle rest
  return offset + before.width

/-- Whether a condition holds of what stands behind one of the occurrences of a needle in a gap,
from an offset on; `fuel` bounds their number. -/
def holdsBehind (needle : Text) (holds : Text → Bool) (gap : Text) : Nat → Nat → Except Trap Bool
  | 0, _ => return false
  | fuel + 1, cursor =>
    match offsetOf? needle gap cursor with
    | none => return false
    | some offset => do
      let behind ← Checked.slice gap (offset + needle.width) gap.width
      if holds behind then return true
      else holdsBehind needle holds gap fuel (offset + needle.width)

def announcesChecked (gap : Text) : Except Trap Bool := do
  let fuel := gap.length + 1
  if ← holdsBehind "[%graphql".toList (!·.head?.any Text.isWordChar) gap fuel 0 then return true
  else holdsBehind "[%relay.".toList (·.head?.any Text.isWordChar) gap fuel 0

/-- The spans of the announced, non-empty blocks from an offset on; `fuel` bounds their number. -/
def blockSpansFrom (text : Text) : Nat → Nat → Except Trap (List Span)
  | 0, _ => return []
  | fuel + 1, cursor =>
    match offsetOf? opening text cursor with
    | none => return []
    | some opens => do
      let announced ← announcesChecked (← Checked.slice text cursor opens)
      match offsetOf? closing text (opens + 2) with
      | none => return []
      | some close => do
        let later ← blockSpansFrom text fuel (close + 2)
        return if announced && opens + 2 < close then ⟨opens + 2, close⟩ :: later else later

theorem offsetOf?_append (needle front rest : Text) :
    offsetOf? needle (front ++ rest) front.width =
      (Text.cut? needle rest).map fun (before, _) => front.width + before.width := by
  have whole : Text.slice? (front ++ rest) front.width (front ++ rest).width = some rest := by
    simpa [Text.width_append] using Text.slice?_append front rest []
  cases cut : Text.cut? needle rest <;> simp [offsetOf?, whole, cut]

section Gaps

variable {first : Char} {more : Text} {holds : Text → Bool}

/-- Whether a text begins with a needle and a condition holds of the rest. -/
def beginsWith (needle : Text) (holds : Text → Bool) (text : Text) : Bool :=
  needle.isPrefixOf text && holds (text.drop needle.length)

/-- Where its first character does not stand a needle does not begin. -/
theorem any_tails_append (more : Text) (holds : Text → Bool) {passed : Text}
    (absent : first ∉ passed) (rest : Text) :
    (passed ++ rest).tails.any (beginsWith (first :: more) holds) =
      rest.tails.any (beginsWith (first :: more) holds) := by
  induction passed with
  | nil => rfl
  | cons char passed ih =>
    rw [List.mem_cons, not_or] at absent
    rw [List.cons_append, List.tails_cons, List.any_cons, ih absent.2]
    simp [beginsWith, List.isPrefixOf, absent.1]

/-- An occurrence of a needle that does not begin inside of itself, and those behind it. -/
theorem any_tails_of_cut? (absent : first ∉ more) (holds : Text → Bool)
    {text before after : Text} (cut : Text.cut? (first :: more) text = some (before, after)) :
    text.tails.any (beginsWith (first :: more) holds) =
      (holds after || after.tails.any (beginsWith (first :: more) holds)) := by
  induction text generalizing before with
  | nil => simp [Text.cut?] at cut
  | cons char rest ih =>
    rw [List.tails_cons, List.any_cons]
    simp only [Text.cut?] at cut
    split at cut
    · next starts =>
      cases cut
      have parts := List.prefix_iff_eq_append.mp (List.isPrefixOf_iff_prefix.mp starts)
      obtain ⟨rfl, behind⟩ := List.cons_eq_cons.mp parts
      rw [beginsWith, starts, Bool.true_and]
      congr 1
      conv_lhs => rw [← behind]
      exact any_tails_append more holds absent _
    · next later =>
      obtain ⟨⟨front, back⟩, found, same⟩ := Option.map_eq_some_iff.mp cut
      cases same
      rw [beginsWith, Bool.eq_false_iff.mpr later, Bool.false_and, Bool.false_or, ih found]

theorem any_tails_of_cut?_eq_none (holds : Text → Bool) {needle text : Text}
    (cut : Text.cut? needle text = none) :
    text.tails.any (beginsWith needle holds) = false := by
  rw [List.any_eq_false]
  intro point tail begins
  rw [beginsWith, Bool.and_eq_true, List.isPrefixOf_iff_prefix] at begins
  exact Text.cut?_eq_none_iff.mp cut (begins.1.isInfix.trans ((List.mem_tails ..).mp tail).isInfix)

theorem holdsBehind_eq (absent : first ∉ more) (holds : Text → Bool) {front rest : Text}
    {fuel : Nat} (enough : rest.length < fuel) :
    holdsBehind (first :: more) holds (front ++ rest) fuel front.width =
      pure (rest.tails.any (beginsWith (first :: more) holds)) := by
  induction fuel generalizing front rest with
  | zero => omega
  | succ fuel ih =>
    rw [holdsBehind, offsetOf?_append]
    cases cut : Text.cut? (first :: more) rest with
    | none =>
      rw [any_tails_of_cut?_eq_none holds cut]
      rfl
    | some parts =>
      obtain ⟨before, after⟩ := parts
      -- the search goes on behind the occurrence, inside of which no other one begins
      rw [any_tails_of_cut? absent holds cut]
      obtain rfl := Text.eq_of_cut? cut
      have passed : front.width + before.width + Text.width (first :: more) =
          Text.width (front ++ (before ++ first :: more)) := by
        simp only [Text.width_append, Nat.add_assoc]
      have parts : front ++ (before ++ first :: more ++ after) =
          front ++ (before ++ first :: more) ++ after := (List.append_assoc ..).symm
      simp only [Option.map_some, passed]
      rw [parts, Checked.slice_suffix, pure_bind]
      split
      · next here => rw [here, Bool.true_or]
      · next other =>
        rw [Bool.eq_false_iff.mpr other, Bool.false_or]
        refine ih ?_
        simp only [List.length_append, List.length_cons] at enough
        omega

theorem announces_eq (gap : Text) : announces gap = gap.tails.any startsExtensionPoint := by
  induction gap with
  | nil => decide
  | cons char rest ih => rw [announces, ih, List.tails_cons, List.any_cons]

theorem announcesChecked_eq (gap : Text) : announcesChecked gap = pure (announces gap) := by
  have search : ∀ needle first more, needle = first :: more → first ∉ more →
      ∀ holds : Text → Bool, holdsBehind needle holds gap (gap.length + 1) 0 =
        pure (gap.tails.any (beginsWith needle holds)) := by
    rintro needle first more rfl absent holds
    exact @holdsBehind_eq _ _ absent holds [] gap _ (Nat.lt_succ_self _)
  have graphql := search "[%graphql".toList '[' "%graphql".toList rfl (by decide)
  have relay := search "[%relay.".toList '[' "%relay.".toList rfl (by decide)
  have either : gap.tails.any startsExtensionPoint =
      (gap.tails.any (beginsWith "[%graphql".toList (!·.head?.any Text.isWordChar)) ||
        gap.tails.any (beginsWith "[%relay.".toList (·.head?.any Text.isWordChar))) := by
    rw [Bool.eq_iff_iff]
    simp only [List.any_eq_true, Bool.or_eq_true, startsExtensionPoint, beginsWith, and_or_left,
      exists_or]
  rw [announces_eq, either, announcesChecked, graphql, pure_bind]
  split
  · next here => rw [here, Bool.true_or]
  · next other => rw [relay, Bool.eq_false_iff.mpr other, Bool.false_or]

end Gaps

/-- The scan by offsets finds the blocks that the search in the rest of the text finds. -/
theorem blockSpansFrom_eq (front rest : Text) (fuel : Nat) :
    blockSpansFrom (front ++ rest) fuel front.width =
      pure ((announcedFrom fuel front.width rest).map Excerpt.span) := by
  induction fuel generalizing front rest with
  | zero => rfl
  | succ fuel ih =>
    rw [blockSpansFrom, offsetOf?_append]
    cases opens : Text.cut? opening rest with
    | none =>
      rw [announcedFrom_eq_nil (fun _ _ found => by simp [opens] at found)]
      rfl
    | some parts =>
      obtain ⟨gap, inside⟩ := parts
      obtain rfl := Text.eq_of_cut? opens
      have again := fun other => Text.cut?_append (by decide) opens other
      have slice : Checked.slice (front ++ (gap ++ (opening ++ inside))) front.width
          (front.width + gap.width) = pure gap := by
        simpa using Checked.slice_append front gap (opening ++ inside)
      have close := offsetOf?_append closing (front ++ (gap ++ opening)) inside
      simp only [Text.width_append, width_opening, List.append_assoc, ← Nat.add_assoc] at close
      simp only [Option.map_some, List.append_assoc, slice, announcesChecked_eq, pure_bind, close]
      cases closes : Text.cut? closing inside with
      | none =>
        rw [← List.append_assoc gap, announcedFrom_eq_nil]
        · rfl
        · intro gap' inside' found
          cases opens.symm.trans found
          exact closes
      | some parts =>
        obtain ⟨body, more⟩ := parts
        have block := @announcedFrom_block gap body fuel front.width more again
          (closesAfter_of_cut closes)
        obtain rfl := Text.eq_of_cut? closes
        have later := ih (front ++ (gap ++ opening ++ (body ++ closing))) more
        simp only [Text.width_append, width_opening, width_closing, List.append_assoc,
          ← Nat.add_assoc] at later block
        simp only [Option.map_some, List.append_assoc, later, block, pure_bind, List.map_append]
        cases body with
        | nil => simp
        | cons char body => cases announces gap <;> simp [Excerpt.startingAt, char.utf8Size_pos]

end QuotedBlock

/-- The spans of the parts of a document that its language marks as GraphQL. -/
def spansChecked (language : Language) (text : Text) : Except Trap (List Span) :=
  if language.usesTemplateTags then TemplateLiteral.templateSpansFrom text (text.length + 1) 0
  else QuotedBlock.blockSpansFrom text text.length 0

/-- The region at a span of a document with the given line index. -/
def Region.ofSpanChecked (text : Text) (index : LineIndex) (span : Span) : Except Trap Region := do
  let content ← Checked.slice text span.start span.stop
  return .embedded content ⟨← index.positionChecked span.start, ← index.positionChecked span.stop⟩

def regionsInChecked (language : Language) (text : Text) : Except Trap (List Region) := do
  if language = .graphQL then return [.document text]
  else (← spansChecked language text).mapM (Region.ofSpanChecked text (LineIndex.ofText text))

theorem spansChecked_eq (language : Language) (text : Text) :
    spansChecked language text = pure ((embeddedExcerpts language text).map Excerpt.span) := by
  rw [spansChecked, embeddedExcerpts]
  split
  · exact @TemplateLiteral.templateSpansFrom_eq [] text _ (Nat.lt_succ_self _)
  · exact QuotedBlock.blockSpansFrom_eq [] text text.length

/-- The scan of a document finds its regions, whatever it contains. -/
theorem regionsInChecked_eq (language : Language) (text : Text) :
    regionsInChecked language text = pure (regionsIn language text) := by
  rw [regionsInChecked, regionsIn]
  split
  · rfl
  · next embeds =>
    have each : ∀ excerpt ∈ embeddedExcerpts language text,
        Region.ofSpanChecked text (LineIndex.ofText text) excerpt.span =
          pure (Region.ofExcerpt (LineIndex.ofText text) excerpt) := by
      intro excerpt member
      obtain ⟨before, after, split, -, placed⟩ := exists_split_of_mem embeds member
      have content : Checked.slice text excerpt.span.start excerpt.span.stop =
          pure excerpt.content := by
        rw [split, placed]
        exact Checked.slice_append ..
      rw [Region.ofSpanChecked, content]
      simp only [LineIndex.positionChecked_eq, pure_bind]
      rfl
    rw [spansChecked_eq, pure_bind, List.mapM_map]
    exact Checked.mapM_eq each

end RelayWorkbench.Host
