import RelayWorkbench.Proofs.Text.ByteStrings
import RelayWorkbench.Proofs.Host.TemplateWeaving

/-! The grammar of template literals. A body is read with a stack of open constructs; it closes at
a backtick exactly if what stands in front is a body of the grammar. -/

namespace RelayWorkbench.Host.TemplateLiteral

/-- The inside of a string literal: a backslash escapes the next character, and no line ends. -/
inductive QuotedBody (quote : Char) : Text → Prop where
  | nil : QuotedBody quote []
  | escape {char : Char} {rest : Text} (later : QuotedBody quote rest) :
      QuotedBody quote ('\\' :: char :: rest)
  | plain {char : Char} {rest : Text} (escapes : char ≠ '\\') (closes : char ≠ quote)
      (ends : char ≠ '\n') (later : QuotedBody quote rest) : QuotedBody quote (char :: rest)

mutual

/-- The inside of a template literal. -/
inductive TemplateBody : Text → Prop where
  | nil : TemplateBody []
  | escape {char : Char} {rest : Text} (later : TemplateBody rest) :
      TemplateBody ('\\' :: char :: rest)
  | substitution {inner rest : Text} (inside : SubstitutionBody inner)
      (later : TemplateBody rest) : TemplateBody ('$' :: '{' :: (inner ++ '}' :: rest))
  | plain {char : Char} {rest : Text} (escapes : char ≠ '\\') (closes : char ≠ '\x60')
      (single : char = '$' → rest.head? ≠ some '{') (later : TemplateBody rest) :
      TemplateBody (char :: rest)

/-- The inside of a substitution, up to the brace that closes it. -/
inductive SubstitutionBody : Text → Prop where
  | nil : SubstitutionBody []
  | braces {inner rest : Text} (inside : SubstitutionBody inner)
      (later : SubstitutionBody rest) : SubstitutionBody ('{' :: (inner ++ '}' :: rest))
  | template {inner rest : Text} (inside : TemplateBody inner) (later : SubstitutionBody rest) :
      SubstitutionBody ('\x60' :: (inner ++ '\x60' :: rest))
  | quoted {quote : Char} {inner rest : Text} (mark : IsQuote quote)
      (inside : QuotedBody quote inner) (later : SubstitutionBody rest) :
      SubstitutionBody (quote :: (inner ++ quote :: rest))
  | plain {char : Char} {rest : Text} (opens : char ≠ '{') (closes : char ≠ '}')
      (template : char ≠ '\x60') (unquoted : ¬ IsQuote char) (later : SubstitutionBody rest) :
      SubstitutionBody (char :: rest)

end

/-- A text that closes the open constructs one after the other, innermost first, and goes on to
the end of the outermost template. -/
inductive Continues : List Frame → Text → Prop where
  | body {text : Text} (inside : TemplateBody text) : Continues [] text
  | template {outer : List Frame} {inner rest : Text} (inside : TemplateBody inner)
      (later : Continues outer rest) : Continues (.template :: outer) (inner ++ '\x60' :: rest)
  | braces {outer : List Frame} {inner rest : Text} (inside : SubstitutionBody inner)
      (later : Continues outer rest) : Continues (.braces :: outer) (inner ++ '}' :: rest)
  | quoted {quote : Char} {outer : List Frame} {inner rest : Text}
      (inside : QuotedBody quote inner) (later : Continues outer rest) :
      Continues (.quoted quote :: outer) (inner ++ quote :: rest)

namespace Leads

variable {frames inner outer : List Frame} {char quote : Char} {passed more rest : Text}

theorem quotedBody {body : Text} (inside : QuotedBody quote body) :
    Leads (.quoted quote :: outer) body (.quoted quote :: outer) rest := by
  induction inside with
  | nil => exact nil
  | escape later ih => exact escapeQuoted.append ih
  | plain escapes closes ends later ih => exact (inQuotes escapes closes ends).cons ih

mutual

theorem templateBody {rest : Text} (apart : rest.head? ≠ some '{') : ∀ {body : Text},
    TemplateBody body → ∀ {frames : List Frame}, InTemplate frames →
      Leads frames body frames rest
  | _, .nil, _, _ => nil
  | _, .escape later, _, inside => (escape inside).append (templateBody apart later inside)
  | _, .substitution within later, _, inside => by
    have behind := closeBrace.cons (templateBody apart later inside)
    exact (substitution inside).append ((substitutionBody within).append behind)
  | _ :: body, .plain escapes closes single later, _, inside => by
    refine (plain inside escapes closes fun dollar => ?_).cons (templateBody apart later inside)
    cases body with
    | nil => exact apart
    | cons next body => exact single dollar

theorem substitutionBody : ∀ {body : Text}, SubstitutionBody body →
    ∀ {outer : List Frame} {rest : Text}, Leads (.braces :: outer) body (.braces :: outer) rest
  | _, .nil, _, _ => nil
  | _, .braces within later, _, _ =>
    openBrace.cons ((substitutionBody within).append (closeBrace.cons (substitutionBody later)))
  | _, .template within later, outer, _ =>
    openTemplate.cons ((templateBody (by simp) within (.inr ⟨.braces :: outer, rfl⟩)).append
      (close.cons (substitutionBody later)))
  | _, .quoted mark within later, _, _ =>
    (openQuote mark).cons ((quotedBody within).append
      ((closeQuote mark.ne_backslash).cons (substitutionBody later)))
  | _, .plain opens closes template unquoted later, _, _ =>
    (inBraces opens closes template unquoted).cons (substitutionBody later)

end

end Leads

namespace Continues

variable {frames outer : List Frame} {quote : Char} {body : Text}

theorem extendTemplate (inside : InTemplate frames) (passed : Text)
    (later : Continues frames body)
    (extend : ∀ inner, TemplateBody inner → inner <+: body → TemplateBody (passed ++ inner)) :
    Continues frames (passed ++ body) := by
  rcases inside with rfl | ⟨outer, rfl⟩
  · cases later with
    | body inner => exact .body (extend body inner (List.prefix_refl body))
  · cases later with
    | template inner later =>
      rw [← List.append_assoc]
      exact .template (extend _ inner (List.prefix_append ..)) later

theorem extendBraces (passed : Text) (later : Continues (.braces :: outer) body)
    (extend : ∀ inner, SubstitutionBody inner → SubstitutionBody (passed ++ inner)) :
    Continues (.braces :: outer) (passed ++ body) := by
  cases later with
  | braces inner later =>
    rw [← List.append_assoc]
    exact .braces (extend _ inner) later

theorem extendQuoted (passed : Text) (later : Continues (.quoted quote :: outer) body)
    (extend : ∀ inner, QuotedBody quote inner → QuotedBody quote (passed ++ inner)) :
    Continues (.quoted quote :: outer) (passed ++ body) := by
  cases later with
  | quoted inner later =>
    rw [← List.append_assoc]
    exact .quoted (extend _ inner) later

theorem passSubstitution (inside : InTemplate frames)
    (later : Continues (.braces :: frames) body) : Continues frames ('$' :: '{' :: body) := by
  cases later with
  | braces within later =>
    next inner rest =>
    have passed : '$' :: '{' :: (inner ++ '}' :: rest) =
        ('$' :: '{' :: (inner ++ ['}'])) ++ rest := by simp
    rw [passed]
    refine later.extendTemplate inside _ fun behind template _ => ?_
    simpa using TemplateBody.substitution within template

theorem passBraces {char : Char}
    (later : Continues
      (if char = '{' then .braces :: .braces :: outer
      else if char = '}' then outer
      else if char = '\x60' then .template :: .braces :: outer
      else if char = '\x27' || char = '"' then .quoted char :: .braces :: outer
      else .braces :: outer) body) : Continues (.braces :: outer) (char :: body) := by
  have behind : ∀ inner rest : Text, ∀ close : Char,
      char :: (inner ++ close :: rest) = (char :: (inner ++ [close])) ++ rest := by simp
  split at later
  · next opens =>
    cases later with
    | braces within later =>
      rw [behind]
      refine later.extendBraces _ fun inner inside => ?_
      simpa [opens] using SubstitutionBody.braces within inside
  split at later
  · next closes =>
    rw [closes]
    exact .braces .nil later
  split at later
  · next template =>
    cases later with
    | template within later =>
      rw [behind]
      refine later.extendBraces _ fun inner inside => ?_
      simpa [template] using SubstitutionBody.template within inside
  split at later
  · next mark =>
    cases later with
    | quoted within later =>
      rw [behind]
      refine later.extendBraces _ fun inner inside => ?_
      simpa using SubstitutionBody.quoted (by simpa [IsQuote] using mark) within inside
  · next opens closes template unquoted =>
    exact later.extendBraces [char] fun inner inside =>
      .plain opens closes template (by simpa [IsQuote] using unquoted) inside

end Continues

/-- The text has a backtick behind `count` characters that close all open constructs. -/
private def Found (frames : List Frame) (text : Text) (count : Nat) : Prop :=
  ∃ body rest, text = body ++ '\x60' :: rest ∧ body.length = count ∧ Continues frames body

private theorem Found.step (passed : Text) {frames inner : List Frame} {rest : Text} {count : Nat}
    (closes : (closing? inner rest).map (· + passed.length) = some count)
    (ih : ∀ {count}, closing? inner rest = some count → Found inner rest count)
    (continues : ∀ body, body <+: rest → Continues inner body → Continues frames (passed ++ body)) :
    Found frames (passed ++ rest) count := by
  obtain ⟨less, found, rfl⟩ := Option.map_eq_some_iff.mp closes
  obtain ⟨body, after, rfl, rfl, inside⟩ := ih found
  exact ⟨passed ++ body, after, (List.append_assoc ..).symm, by simp [Nat.add_comm],
    continues body (List.prefix_append ..) inside⟩

private theorem found_of_closing? {frames : List Frame} {text : Text} {count : Nat}
    (closes : closing? frames text = some count) : Found frames text count := by
  fun_induction closing? frames text generalizing count with
  | case1 | case2 | case5 | case8 => cases closes
  | case3 quote outer char rest ih =>
    exact Found.step ['\\', char] closes ih fun body _ later =>
      later.extendQuoted _ fun _ inner => .escape inner
  | case4 outer char rest other ih =>
    exact Found.step [char] closes ih fun body _ later => .quoted .nil later
  | case6 quote outer char rest escapes closes' ends ih =>
    exact Found.step [char] closes ih fun body _ later =>
      later.extendQuoted _ fun _ inner => .plain escapes closes' ends inner
  | case7 outer char rest frames =>
    rename_i ih
    exact Found.step [char] closes ih fun body _ later => later.passBraces
  | case9 frames unquoted unbraced char rest ih =>
    exact Found.step ['\\', char] closes ih fun body _ later =>
      later.extendTemplate (inTemplate_of unquoted unbraced) _ fun _ inner _ => .escape inner
  | case10 rest =>
    cases closes
    exact ⟨[], rest, rfl, rfl, .body .nil⟩
  | case11 rest frame outer unquoted unbraced plain ih =>
    refine Found.step ['\x60'] closes ih fun body _ later => ?_
    rcases inTemplate_of unquoted unbraced with none | ⟨outer, same⟩
    · cases none
    · cases same
      exact .template .nil later
  | case12 frames unquoted unbraced rest plain open' ih =>
    exact Found.step ['$', '{'] closes ih fun body _ later =>
      later.passSubstitution (inTemplate_of unquoted unbraced)
  | case13 frames unquoted unbraced rest single plain open' ih =>
    refine Found.step ['$'] closes ih fun body early later => ?_
    refine later.extendTemplate (inTemplate_of unquoted unbraced) _ fun inner inside front => ?_
    refine .plain (by decide) (by decide) (fun _ opens => ?_) inside
    obtain ⟨more, rfl⟩ := List.head?_eq_some_iff.mp opens
    obtain ⟨after, rfl⟩ := front.trans early
    exact single _ rfl
  | case14 frames char rest unquoted unbraced escapes closes' dollar ih =>
    exact Found.step [char] closes ih fun body _ later =>
      later.extendTemplate (inTemplate_of unquoted unbraced) _ fun _ inner _ =>
        .plain escapes closes' (absurd · dollar) inner

/-- A body closes at a backtick that has a template body in front of it, and nowhere else. -/
theorem closing?_eq_some_iff {text : Text} {count : Nat} :
    closing? [] text = some count ↔
      text[count]? = some '\x60' ∧ TemplateBody (text.take count) := by
  constructor
  · intro closes
    obtain ⟨body, rest, rfl, rfl, inside⟩ := found_of_closing? closes
    cases inside with
    | body inside => simpa using inside
  · rintro ⟨mark, inside⟩
    obtain ⟨bound, here⟩ := List.getElem?_eq_some_iff.mp mark
    have passed : Leads [] (text.take count) [] (text.drop count) :=
      .templateBody (by simp [List.head?_drop, mark]) inside (.inl rfl)
    rw [Leads, List.take_append_drop, List.drop_eq_getElem_cons bound, here] at passed
    rw [passed, closing?_backtick, Option.map_some, Nat.zero_add,
      List.length_take_of_le (Nat.le_of_lt bound)]

section Bytes

/-- The byte at which the template literal closes whose body starts at `start`. -/
def closingByte? (bytes : List UInt8) (start : Nat) : Option Nat :=
  (closing? [] (Text.ofBytes (bytes.drop start))).map (start + ·)

/-- A backtick stands at `close`, and from `start` up to it a template body. -/
def ClosesBody (bytes : List UInt8) (start close : Nat) : Prop :=
  start ≤ close ∧ bytes[close]? = some '\x60'.toUInt8 ∧
    TemplateBody (Text.ofBytes ((bytes.drop start).take (close - start)))

theorem closingByte?_eq_some_iff {bytes : List UInt8} {start close : Nat} :
    closingByte? bytes start = some close ↔ ClosesBody bytes start close := by
  have mark : ∀ count, (Text.ofBytes (bytes.drop start))[count]? = some '\x60' ↔
      bytes[start + count]? = some '\x60'.toUInt8 := by
    intro count
    have tick : '\x60' = Char.ofUInt8 '\x60'.toUInt8 := by decide
    rw [Text.ofBytes, List.getElem?_map, List.getElem?_drop, tick, Option.map_eq_some_iff]
    refine ⟨?_, fun here => ⟨_, here, rfl⟩⟩
    rintro ⟨byte, here, same⟩
    rwa [Text.ofUInt8_inj.mp same] at here
  simp only [closingByte?, Option.map_eq_some_iff, closing?_eq_some_iff, mark, ClosesBody]
  constructor
  · rintro ⟨count, ⟨here, inside⟩, rfl⟩
    refine ⟨Nat.le_add_right .., here, ?_⟩
    rwa [Nat.add_sub_cancel_left, Text.ofBytes, List.map_take]
  · rintro ⟨after, here, inside⟩
    refine ⟨close - start, ⟨?_, ?_⟩, by omega⟩
    · rwa [Nat.add_sub_cancel' after]
    · rwa [Text.ofBytes, List.map_take] at inside

/-- All open string literals began with a quote. -/
def Quoted (frames : List Frame) : Prop := ∀ quote, .quoted quote ∈ frames → IsQuote quote

namespace Quoted

variable {frame : Frame} {frames : List Frame}

theorem push (quoted : Quoted frames) (own : ∀ quote, frame = .quoted quote → IsQuote quote) :
    Quoted (frame :: frames) := by
  intro quote member
  rcases List.mem_cons.mp member with here | later
  · exact own quote here.symm
  · exact quoted quote later

theorem tail (quoted : Quoted (frame :: frames)) : Quoted frames :=
  fun quote member => quoted quote (List.mem_cons_of_mem frame member)

theorem braces (quoted : Quoted (.braces :: frames)) (char : Char) :
    Quoted (if char = '{' then .braces :: .braces :: frames
      else if char = '}' then frames
      else if char = '\x60' then .template :: .braces :: frames
      else if char = '\x27' || char = '"' then .quoted char :: .braces :: frames
      else .braces :: frames) := by
  split_ifs with opens closes template mark
  · exact quoted.push fun _ same => by cases same
  · exact quoted.tail
  · exact quoted.push fun _ same => by cases same
  · refine quoted.push fun quote same => ?_
    cases same
    simpa [IsQuote] using mark
  · exact quoted

end Quoted

theorem Leads.high {frames : List Frame} (quoted : Quoted frames) {passed rest : Text}
    (high : Text.IsHigh passed) : Leads frames passed frames rest := by
  induction passed with
  | nil => exact .nil
  | cons char passed ih =>
    obtain ⟨beyond, others⟩ := List.forall_mem_cons.mp high
    refine Leads.cons ?_ (ih others)
    have apart : ∀ ascii : Char, ascii.toNat < 128 → char ≠ ascii := by
      rintro _ small rfl
      omega
    have single : char = '$' → (passed ++ rest).head? ≠ some '{' :=
      fun dollar => absurd dollar (apart '$' (by decide))
    match frames with
    | [] => exact .plain (.inl rfl) (apart _ (by decide)) (apart _ (by decide)) single
    | .template :: outer =>
      exact .plain (.inr ⟨outer, rfl⟩) (apart _ (by decide)) (apart _ (by decide)) single
    | .braces :: outer =>
      refine .inBraces (apart _ (by decide)) (apart _ (by decide)) (apart _ (by decide)) ?_
      rintro (mark | mark)
      · exact apart _ (by decide) mark
      · exact apart _ (by decide) mark
    | .quoted quote :: outer =>
      refine .inQuotes (apart _ (by decide)) ?_ (apart _ (by decide))
      rcases quoted quote (List.mem_cons_self ..) with rfl | rfl
      · exact apart _ (by decide)
      · exact apart _ (by decide)

/-- The search goes over the bytes of a text as over its characters. -/
private def GoesBytewise (frames : List Frame) (text : Text) : Prop :=
  closing? frames text.bytewise =
    (closing? frames text).map fun count => Text.width (text.take count)

private theorem bytewise_step (passed : Text) {frames inner : List Frame} {rest : Text}
    (leads : Leads frames passed.bytewise inner rest.bytewise) (ih : GoesBytewise inner rest) :
    closing? frames (passed ++ rest).bytewise =
      ((closing? inner rest).map (· + passed.length)).map
        fun count => Text.width ((passed ++ rest).take count) := by
  have long : passed.bytewise.length = passed.width := by
    rw [Text.bytewise, Text.ofBytes, List.length_map, Text.length_bytes]
  rw [Text.bytewise_append, leads, ih, Option.map_map, Option.map_map, long]
  congr 1
  funext count
  have front : (passed ++ rest).take (count + passed.length) = passed ++ rest.take count := by
    rw [Nat.add_comm, List.take_length_add_append]
  simp only [Function.comp_apply, front, Text.width_append]
  omega

/-- Bytes beyond ASCII are passed over like the character they belong to. -/
private theorem Leads.bytewise {frames : List Frame} {char : Char} {rest : Text}
    (quoted : Quoted frames) (own : Leads frames [char] frames rest) :
    Leads frames (Text.bytewise [char]) frames rest := by
  rcases Text.bytewise_singleton char with same | ⟨-, high⟩
  · rwa [same]
  · exact .high quoted high

private theorem Leads.bytewise_escape {frames : List Frame} {rest : Text} (quoted : Quoted frames)
    (escapes : ∀ (char : Char) (rest : Text), Leads frames ['\\', char] frames rest) (char : Char) :
    Leads frames (Text.bytewise ['\\', char]) frames rest := by
  rw [← List.singleton_append, Text.bytewise_append, Text.bytewise_of_ascii (by decide)]
  rcases Text.bytewise_singleton char with same | ⟨-, high⟩
  · rw [same]
    exact escapes char rest
  · cases several : Text.bytewise [char] with
    | nil => exact absurd several (Text.bytewise_singleton_ne_nil char)
    | cons first more =>
      rw [several] at high
      exact (escapes first (more ++ rest)).append (.high quoted (List.forall_mem_cons.mp high).2)

/-- What a character opens in a substitution it opens as bytes, too. -/
private theorem Leads.bytewise_braces {outer : List Frame} {rest : Text} (quoted : Quoted outer)
    (char : Char) : Leads (.braces :: outer) (Text.bytewise [char])
      (if char = '{' then .braces :: .braces :: outer
      else if char = '}' then outer
      else if char = '\x60' then .template :: .braces :: outer
      else if char = '\x27' || char = '"' then .quoted char :: .braces :: outer
      else .braces :: outer) rest := by
  rcases Text.bytewise_singleton char with same | ⟨beyond, high⟩
  · rw [same]
    exact .inSubstitution
  · have apart : ∀ ascii : Char, ascii.toNat < 128 → char ≠ ascii := by
      rintro _ small rfl
      omega
    simp only [apart '{' (by decide), apart '}' (by decide), apart '\x60' (by decide),
      apart '\x27' (by decide), apart '"' (by decide), if_false, decide_false, Bool.or_self,
      Bool.false_eq_true]
    exact .high (quoted.push fun _ same => by cases same) high

private theorem goesBytewise (frames : List Frame) (quoted : Quoted frames) (text : Text) :
    GoesBytewise frames text := by
  unfold GoesBytewise
  have backslash : Text.bytewise ['\\'] = ['\\'] := Text.bytewise_of_ascii (by decide)
  fun_induction closing? frames text with
  | case1 => simp
  | case2 quote outer => simp [backslash, closing?_quoted]
  | case5 quote outer rest escapes closes' =>
    rw [Text.bytewise_cons (by decide), closing?_quoted]
    simp [closes']
  | case8 frames unquoted unbraced =>
    simp [backslash, closing?_inTemplate (inTemplate_of unquoted unbraced)]
  | case3 quote outer char rest ih =>
    exact bytewise_step ['\\', char] (.bytewise_escape quoted (fun _ _ => .escapeQuoted) char)
      (ih quoted)
  | case4 outer char rest other ih =>
    have mark : IsQuote char := quoted char (List.mem_cons_self ..)
    refine bytewise_step [char] ?_ (ih quoted.tail)
    rw [Text.bytewise_of_ascii mark.ascii]
    exact .closeQuote other
  | case6 quote outer char rest escapes closes' ends ih =>
    exact bytewise_step [char] (.bytewise quoted (.inQuotes escapes closes' ends)) (ih quoted)
  | case7 outer char rest frames =>
    rename_i ih
    exact bytewise_step [char] (.bytewise_braces quoted.tail char) (ih (quoted.braces char))
  | case9 frames unquoted unbraced char rest ih =>
    have inside := inTemplate_of unquoted unbraced
    exact bytewise_step ['\\', char] (.bytewise_escape quoted (fun _ _ => .escape inside) char)
      (ih quoted)
  | case10 rest =>
    rw [Text.bytewise_cons (by decide), closing?_backtick, Option.map_some, List.take_zero]
    rfl
  | case11 rest frame outer unquoted unbraced plain ih =>
    rcases inTemplate_of unquoted unbraced with none | ⟨outer, same⟩
    · cases none
    · cases same
      exact bytewise_step ['\x60'] .close (ih quoted.tail)
  | case12 frames unquoted unbraced rest plain open' ih =>
    exact bytewise_step ['$', '{'] (.substitution (inTemplate_of unquoted unbraced))
      (ih (quoted.push fun _ same => by cases same))
  | case13 frames unquoted unbraced rest single plain open' ih =>
    refine bytewise_step ['$'] ?_ (ih quoted)
    refine .plain (inTemplate_of unquoted unbraced) (by decide) (by decide) fun _ opens => ?_
    obtain ⟨more, rfl⟩ := List.head?_eq_some_iff.mp (Text.head?_of_bytewise (by decide) opens)
    exact single more rfl
  | case14 frames char rest unquoted unbraced escapes closes' dollar ih =>
    exact bytewise_step [char] (.bytewise quoted (.plain (inTemplate_of unquoted unbraced) escapes
      closes' (absurd · dollar))) (ih quoted)

/-- On the bytes of a text the search ends at the byte where its characters say. -/
theorem closingByte?_bytes (front text : Text) :
    closingByte? (front ++ text).bytes front.width =
      (closing? [] text).map fun count => front.width + Text.width (text.take count) := by
  have behind : (front ++ text).bytes.drop front.width = text.bytes := by
    rw [Text.bytes_append, ← Text.length_bytes, List.drop_left]
  have same : closing? [] (Text.ofBytes text.bytes) = _ := goesBytewise [] nofun text
  rw [closingByte?, behind, same, Option.map_map]
  rfl

/-- Of all byte strings and places in them: the search says where the template literal closes
whose body starts there, which is at one byte at most, and says that it does not close exactly if
there is no such byte. The search over a text is the search over its bytes. -/
theorem closingByte?_iff :
    (∀ (bytes : List UInt8) (start : Nat),
      (∀ close, closingByte? bytes start = some close ↔ ClosesBody bytes start close) ∧
      (∀ close other, ClosesBody bytes start close → ClosesBody bytes start other →
        close = other) ∧
      (closingByte? bytes start = none ↔ ∀ close, ¬ ClosesBody bytes start close)) ∧
    ∀ front text : Text, closingByte? (front ++ text).bytes front.width =
      (closing? [] text).map fun count => front.width + Text.width (text.take count) := by
  refine ⟨fun bytes start => ⟨fun close => closingByte?_eq_some_iff, ?_, ?_⟩, closingByte?_bytes⟩
  · intro close other here there
    have found := closingByte?_eq_some_iff.mpr here
    rw [closingByte?_eq_some_iff.mpr there] at found
    exact (Option.some.inj found).symm
  · rw [Option.eq_none_iff_forall_ne_some]
    exact forall_congr' fun close => not_congr closingByte?_eq_some_iff

end Bytes

end RelayWorkbench.Host.TemplateLiteral
