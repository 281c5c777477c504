import RelayWorkbench.Proofs.Host.TemplateWeaving

/-! Scripts as code and template literals in turn. The search passes over an untagged literal
character by character. So it takes the backtick that closes one for one that opens GraphQL when the
body ends like a tag; if no untagged literal has such a body, it finds the tagged ones exactly. -/

namespace RelayWorkbench.Host

/-- A template literal that holds no backtick, and the code from the literal before up to it. -/
structure ScriptLiteral where
  code : Text
  body : Text
  outside : '\x60' ∉ code
  inside : '\x60' ∉ body
  closed : TemplateLiteral.closing? [] (body ++ ['\x60']) = some body.length

namespace ScriptLiteral

open TemplateLiteral

def text (literal : ScriptLiteral) : Text :=
  literal.code ++ '\x60' :: (literal.body ++ ['\x60'])

/-- The text of a script: its literals, and the code behind the last of them. -/
def script (literals : List ScriptLiteral) (code : Text) : Text := literals.flatMap text ++ code

/-- Whether the code in front of a literal ends with a tag that stands alone. -/
def isTagged (literal : ScriptLiteral) : Bool := endsWithTag literal.code.reverse

/-- Whether the body of an untagged literal ends as the code in front of a tagged one does. -/
def misleads (literal : ScriptLiteral) : Bool :=
  !literal.isTagged && endsWithTag literal.body.reverse

/-- The body of a literal, if it is tagged and not empty, where the code begins at an offset. It
begins behind the byte that opens it and reaches as far as it is wide. -/
def body? (offset : Nat) (literal : ScriptLiteral) : Option Excerpt :=
  if literal.isTagged && !literal.body.isEmpty then
    let start := offset + literal.code.width + 1
    some ⟨⟨start, start + literal.body.width⟩, literal.body⟩
  else none

/-- The non-empty bodies of tagged literals, in order. -/
def bodiesFrom (offset : Nat) : List ScriptLiteral → List Excerpt
  | [] => []
  | literal :: rest =>
    (literal.body? offset).toList ++ bodiesFrom (offset + literal.text.width) rest

theorem script_append (front back : List ScriptLiteral) (code : Text) :
    script (front ++ back) code = script front (script back code) := by
  simp [script]

theorem script_cons (literal : ScriptLiteral) (back : List ScriptLiteral) (code : Text) :
    script (literal :: back) code = literal.text ++ script back code := by
  simp [script]

theorem width_script (literals : List ScriptLiteral) (code : Text) :
    (script literals code).width = (script literals []).width + code.width := by
  rw [script, script, List.append_nil]
  exact Text.width_append ..

section Search

variable {before : Text} {literal : ScriptLiteral}

theorem width_text (literal : ScriptLiteral) :
    literal.text.width = literal.code.width + 1 + literal.body.width + 1 := by
  simp only [text, Text.width_append, Text.width_cons, Text.width_nil,
    show Char.utf8Size '\x60' = 1 from rfl]
  omega

theorem taggedFrom_code {code : Text} (plain : '\x60' ∉ code) (before : Text) (offset : Nat)
    (rest : Text) :
    taggedFrom before offset 0 (code ++ rest) =
      taggedFrom (code.reverse ++ before) (offset + code.width) 0 rest := by
  induction code generalizing before offset with
  | nil => simp
  | cons char code ih =>
    rw [List.mem_cons, not_or] at plain
    have apart : char ≠ '\x60' := Ne.symm plain.1
    rw [List.cons_append, taggedFrom]
    simp only [apart, decide_false, Bool.false_and, Bool.false_eq_true, if_false]
    rw [ih plain.2, Text.width_cons, List.reverse_cons, List.append_assoc, Nat.add_assoc]
    rfl

theorem taggedFrom_of_code {code : Text} (plain : '\x60' ∉ code) (before : Text) (offset : Nat) :
    taggedFrom before offset 0 code = [] := by
  rw [← List.append_nil code, taggedFrom_code plain, taggedFrom]

theorem taggedFrom_backtick (untagged : endsWithTag before = false) (offset : Nat) (rest : Text) :
    taggedFrom before offset 0 ('\x60' :: rest) =
      taggedFrom ('\x60' :: before) (offset + 1) 0 rest := by
  rw [taggedFrom]
  simp [untagged, show Char.utf8Size '\x60' = 1 from rfl]

/-- Whether a text ends with a tag does not depend on what stands in front of a backtick. -/
theorem endsWithTag_append {code : Text} (plain : '\x60' ∉ code) (start : reach before = []) :
    endsWithTag (code.reverse ++ before) = endsWithTag code.reverse := by
  have others : ∀ char ∈ code.reverse, (char != '\x60') = true := by
    intro char member
    rw [bne_iff_ne]
    rintro rfl
    exact plain (List.mem_reverse.mp member)
  apply endsWithTag_congr
  rw [reach, List.takeWhile_append_of_pos others]
  rw [show before.takeWhile (· != '\x60') = [] from start, List.append_nil, reach]
  exact (List.takeWhile_eq_self_iff.mpr others).symm

theorem reverse_text (literal : ScriptLiteral) (before : Text) :
    literal.text.reverse ++ before =
      '\x60' :: (literal.body.reverse ++ '\x60' :: (literal.code.reverse ++ before)) := by
  simp [text]

theorem reach_text (literal : ScriptLiteral) (before : Text) :
    reach (literal.text.reverse ++ before) = [] := by
  rw [reverse_text, reach_cons, if_pos rfl]

/-- In an untagged literal the search comes to the backtick that closes it. -/
theorem taggedFrom_untagged (start : reach before = []) (untagged : literal.isTagged = false)
    (offset : Nat) (rest : Text) :
    taggedFrom before offset 0 (literal.text ++ rest) =
      taggedFrom (literal.body.reverse ++ '\x60' :: (literal.code.reverse ++ before))
        (offset + literal.code.width + 1 + literal.body.width) 0 ('\x60' :: rest) := by
  rw [text, List.append_assoc, taggedFrom_code literal.outside, List.cons_append,
    taggedFrom_backtick (by rwa [endsWithTag_append literal.outside start]), List.append_assoc,
    taggedFrom_code literal.inside, List.singleton_append]

/-- A literal that does not mislead is found if it is tagged, and passed over. -/
theorem taggedFrom_literal (start : reach before = []) (plain : literal.misleads = false)
    (offset : Nat) (rest : Text) :
    taggedFrom before offset 0 (literal.text ++ rest) =
      (literal.body? offset).toList ++
        taggedFrom (literal.text.reverse ++ before) (offset + literal.text.width) 0 rest := by
  rw [reverse_text, width_text, ← Nat.add_assoc, ← Nat.add_assoc, ← Nat.add_assoc]
  by_cases tagged : literal.isTagged
  · have ends : endsWithTag (literal.code.reverse ++ before) := by
      rwa [endsWithTag_append literal.outside start]
    rw [text, List.append_assoc, taggedFrom_code literal.outside, List.cons_append,
      List.append_assoc, List.singleton_append,
      taggedFrom_template ends literal.body (closing?_append literal.closed)]
    cases empty : literal.body.isEmpty <;> simp [body?, Excerpt.startingAt, tagged, empty]
  · rw [Bool.not_eq_true] at tagged
    have body : endsWithTag literal.body.reverse = false := by
      simpa [misleads, tagged] using plain
    rw [taggedFrom_untagged start tagged, taggedFrom_backtick]
    · simp [body?, tagged]
    · rwa [endsWithTag_append literal.inside (by simp [reach_cons])]

/-- Behind a literal that misleads, the code up to the next backtick is taken for GraphQL. -/
theorem taggedFrom_misled (start : reach before = []) (misleads : literal.misleads)
    {code : Text} (written : code ≠ [])
    (closed : closing? [] (code ++ ['\x60']) = some code.length) (offset : Nat) (rest : Text) :
    taggedFrom before offset 0 (literal.text ++ (code ++ '\x60' :: rest)) =
      Excerpt.startingAt (offset + literal.text.width) code ::
        taggedFrom ('\x60' :: (code.reverse ++ (literal.text.reverse ++ before)))
          (offset + literal.text.width + code.width + 1) 0 rest := by
  obtain ⟨tagged, body⟩ : literal.isTagged = false ∧ endsWithTag literal.body.reverse := by
    simpa [ScriptLiteral.misleads] using misleads
  have ends : endsWithTag
      (literal.body.reverse ++ '\x60' :: (literal.code.reverse ++ before)) := by
    rwa [endsWithTag_append literal.inside (by simp [reach_cons])]
  have some : code.isEmpty = false := by simpa using written
  rw [taggedFrom_untagged start tagged, taggedFrom_template ends code (closing?_append closed),
    reverse_text, width_text, some]
  simp only [Nat.add_assoc]
  rfl

theorem taggedFrom_script (literals : List ScriptLiteral)
    (plain : ∀ literal ∈ literals, literal.misleads = false) (start : reach before = [])
    (offset : Nat) :
    reach ((script literals []).reverse ++ before) = [] ∧ ∀ rest,
      taggedFrom before offset 0 (script literals rest) =
        bodiesFrom offset literals ++
          taggedFrom ((script literals []).reverse ++ before)
            (offset + (script literals []).width) 0 rest := by
  induction literals generalizing before offset with
  | nil => exact ⟨start, fun rest => by simp [script, bodiesFrom]⟩
  | cons literal literals ih =>
    rw [List.forall_mem_cons] at plain
    obtain ⟨here, others⟩ := ih plain.2 (reach_text literal before) (offset + literal.text.width)
    have whole : (script (literal :: literals) []).reverse ++ before =
        (script literals []).reverse ++ (literal.text.reverse ++ before) := by simp [script]
    rw [whole]
    refine ⟨here, fun rest => ?_⟩
    rw [script_cons, taggedFrom_literal start plain.1, others, script_cons, Text.width_append,
      bodiesFrom, List.append_assoc, Nat.add_assoc]

end Search

theorem bodiesFrom_append (offset : Nat) (front back : List ScriptLiteral) :
    bodiesFrom offset (front ++ back) =
      bodiesFrom offset front ++ bodiesFrom (offset + (script front []).width) back := by
  induction front generalizing offset with
  | nil => simp [script, bodiesFrom]
  | cons literal front ih =>
    rw [List.cons_append, bodiesFrom, ih, bodiesFrom, script_cons, Text.width_append,
      List.append_assoc, Nat.add_assoc]

theorem taggedTemplates_script {literals : List ScriptLiteral}
    (plain : ∀ literal ∈ literals, literal.misleads = false) {code : Text}
    (outside : '\x60' ∉ code) : taggedTemplates (script literals code) = bodiesFrom 0 literals := by
  have found := (taggedFrom_script literals plain (show reach [] = [] from rfl) 0).2 code
  rw [taggedTemplates, found, taggedFrom_of_code outside, List.append_nil]

/-- Behind a literal that misleads, the code in front of the next literal is found and the body of
that literal is not. -/
theorem taggedTemplates_misled {front : List ScriptLiteral}
    (plain : ∀ literal ∈ front, literal.misleads = false) {literal : ScriptLiteral}
    (misleads : literal.misleads) {next : ScriptLiteral} (written : next.code ≠ [])
    (closed : closing? [] (next.code ++ ['\x60']) = some next.code.length)
    (body : endsWithTag next.body.reverse = false) {back : List ScriptLiteral}
    (others : ∀ literal ∈ back, literal.misleads = false) {code : Text} (outside : '\x60' ∉ code) :
    taggedTemplates (script (front ++ literal :: next :: back) code) =
      bodiesFrom 0 front ++
        Excerpt.startingAt (script (front ++ [literal]) []).width next.code ::
          bodiesFrom (script (front ++ [literal, next]) []).width back := by
  obtain ⟨start, first⟩ := taggedFrom_script front plain (show reach [] = [] from rfl) 0
  have text : script (literal :: next :: back) code =
      literal.text ++ (next.code ++ '\x60' :: (next.body ++ '\x60' :: script back code)) := by
    simp [script, ScriptLiteral.text]
  have begins : ∀ before : Text, reach ('\x60' :: before) = [] := by simp [reach_cons]
  have untagged : ∀ before : Text, endsWithTag (next.body.reverse ++ '\x60' :: before) = false := by
    intro before
    rwa [endsWithTag_append next.inside (begins before)]
  have near : (script (front ++ [literal]) []).width =
      0 + (script front []).width + literal.text.width := by
    rw [script_append, width_script, script_cons, Text.width_append]
    simp [script]
  have far : (script (front ++ [literal, next]) []).width =
      0 + (script front []).width + literal.text.width + next.code.width + 1 + next.body.width +
        1 := by
    rw [script_append, width_script, script_cons, script_cons, Text.width_append, Text.width_append,
      width_text next]
    simp [script, Nat.add_assoc]
  rw [taggedTemplates, script_append, first, text, taggedFrom_misled start misleads written closed,
    taggedFrom_code next.inside, taggedFrom_backtick (untagged _),
    (taggedFrom_script back others (begins _) _).2, taggedFrom_of_code outside, List.append_nil,
    near, far]

/-- A tagged literal; where the code in front of it is taken for GraphQL, that is not its body. -/
def sample : ScriptLiteral :=
  ⟨" gql".toList, "a".toList, by decide, by decide, by decide +kernel⟩

/-- The search finds exactly the tagged literals of a script if none of the others misleads, that
is, has a body that ends with a tag. After one that does, it does not find them however the script
goes on: the code up to the next literal is found, and that literal is not. -/
theorem taggedTemplates_eq_bodies_iff {front : List ScriptLiteral}
    (plain : ∀ literal ∈ front, literal.misleads = false) :
    (∀ code, '\x60' ∉ code → taggedTemplates (script front code) = bodiesFrom 0 front) ∧
      ∀ literal : ScriptLiteral,
        (literal.misleads = false ↔ ∀ back code, (∀ other ∈ back, other.misleads = false) →
          '\x60' ∉ code → taggedTemplates (script (front ++ literal :: back) code) =
            bodiesFrom 0 (front ++ literal :: back)) ∧
        (literal.misleads → ∀ (next : ScriptLiteral) back code, next.code ≠ [] →
          closing? [] (next.code ++ ['\x60']) = some next.code.length →
          endsWithTag next.body.reverse = false → (∀ other ∈ back, other.misleads = false) →
          '\x60' ∉ code →
            taggedTemplates (script (front ++ literal :: next :: back) code) =
              bodiesFrom 0 front ++
                Excerpt.startingAt (script (front ++ [literal]) []).width next.code ::
                  bodiesFrom (script (front ++ [literal, next]) []).width back) := by
  refine ⟨fun code => taggedTemplates_script plain, fun literal => ⟨⟨?_, ?_⟩, ?_⟩⟩
  · intro quiet back code others outside
    refine taggedTemplates_script ?_ outside
    exact List.forall_mem_append.mpr ⟨plain, List.forall_mem_cons.mpr ⟨quiet, others⟩⟩
  · intro finds
    by_contra misleads
    rw [Bool.not_eq_false] at misleads
    have found := finds [sample] [] (by decide +kernel) List.not_mem_nil
    rw [taggedTemplates_misled plain misleads (by decide) (by decide +kernel) (by decide +kernel)
      (List.forall_mem_nil _) List.not_mem_nil, bodiesFrom_append] at found
    have untagged : literal.isTagged = false := by
      simpa using (Bool.and_eq_true_iff.mp misleads).1
    have here : ∀ offset, literal.body? offset = none := by simp [body?, untagged]
    have next : ∀ offset, sample.body? offset = some (.startingAt (offset + 5) ['a']) := by
      intro offset
      rw [body?, if_pos (by decide +kernel)]
      rfl
    have contents := congrArg (List.map Excerpt.content) (List.append_cancel_left found)
    simp only [bodiesFrom, here, next] at contents
    cases contents
  · intro misleads next back code written closed body others outside
    exact taggedTemplates_misled plain misleads written closed body others outside

/-- A literal whose body tells to use a tag. -/
def advice : ScriptLiteral :=
  ⟨"\nconst s = ".toList, "use gql".toList, by decide, by decide, by decide +kernel⟩

def query : ScriptLiteral :=
  ⟨"; const q = gql".toList, "query Q \x7b id \x7d".toList, by decide, by decide, by decide +kernel⟩

theorem taggedTemplates_eq_bodies_advice :
    taggedTemplates (script [sample, query] ";".toList) = bodiesFrom 0 [sample, query] ∧
      taggedTemplates (script [sample, advice, query] ";".toList) =
        bodiesFrom 0 [sample] ++
          [Excerpt.startingAt (script [sample, advice] []).width query.code] := by
  have plain : ∀ literal ∈ [sample], literal.misleads = false := by decide +kernel
  have both : ∀ literal ∈ [sample, query], literal.misleads = false := by decide +kernel
  refine ⟨(taggedTemplates_eq_bodies_iff both).1 _ (by decide), ?_⟩
  exact ((taggedTemplates_eq_bodies_iff plain).2 advice).2 (by decide +kernel) query [] _
    (by decide) (by decide +kernel) (by decide +kernel) (List.forall_mem_nil _) (by decide)

/-- The code between the two literals is found, and the query is not. -/
theorem taggedTemplates_ne_bodies :
    taggedTemplates (script [advice, query] ";".toList) ≠ bodiesFrom 0 [advice, query] ∧
      (taggedTemplates (script [advice, query] ";".toList)).map Excerpt.content =
        ["; const q = gql".toList] := by
  decide +kernel

end ScriptLiteral

end RelayWorkbench.Host
