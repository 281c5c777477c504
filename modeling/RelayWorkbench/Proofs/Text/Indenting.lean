import Mathlib
import RelayWorkbench.Text.Basic

/-! Indentation and what stands behind a text. Only line feeds are touched: a text that is moved
to the right reads, line by line, as it did before. -/

namespace RelayWorkbench.Text

/-- The text with `count` spaces after each of its line feeds, and `behind` at its end. -/
def indented (count : Nat) (behind : Text) : Text → Text
  | [] => behind
  | char :: rest =>
    if char = '\n' then '\n' :: (spaces count ++ indented count behind rest)
    else char :: indented count behind rest

variable {count : Nat} {behind : Text}

@[simp] theorem indented_nil : indented count behind [] = behind := rfl

theorem indented_lineFeed (rest : Text) :
    indented count behind ('\n' :: rest) =
      '\n' :: (spaces count ++ indented count behind rest) := rfl

theorem indented_cons {char : Char} (other : char ≠ '\n') (rest : Text) :
    indented count behind (char :: rest) = char :: indented count behind rest := by
  rw [indented, if_neg other]

theorem indented_append (front back : Text) :
    indented count behind (front ++ back) =
      indented count (indented count behind back) front := by
  induction front with
  | nil => rfl
  | cons char rest ih => simp only [List.cons_append, indented, ih]

theorem indented_behind (text : Text) :
    indented count behind text = indented count [] text ++ behind := by
  induction text with
  | nil => rfl
  | cons char rest ih =>
    simp only [indented, ih]
    split <;> simp

theorem indented_append_eq (front back : Text) :
    indented count [] (front ++ back) = indented count [] front ++ indented count [] back := by
  rw [indented_append, indented_behind]

theorem head?_indented (count : Nat) (text : Text) :
    (indented count [] text).head? = text.head? := by
  cases text with
  | nil => rfl
  | cons char rest =>
    by_cases lineFeed : char = '\n'
    · subst lineFeed
      rfl
    · rw [indented_cons lineFeed]
      rfl

@[simp] theorem indented_zero (text : Text) : indented 0 behind text = text ++ behind := by
  induction text with
  | nil => rfl
  | cons char rest ih =>
    simp only [indented, ih]
    split
    · next lineFeed => simp [lineFeed, spaces]
    · rfl

theorem lines_eq_cons (text : Text) : ∃ first more, lines text = first :: more := by
  cases text with
  | nil => exact ⟨[], [], rfl⟩
  | cons char rest =>
    by_cases lineFeed : char = '\n'
    · subst lineFeed
      exact ⟨[], lines rest, rfl⟩
    · simp only [lines]
      split <;> exact ⟨_, _, rfl⟩

@[simp] theorem lines_lineFeed (rest : Text) : lines ('\n' :: rest) = [] :: lines rest := rfl

theorem lines_cons {char : Char} {rest first : Text} {more : List Text} (other : char ≠ '\n')
    (parts : lines rest = first :: more) : lines (char :: rest) = (char :: first) :: more := by
  simp [lines, parts]

theorem lines_append {front back first : Text} {more : List Text} (single : '\n' ∉ front)
    (parts : lines back = first :: more) : lines (front ++ back) = (front ++ first) :: more := by
  induction front with
  | nil => exact parts
  | cons char rest ih =>
    rw [List.mem_cons, not_or] at single
    exact lines_cons (Ne.symm single.1) (ih single.2)

theorem lines_eq_concat (text : Text) : ∃ before last, lines text = before ++ [last] := by
  obtain ⟨first, more, parts⟩ := lines_eq_cons text
  have some : lines text ≠ [] := by simp [parts]
  exact ⟨_, _, (List.dropLast_append_getLast some).symm⟩

/-- The last line of a text and the first line of what is put behind it are one line. -/
theorem lines_append_of_concat {front back last first : Text} {before more : List Text}
    (ends : lines front = before ++ [last]) (begins : lines back = first :: more) :
    lines (front ++ back) = before ++ (last ++ first) :: more := by
  induction front generalizing before last with
  | nil =>
    have parts : ([] : List Text) ++ [[]] = before ++ [last] := ends
    obtain ⟨rfl, rfl⟩ := List.append_singleton_inj.mp parts
    exact begins
  | cons char rest ih =>
    obtain ⟨others, own, split⟩ := lines_eq_concat rest
    have joined := ih split
    by_cases lineFeed : char = '\n'
    · subst lineFeed
      have parts : ([] :: others) ++ [own] = before ++ [last] :=
        (congrArg ([] :: ·) split).symm.trans ends
      obtain ⟨rfl, rfl⟩ := List.append_singleton_inj.mp parts
      rw [List.cons_append, lines_lineFeed, joined, List.cons_append]
    · cases others with
      | nil =>
        have parts : ([] : List Text) ++ [char :: own] = before ++ [last] :=
          (lines_cons lineFeed split).symm.trans ends
        obtain ⟨rfl, rfl⟩ := List.append_singleton_inj.mp parts
        exact lines_cons lineFeed joined
      | cons next others =>
        have parts : ((char :: next) :: others) ++ [own] = before ++ [last] :=
          (lines_cons lineFeed split).symm.trans ends
        obtain ⟨rfl, rfl⟩ := List.append_singleton_inj.mp parts
        exact lines_cons lineFeed joined

theorem lineFeed_notMem_spaces (count : Nat) : '\n' ∉ spaces count := by
  simp [spaces, List.mem_replicate]

theorem lines_indented {text first : Text} {more : List Text} (parts : lines text = first :: more) :
    lines (indented count [] text) = first :: more.map (spaces count ++ ·) := by
  induction text generalizing first more with
  | nil => cases parts; rfl
  | cons char rest ih =>
    obtain ⟨next, others, split⟩ := lines_eq_cons rest
    by_cases lineFeed : char = '\n'
    · subst lineFeed
      rw [lines_lineFeed, split] at parts
      cases parts
      rw [indented_lineFeed, lines_lineFeed,
        lines_append (lineFeed_notMem_spaces count) (ih split)]
      rfl
    · rw [lines_cons lineFeed split] at parts
      cases parts
      rw [indented_cons lineFeed, lines_cons lineFeed (ih split)]

theorem mem_of_mem_lines {char : Char} {line text : Text} (inText : line ∈ lines text)
    (inLine : char ∈ line) : char ∈ text := by
  induction text generalizing line with
  | nil =>
    cases List.mem_singleton.mp inText
    exact inLine
  | cons first rest ih =>
    by_cases lineFeed : first = '\n'
    · subst lineFeed
      rw [lines_lineFeed, List.mem_cons] at inText
      rcases inText with rfl | later
      · cases inLine
      · exact List.mem_cons_of_mem _ (ih later inLine)
    · obtain ⟨own, more, parts⟩ := lines_eq_cons rest
      rw [lines_cons lineFeed parts, List.mem_cons] at inText
      rw [parts] at ih
      rcases inText with rfl | later
      · rcases List.mem_cons.mp inLine with rfl | inside
        · exact List.mem_cons_self ..
        · exact List.mem_cons_of_mem _ (ih (List.mem_cons_self ..) inside)
      · exact List.mem_cons_of_mem _ (ih (List.mem_cons_of_mem _ later) inLine)

theorem ofLines_cons (first : Text) {more : List Text} (others : more ≠ []) :
    ofLines (first :: more) = first ++ '\n' :: ofLines more := by
  cases more with
  | nil => exact absurd rfl others
  | cons => rfl

theorem ofLines_append (front first : Text) (more : List Text) :
    ofLines ((front ++ first) :: more) = front ++ ofLines (first :: more) := by
  cases more <;> simp [ofLines]

@[simp] theorem ofLines_lines (text : Text) : ofLines (lines text) = text := by
  induction text with
  | nil => rfl
  | cons char rest ih =>
    obtain ⟨first, more, parts⟩ := lines_eq_cons rest
    rw [parts] at ih
    by_cases lineFeed : char = '\n'
    · subst lineFeed
      rw [lines_lineFeed, parts, ofLines_cons [] (List.cons_ne_nil _ _), ih]
      rfl
    · rw [lines_cons lineFeed parts]
      exact (ofLines_append [char] first more).trans (congrArg ([char] ++ ·) ih)

end RelayWorkbench.Text
