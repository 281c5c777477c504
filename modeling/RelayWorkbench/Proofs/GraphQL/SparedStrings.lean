import RelayWorkbench.Proofs.GraphQL.PrintedStrings
import RelayWorkbench.Proofs.Host.Sparing

/-! Printed strings and the host language. What is written between the quotes opens or closes
something in the host language only if the value does. -/

namespace RelayWorkbench

open Host

variable {language : Language}

namespace Text

variable {text : Text}

private theorem spares_indentation (count : Nat) (spares : language.Spares text) :
    language.Spares ('\n' :: (spaces count ++ text)) := by
  have feed : language.Harmless ['\n'] := .of_forall (Text.forall_of_all (by decide))
  exact feed.append_spares ((Language.Harmless.spaces count).append_spares spares)

theorem spares_indented (spares : language.Spares text) (count : Nat) :
    language.Spares (indented count [] text) := by
  induction text with
  | nil => exact spares
  | cons char rest ih =>
    by_cases lineFeed : char = '\n'
    · subst lineFeed
      exact spares_indentation count (ih spares.tail)
    · rw [indented_cons lineFeed]
      exact spares.cons_of_head (ih spares.tail) fun first here =>
        .inl (by rwa [head?_indented] at here)

/-- A line that is not empty begins as its text does. -/
private theorem head?_of_lines {first : Text} {more : List Text} {char : Char}
    (parts : lines text = first :: more) (here : first.head? = some char) :
    text.head? = some char := by
  cases text with
  | nil => cases parts; cases here
  | cons next rest =>
    by_cases lineFeed : next = '\n'
    · subst lineFeed
      cases parts
      cases here
    · obtain ⟨line, others, split⟩ := lines_eq_cons rest
      rw [lines_cons lineFeed split] at parts
      cases parts
      exact here

/-- The lines of a text open and close nothing that the text does not. -/
private theorem spares_of_mem_lines {line : Text} (spares : language.Spares text)
    (inText : line ∈ lines text) : language.Spares line := by
  induction text generalizing line with
  | nil => rwa [List.mem_singleton.mp inText]
  | cons char rest ih =>
    by_cases lineFeed : char = '\n'
    · subst lineFeed
      rcases List.mem_cons.mp inText with rfl | later
      · exact .nil
      · exact ih spares.tail later
    · obtain ⟨first, more, parts⟩ := lines_eq_cons rest
      rw [lines_cons lineFeed parts] at inText
      rw [parts] at ih
      rcases List.mem_cons.mp inText with rfl | later
      · exact spares.cons_of_head (ih spares.tail (List.mem_cons_self ..)) fun next here =>
          .inl (head?_of_lines parts here)
      · exact ih spares.tail (List.mem_cons_of_mem first later)

end Text

namespace GraphQL.StringValue

/-- A character is written as itself, or with characters that mean nothing to a host language. -/
private theorem escape_cases (char : Char) :
    escape char = [char] ∨ ∀ other ∈ escape char, other ∉ ['\x60', '$', '|', '\x7b', '\x7d'] := by
  unfold escape
  split
  iterate 7 exact .inr (Text.forall_of_all (by decide))
  split
  · next control =>
    have pairs : ∀ code < 32, (hexPair code).all
        fun digit => decide (digit ∉ ['\x60', '$', '|', '\x7b', '\x7d']) := by decide
    refine .inr ?_
    simpa using pairs _ control
  · exact .inl rfl

private theorem head?_flatMap_escape {value : Text} {first : Char}
    (here : (value.flatMap escape).head? = some first) :
    value.head? = some first ∨ first ≠ '\x7b' ∧ first ≠ '\x7d' := by
  cases value with
  | nil => cases here
  | cons char rest =>
    rw [List.flatMap_cons] at here
    rcases escape_cases char with same | plain
    · rw [same] at here
      exact .inl here
    · have written : escape char ≠ [] := by
        unfold escape
        repeat' split
        all_goals simp
      obtain ⟨letter, more, same⟩ := List.exists_cons_of_ne_nil written
      rw [same] at here plain
      cases here
      have := plain first (List.mem_cons_self ..)
      simp_all

theorem spares_flatMap_escape {value : Text} (spares : language.Spares value) :
    language.Spares (value.flatMap escape) := by
  induction value with
  | nil => exact spares
  | cons char rest ih =>
    have later := ih spares.tail
    rw [List.flatMap_cons]
    rcases escape_cases char with same | plain
    · rw [same]
      exact spares.cons_of_head later fun first here => head?_flatMap_escape here
    · refine .append (.of_forall fun other member => ?_) later fun last ends first _ => ?_
      · have := plain other member
        simp_all
      · have := plain last (List.mem_of_getLast? ends)
        exact .of_first (by simp_all) (by simp_all) first

private theorem head?_escapeBlock {value : Text} {first : Char}
    (here : (escapeBlock value).head? = some first) :
    value.head? = some first ∨ first ≠ '\x7b' ∧ first ≠ '\x7d' := by
  revert here
  fun_cases escapeBlock value with
  | case1 => rintro ⟨⟩
  | case2 => exact fun here => .inr (by cases here; decide)
  | case3 => exact fun here => .inl here

private theorem spares_escapeBlock {value : Text} (spares : language.Spares value) :
    language.Spares (escapeBlock value) := by
  fun_induction escapeBlock value with
  | case1 => exact spares
  | case2 more ih =>
    have quotes : language.Spares ['\\', '"', '"', '"'] :=
      .of_forall (Text.forall_of_all (by decide))
    refine quotes.append (ih spares.tail.tail.tail) fun last ends first _ => ?_
    cases ends
    exact .of_first (by decide) (by decide) first
  | case3 char more single ih =>
    exact spares.cons_of_head (ih spares.tail) fun first here => head?_escapeBlock here

private theorem spares_blockLine (indentation : Nat) {line : Text} (spares : language.Spares line) :
    language.Spares (blockLine indentation line) := by
  unfold blockLine
  split
  · exact .of_forall (Text.forall_of_all (by decide))
  · exact Text.spares_indentation indentation (spares_escapeBlock spares)

private theorem head?_blockLines (indentation : Nat) (lines : List Text) (back : Text) :
    (lines.flatMap (blockLine indentation) ++ '\n' :: back).head? = some '\n' := by
  cases lines with
  | nil => rfl
  | cons line rest =>
    rw [List.flatMap_cons, blockLine]
    split <;> rfl

private theorem spares_blockLines (indentation : Nat) {lines : List Text} {back : Text}
    (each : ∀ line ∈ lines, language.Spares line) (others : language.Spares ('\n' :: back)) :
    language.Spares (lines.flatMap (blockLine indentation) ++ '\n' :: back) := by
  induction lines with
  | nil => exact others
  | cons line rest ih =>
    obtain ⟨own, more⟩ := List.forall_mem_cons.mp each
    rw [List.flatMap_cons, List.append_assoc]
    refine (spares_blockLine indentation own).append (ih more) fun last _ first here => ?_
    rw [head?_blockLines] at here
    cases here
    exact .of_second (by decide) (by decide) last

/-- What stands between the triple quotes opens and closes nothing that the value does not. -/
theorem spares_blockBody (indentation : Nat) {value : Text} (spares : language.Spares value) :
    language.Spares (blockBody indentation value) := by
  unfold blockBody
  split
  · have last := Text.spares_indentation indentation (.nil : language.Spares [])
    rw [List.append_nil] at last
    exact spares_blockLines indentation (fun line => Text.spares_of_mem_lines spares) last
  · exact spares_escapeBlock spares

end GraphQL.StringValue

end RelayWorkbench
