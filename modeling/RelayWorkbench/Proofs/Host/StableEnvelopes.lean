import RelayWorkbench.Proofs.Host.Envelopes

/-! The envelope of a region as a whole: what is written into it can be read out of it again, and
what was written into it once is written the same way a second time. -/

namespace RelayWorkbench.Host.Envelope

open Text

theorem lines_indent (indentation : Nat) (text : Text) :
    lines (indent indentation text) = (lines text).map (spaces indentation ++ ·) := by
  obtain ⟨first, more, parts⟩ := lines_eq_cons text
  rw [indent_eq, lines_append (lineFeed_notMem_spaces indentation) (lines_indented parts), parts,
    List.map_cons]

/-- The text with `indentation` characters taken off the front of every line. -/
def outdent (indentation : Nat) (text : Text) : Text :=
  ofLines ((lines text).map (·.drop indentation))

theorem outdent_indent (indentation : Nat) (text : Text) :
    outdent indentation (indent indentation text) = text := by
  have back : (·.drop indentation) ∘ (spaces indentation ++ ·) = (id : Text → Text) := by
    funext line
    have width : (spaces indentation).length = indentation := List.length_replicate
    simp [width]
  rw [outdent, lines_indent, List.map_map, back, List.map_id, ofLines_lines]

/-- A text without white space at its ends that begins with a word character is put on lines of
its own, each behind the indentation of the region, and in front of all the white space at the
end of the region. Taking the indentation off gives the text back. The envelope of what was
written is the one of the region, and writing the text into it changes nothing. -/
theorem restore_laws {text : Text} (trimmed : trim text = text)
    (word : text.head?.any isWordChar) (former : Text) :
    (∃ body blank, restore text former = '\n' :: (body ++ blank) ∧ EndsInBlank former blank ∧
      lines body = (lines text).map (spaces (padding former) ++ ·) ∧
      outdent (padding former) body = text) ∧
    padding (restore text former) = padding former ∧
    restore text (restore text former) = restore text former := by
  obtain ⟨first, rest, rfl⟩ : ∃ first rest, text = first :: rest :=
    List.exists_cons_of_ne_nil (by rintro rfl; cases word)
  have word : isWordChar first := word
  have written := isBlank_of_isWordChar word
  have ends : ∃ front last, first :: rest = front ++ [last] ∧ isBlank last = false := by
    refine ⟨_, _, (List.dropLast_append_getLast (List.cons_ne_nil first rest)).symm, ?_⟩
    refine isBlank_getLast?_trimEnd (trimStart (first :: rest)) _ ?_
    rw [← trim, trimmed]
    exact List.getLast?_eq_some_getLast (List.cons_ne_nil first rest)
  refine ⟨⟨_, _, rfl, endsInBlank_trailingBlank former, lines_indent _ _, outdent_indent _ _⟩,
    ?_, (restore_restore_eq_iff former written ends).mpr (.inr word)⟩
  rw [padding_restore written, if_pos word]

/-- A query of three lines in a region that begins and ends with white space of several bytes: the
indentation is four bytes wide. -/
theorem restore_laws_wide :
    let text : Text := "query Q \x7b\n  a\n\x7d".toList
    let former : Text := "\u3000\n\u2003 query Q \x7b a \x7d\u00a0\n\t".toList
    trim text = text ∧ text.head?.any isWordChar ∧ padding former = 4 ∧
      padding (restore text former) = 4 ∧
      restore text (restore text former) = restore text former ∧
      restore text former = "\n    query Q \x7b\n      a\n    \x7d\u00a0\n\t".toList := by
  intro text former
  have trimmed : trim text = text := by decide
  have word : text.head?.any isWordChar := by decide
  have measured : padding former = 4 := by decide
  obtain ⟨-, same, stable⟩ := restore_laws trimmed word former
  exact ⟨trimmed, word, measured, same.trans measured, stable, by decide⟩

end RelayWorkbench.Host.Envelope
