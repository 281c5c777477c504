import Mathlib
import RelayWorkbench.Host.TemplateLiteral

/-! The steps of the search for the end of a template literal. Over one or two characters it comes
from one stack of open constructs to the next. -/

namespace RelayWorkbench.Host.TemplateLiteral

/-- The innermost open construct is a template. -/
def InTemplate (frames : List Frame) : Prop := frames = [] ∨ ∃ outer, frames = .template :: outer

theorem inTemplate_of {frames : List Frame}
    (unquoted : ∀ quote outer, frames = .quoted quote :: outer → False)
    (unbraced : ∀ outer, frames = .braces :: outer → False) : InTemplate frames := by
  match frames with
  | [] => exact .inl rfl
  | .template :: outer => exact .inr ⟨outer, rfl⟩
  | .quoted quote :: outer => exact (unquoted quote outer rfl).elim
  | .braces :: outer => exact (unbraced outer rfl).elim

section Characters

variable {frames outer : List Frame} {quote char : Char} {rest : Text}

@[simp] theorem closing?_nil (frames : List Frame) : closing? frames [] = none := by
  unfold closing?
  rfl

/-- In a string literal the search goes on behind an escape, the closing quote or a plain
character, and no line ends. -/
theorem closing?_quoted : closing? (.quoted quote :: outer) (char :: rest) =
    if char = '\\' then (closing? (.quoted quote :: outer) rest.tail).map (· + 2)
    else if char = quote then (closing? outer rest).map (· + 1)
    else if char = '\n' then none
    else (closing? (.quoted quote :: outer) rest).map (· + 1) := by
  cases rest <;> simp [closing?]

/-- In a substitution every character is passed over, whatever it opens or closes. -/
theorem closing?_braces : closing? (.braces :: outer) (char :: rest) =
    (closing?
      (if char = '{' then .braces :: .braces :: outer
      else if char = '}' then outer
      else if char = '\x60' then .template :: .braces :: outer
      else if char = '\x27' || char = '"' then .quoted char :: .braces :: outer
      else .braces :: outer) rest).map (· + 1) := by
  rw [closing?]

/-- In a template the search goes on behind an escape, a closing backtick, the opening of a
substitution or a plain character. -/
theorem closing?_inTemplate (inside : InTemplate frames) : closing? frames (char :: rest) =
    if char = '\\' then (closing? frames rest.tail).map (· + 2)
    else if char = '\x60' then
      match frames with
      | [] => some 0
      | _ :: outer => (closing? outer rest).map (· + 1)
    else if char = '$' && rest.head? = some '{' then
      (closing? (.braces :: frames) rest.tail).map (· + 2)
    else (closing? frames rest).map (· + 1) := by
  rcases rest with _ | ⟨next, more⟩
  · rcases inside with rfl | ⟨outer, rfl⟩ <;> simp [closing?]
  · by_cases opens : next = '{'
    · subst opens
      rcases inside with rfl | ⟨outer, rfl⟩ <;> simp [closing?]
    · rcases inside with rfl | ⟨outer, rfl⟩ <;> simp [closing?, opens]

end Characters

theorem closing?_backtick (rest : Text) : closing? [] ('\x60' :: rest) = some 0 := by
  rw [closing?_inTemplate (.inl rfl), if_neg (by decide), if_pos rfl]

def IsQuote (char : Char) : Prop := char = '\x27' ∨ char = '"'

theorem IsQuote.ne_backslash {quote : Char} (mark : IsQuote quote) : quote ≠ '\\' := by
  rcases mark with rfl | rfl <;> decide

theorem IsQuote.ascii {quote : Char} (mark : IsQuote quote) : quote.toNat < 128 := by
  rcases mark with rfl | rfl <;> decide

/-- Over `passed` the search comes from the constructs `frames` to the constructs `inner`. -/
def Leads (frames : List Frame) (passed : Text) (inner : List Frame) (rest : Text) : Prop :=
  closing? frames (passed ++ rest) = (closing? inner rest).map (· + passed.length)

namespace Leads

variable {frames inner outer : List Frame} {char quote : Char} {passed more rest : Text}

theorem nil : Leads frames [] frames rest := by simp [Leads]

theorem append {last : List Frame} (first : Leads frames passed inner (more ++ rest))
    (second : Leads inner more last rest) : Leads frames (passed ++ more) last rest := by
  simp only [Leads] at first second ⊢
  simp [first, second, Function.comp_def, Nat.add_assoc, Nat.add_comm more.length]

theorem cons {last : List Frame} (first : Leads frames [char] inner (more ++ rest))
    (second : Leads inner more last rest) : Leads frames (char :: more) last rest :=
  first.append second

/-! ### In a template -/

theorem escape (inside : InTemplate frames) : Leads frames ['\\', char] frames rest := by
  simp [Leads, closing?_inTemplate inside]

theorem substitution (inside : InTemplate frames) :
    Leads frames ['$', '{'] (.braces :: frames) rest := by
  simp [Leads, closing?_inTemplate inside]

theorem plain (inside : InTemplate frames) (escapes : char ≠ '\\') (closes : char ≠ '\x60')
    (single : char = '$' → rest.head? ≠ some '{') : Leads frames [char] frames rest := by
  simpa [Leads, closing?_inTemplate inside, escapes, closes] using
    fun dollar opens => absurd opens (single dollar)

theorem close : Leads (.template :: outer) ['\x60'] outer rest := by
  simp [Leads, closing?_inTemplate (.inr ⟨outer, rfl⟩)]

/-! ### In a substitution -/

theorem inSubstitution : Leads (.braces :: outer) [char]
    (if char = '{' then .braces :: .braces :: outer
      else if char = '}' then outer
      else if char = '\x60' then .template :: .braces :: outer
      else if char = '\x27' || char = '"' then .quoted char :: .braces :: outer
      else .braces :: outer) rest :=
  closing?_braces

theorem openBrace : Leads (.braces :: outer) ['{'] (.braces :: .braces :: outer) rest :=
  inSubstitution

theorem closeBrace : Leads (.braces :: outer) ['}'] outer rest := inSubstitution

theorem openTemplate :
    Leads (.braces :: outer) ['\x60'] (.template :: .braces :: outer) rest := inSubstitution

theorem openQuote (mark : IsQuote quote) :
    Leads (.braces :: outer) [quote] (.quoted quote :: .braces :: outer) rest := by
  rcases mark with rfl | rfl <;> exact inSubstitution

theorem inBraces (opens : char ≠ '{') (closes : char ≠ '}') (template : char ≠ '\x60')
    (unquoted : ¬ IsQuote char) : Leads (.braces :: outer) [char] (.braces :: outer) rest := by
  simp only [IsQuote, not_or] at unquoted
  have step : Leads (.braces :: outer) [char] _ rest := inSubstitution
  simpa [opens, closes, template, unquoted] using step

/-! ### In a string literal -/

theorem escapeQuoted :
    Leads (.quoted quote :: outer) ['\\', char] (.quoted quote :: outer) rest := by
  simp [Leads, closing?_quoted]

theorem inQuotes (escapes : char ≠ '\\') (closes : char ≠ quote) (ends : char ≠ '\n') :
    Leads (.quoted quote :: outer) [char] (.quoted quote :: outer) rest := by
  simp [Leads, closing?_quoted, escapes, closes, ends]

theorem closeQuote (escapes : quote ≠ '\\') :
    Leads (.quoted quote :: outer) [quote] outer rest := by
  simp [Leads, closing?_quoted, escapes]

end Leads

end RelayWorkbench.Host.TemplateLiteral
