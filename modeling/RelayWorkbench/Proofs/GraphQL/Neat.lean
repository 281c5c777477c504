import RelayWorkbench.GraphQL.Document.Printer
import RelayWorkbench.Proofs.GraphQL.Indentation
import RelayWorkbench.Proofs.GraphQL.SparedStrings
import RelayWorkbench.Proofs.GraphQL.Uncommented

/-! Printed texts that can be put next to each other. They have no carriage returns, put no
comment into a document and, where that matters, end in something else than white space. -/

namespace RelayWorkbench.GraphQL

open Lexeme (IsWord Uncommented)
open RelayWorkbench.Host (Language)

/-- A text that means the same wherever it stands between strings: it has no quotes, no backticks
and no carriage returns, begins no comment and says nothing of what stands behind it. -/
structure Filler (text : Text) : Prop where
  plain : ∀ char ∈ text, char ≠ '"' ∧ char ≠ '#' ∧ char ≠ '\r' ∧ char ≠ '\x60'
  apart : text.IsChain fun first second =>
    Language.isSettled first ∨ second ≠ '\x7b' ∧ second ≠ '\x7d'
  settled : ∀ last ∈ text.getLast?, Language.isSettled last

instance (text : Text) : Decidable (Filler text) :=
  decidable_of_iff
    ((text.all fun char => char != '"' && char != '#' && char != '\r' && char != '\x60') ∧
      (text.IsChain fun first second =>
        Language.isSettled first ∨ second ≠ '\x7b' ∧ second ≠ '\x7d') ∧
      text.getLast?.all Language.isSettled)
    ⟨fun ⟨plain, apart, settled⟩ =>
      ⟨by simpa [and_assoc] using plain, apart, by simpa [Option.all_eq_true] using settled⟩,
    fun ⟨plain, apart, settled⟩ =>
      ⟨by simpa [and_assoc] using plain, apart, by simpa [Option.all_eq_true] using settled⟩⟩

/-- A text composed of fillers and string literals, of which no two stand side by side. The
literals close where they end and spare the host language. -/
inductive Quiet (language : Language) : Text → Prop where
  | of_filler {text : Text} : Filler text → Quiet language text
  | quoted {raw : Text} : StringValue.splitQuoted? (raw ++ ['"']) = some (raw, []) →
      '\r' ∉ raw → language.Spares raw → Quiet language ('"' :: raw ++ ['"'])
  | block {raw : Text} : StringValue.splitBlock? (raw ++ StringValue.tripleQuote) = some (raw, []) →
      '\r' ∉ raw → language.Spares raw →
      Quiet language (StringValue.tripleQuote ++ raw ++ StringValue.tripleQuote)
  | filler_append {front back : Text} : Filler front → Quiet language back →
      Quiet language (front ++ back)
  | append {front back : Text} : Quiet language front → Quiet language back →
      back.head? ≠ some '"' → Quiet language (front ++ back)

/-- A quiet text that does not end in white space. -/
structure Neat (language : Language) (text : Text) : Prop where
  toQuiet : Quiet language text
  ends : ∃ front last, text = front ++ [last] ∧ Text.isBlank last = false

/-- A text that may stand right behind a neat one. -/
def Follows (language : Language) (text : Text) : Prop :=
  text = [] ∨ Neat language text ∧ text.head? ≠ some '"'

variable {language : Language} {front back text : Text}

theorem Filler.append (filler : Filler front) (others : Filler back) : Filler (front ++ back) where
  plain := List.forall_mem_append.mpr ⟨filler.plain, others.plain⟩
  apart := filler.apart.append others.apart fun last ends _ _ => .inl (filler.settled last ends)
  settled last ends := by
    rw [List.getLast?_append] at ends
    rcases Option.or_eq_some_iff.mp ends with behind | ⟨-, here⟩
    · exact others.settled last behind
    · exact filler.settled last here

theorem Filler.head?_ne (fills : Filler front) (written : front ≠ []) (back : Text) :
    (front ++ back).head? ≠ some '"' := by
  obtain ⟨first, more, rfl⟩ := List.exists_cons_of_ne_nil written
  exact fun starts => (fills.plain first (List.mem_cons_self ..)).1 (Option.some.inj starts)

theorem Filler.of_forall (fills : ∀ char ∈ text, Filler [char]) : Filler text := by
  induction text with
  | nil => decide
  | cons char rest ih =>
    obtain ⟨own, others⟩ := List.forall_mem_cons.mp fills
    exact own.append (ih others)

theorem Filler.harmless (fills : Filler text) : language.Harmless text where
  plain _ member := (fills.plain _ member).2.2.2 rfl
  apart := fills.apart.imp fun first second => by
    rintro (settled | ⟨opens, closes⟩)
    · exact .of_isSettled settled second
    · exact .of_second opens closes first
  settled := fills.settled

theorem filler_spaces (count : Nat) : Filler (Text.spaces count) := by
  refine .of_forall fun char member => ?_
  rw [List.eq_of_mem_replicate member]
  decide

theorem filler_newLine (level : Nat) : Filler (Layout.newLine level) :=
  .append (by decide : Filler ['\n']) (filler_spaces _)

theorem Filler.tail {char : Char} (fills : Filler (char :: text)) : Filler text where
  plain := (List.forall_mem_cons.mp fills.plain).2
  apart := fills.apart.tail
  settled last ends := fills.settled last (by
    cases text with
    | nil => cases ends
    | cons => exact ends)

theorem Filler.indented (fills : Filler text) (count : Nat) :
    Filler (Text.indented count [] text) := by
  induction text with
  | nil => exact fills
  | cons char rest ih =>
    have later := ih fills.tail
    by_cases lineFeed : char = '\n'
    · subst lineFeed
      exact (by decide : Filler ['\n']).append ((filler_spaces count).append later)
    · rw [Text.indented_cons lineFeed]
      exact {
        plain := List.forall_mem_cons.mpr ⟨fills.plain char (List.mem_cons_self ..), later.plain⟩
        apart := later.apart.cons fun next here => by
          rw [Text.head?_indented] at here
          exact fills.apart.rel_head? here
        settled := by
          cases moved : Text.indented count [] rest with
          | nil =>
            have none : rest = [] := by
              rw [← List.head?_eq_none_iff, ← Text.head?_indented count, moved]
              rfl
            exact none ▸ fills.settled
          | cons first more => exact fun last ends => later.settled last (by rwa [moved]) }

private theorem filler_of_inWord {char : Char} (word : Lexeme.inWord char) : Filler [char] where
  plain := by
    rw [List.forall_mem_singleton]
    refine ⟨?_, ?_, ?_, ?_⟩ <;> rintro rfl <;> revert word <;> decide
  apart := .singleton char
  settled := by
    rintro _ ⟨⟩
    simp only [Language.isSettled, Bool.and_eq_true, bne_iff_ne]
    refine ⟨⟨?_, ?_⟩, ?_⟩ <;> rintro rfl <;> revert word <;> decide

theorem Lexeme.IsWord.filler (word : IsWord text) : Filler text :=
  .of_forall fun char member => filler_of_inWord (word.2 char member)

theorem Lexeme.IsWord.filler_variable (word : IsWord text) : Filler ('$' :: text) where
  plain := List.forall_mem_cons.mpr ⟨by decide, word.filler.plain⟩
  apart := word.filler.apart.cons fun first here => by
    have inside := word.2 first (List.mem_of_head? here)
    refine .inr ⟨?_, ?_⟩ <;> rintro rfl <;> revert inside <;> decide
  settled last ends := by
    obtain ⟨first, rest, rfl⟩ := List.exists_cons_of_ne_nil word.1
    exact word.filler.settled last (by simpa using ends)

namespace Quiet

theorem noReturn (quiet : Quiet language text) : '\r' ∉ text := by
  induction quiet with
  | of_filler fills => exact fun member => (fills.plain _ member).2.2.1 rfl
  | quoted _ returns _ => simpa using returns
  | block _ returns _ => simpa [StringValue.tripleQuote] using returns
  | filler_append fills _ ih =>
    rw [List.mem_append, not_or]
    exact ⟨fun member => (fills.plain _ member).2.2.1 rfl, ih⟩
  | append _ _ _ ih others => simp [ih, others]

theorem uncommented (quiet : Quiet language text) : Uncommented text := by
  have plain : ∀ {text : Text}, Filler text → ∀ char ∈ text, char ≠ '"' ∧ char ≠ '#' :=
    fun fills char member => ⟨(fills.plain char member).1, (fills.plain char member).2.1⟩
  induction quiet with
  | of_filler fills => exact .of_plain (plain fills)
  | quoted closes _ _ => exact Lexeme.uncommented_quoted closes
  | block closes _ _ => exact Lexeme.uncommented_block closes
  | filler_append fills _ ih => exact .plain_append (plain fills) ih
  | append _ _ ends ih others => exact ih.append others ends

theorem harmless (quiet : Quiet language text) : language.Harmless text := by
  induction quiet with
  | of_filler fills => exact fills.harmless
  | quoted _ _ spares =>
    have quote : language.Harmless ['"'] := .of_forall (Text.forall_of_all (by decide))
    exact quote.enclose rfl spares
  | block _ _ spares =>
    have quotes : language.Harmless StringValue.tripleQuote :=
      .of_forall (Text.forall_of_all (by decide))
    exact quotes.enclose rfl spares
  | filler_append fills _ ih => exact fills.harmless.append ih
  | append _ _ _ ih others => exact ih.append others

theorem indented (quiet : Quiet language text) (count : Nat) :
    Quiet language (Text.indented count [] text) := by
  induction quiet with
  | of_filler fills => exact .of_filler (fills.indented count)
  | @quoted raw closes returns spares =>
    have still := StringValue.eq_of_splitQuoted? (StringValue.splitQuoted?_indented count [] closes)
    rw [List.cons_append, Text.indented_cons (by decide), still]
    exact .quoted closes returns spares
  | @block raw closes returns spares =>
    have moved := StringValue.splitBlock?_indented count (List.forall_mem_nil _) closes
    have marks : Text.indented count [] StringValue.tripleQuote = StringValue.tripleQuote := rfl
    rw [Text.indented_append_eq, marks] at moved
    rw [Text.indented_append_eq, Text.indented_append_eq, marks]
    exact .block moved (StringValue.return_notMem_indented returns count)
      (Text.spares_indented spares count)
  | filler_append fills _ ih =>
    rw [Text.indented_append_eq]
    exact .filler_append (fills.indented count) ih
  | append _ _ ends ih others =>
    rw [Text.indented_append_eq]
    exact .append ih others (by rwa [Text.head?_indented])

theorem nil : Quiet language [] := of_filler (by decide)

theorem append_filler (quiet : Quiet language front) (filler : Filler back) :
    Quiet language (front ++ back) := by
  refine quiet.append (of_filler filler) fun starts => ?_
  exact (filler.plain '"' (List.mem_of_head? starts)).1 rfl

theorem close (quiet : Quiet language front) {last : Char} (filler : Filler [last])
    (written : Text.isBlank last = false) : Neat language (front ++ [last]) :=
  ⟨quiet.append_filler filler, front, last, rfl, written⟩

theorem flatMap {items : List α} {write : α → Text}
    (quiet : ∀ item ∈ items, Quiet language (write item) ∧ (write item).head? ≠ some '"') :
    Quiet language (items.flatMap write) ∧ (items.flatMap write).head? ≠ some '"' := by
  induction items with
  | nil => exact ⟨nil, nofun⟩
  | cons item items ih =>
    obtain ⟨own, others⟩ := List.forall_mem_cons.mp quiet
    rw [List.flatMap_cons]
    refine ⟨own.1.append (ih others).1 (ih others).2, ?_⟩
    cases same : write item with
    | nil => exact (ih others).2
    | cons first more =>
      rw [same] at own
      exact own.2

theorem between {filler : Text} (fills : Filler filler) (written : filler ≠ [])
    (quiet : Quiet language front) (others : Quiet language back) :
    Quiet language (front ++ filler ++ back) := by
  rw [List.append_assoc]
  exact quiet.append (.filler_append fills others) (fills.head?_ne written back)

theorem joinWith {separator : Text} (fills : Filler separator) (written : separator ≠ [])
    {texts : List Text} (quiet : ∀ text ∈ texts, Quiet language text) :
    Quiet language (Text.joinWith separator texts) := by
  by_cases none : texts = []
  · exact none ▸ nil
  · exact Text.joinWith_induction (between fills written) quiet none

end Quiet

namespace Neat

theorem filler_append (filler : Filler front) (neat : Neat language back) :
    Neat language (front ++ back) := by
  obtain ⟨inner, last, rfl, written⟩ := neat.ends
  exact ⟨.filler_append filler neat.toQuiet, front ++ inner, last, (List.append_assoc ..).symm,
    written⟩

theorem append (quiet : Quiet language front) (neat : Neat language back)
    (ends : back.head? ≠ some '"') : Neat language (front ++ back) := by
  obtain ⟨inner, last, rfl, written⟩ := neat.ends
  exact ⟨quiet.append neat.toQuiet ends, front ++ inner, last, (List.append_assoc ..).symm,
    written⟩

theorem follow (neat : Neat language front) (follows : Follows language back) :
    Neat language (front ++ back) := by
  rcases follows with rfl | ⟨behind, ends⟩
  · rwa [List.append_nil]
  · exact append neat.toQuiet behind ends

theorem ne_nil (neat : Neat language text) : text ≠ [] := by
  obtain ⟨inner, last, rfl, -⟩ := neat.ends
  simp

theorem between {filler : Text} (fills : Filler filler) (written : filler ≠ [])
    (quiet : Quiet language front) (neat : Neat language back) :
    Neat language (front ++ filler ++ back) := by
  rw [List.append_assoc]
  exact append quiet (.filler_append fills neat) (fills.head?_ne written back)

theorem append_cons {char : Char} (fills : Filler [char]) (quiet : Quiet language front)
    (neat : Neat language back) : Neat language (front ++ char :: back) :=
  append quiet (.filler_append fills neat) (fills.head?_ne (by simp) back)

theorem joinWith {separator : Text} (fills : Filler separator) (written : separator ≠ [])
    {texts : List Text} (neat : ∀ text ∈ texts, Neat language text) (some : texts ≠ []) :
    Neat language (Text.joinWith separator texts) :=
  Text.joinWith_induction (fun own => between fills written own.toQuiet) neat some

theorem ofLines_concat {lines : List Text} (quiet : ∀ line ∈ lines, Quiet language line)
    {last : Text} (neat : Neat language last) : Neat language (Text.ofLines (lines ++ [last])) := by
  induction lines with
  | nil => exact neat
  | cons first rest ih =>
    obtain ⟨own, others⟩ := List.forall_mem_cons.mp quiet
    rw [List.cons_append, Text.ofLines_cons first (by simp)]
    exact append_cons (by decide) own (ih others)

theorem of_word (word : IsWord text) : Neat language text where
  toQuiet := .of_filler word.filler
  ends := ⟨text.dropLast, text.getLast word.1, (List.dropLast_append_getLast word.1).symm,
    Lexeme.isBlank_of_inWord (word.2 _ (List.getLast_mem word.1))⟩

theorem of_variable (word : IsWord text) : Neat language ('$' :: text) where
  toQuiet := .of_filler word.filler_variable
  ends := by
    obtain ⟨inner, last, rfl, written⟩ := (of_word word : Neat language text).ends
    exact ⟨'$' :: inner, last, rfl, written⟩

theorem quoted {value : Text} (spares : language.Spares value) :
    Neat language (StringValue.quoted value) where
  toQuiet := .quoted (StringValue.splitQuoted?_flatMap_escape value [])
    (StringValue.return_notMem_escape value) (StringValue.spares_flatMap_escape spares)
  ends := ⟨'"' :: value.flatMap StringValue.escape, '"', rfl, by decide⟩

theorem block (indentation : Nat) {value : Text} (fits : StringValue.fitsBlock value)
    (spares : language.Spares value) : Neat language (StringValue.block indentation value) where
  toQuiet := by
    have closes := StringValue.splitBlock?_blockBody indentation value []
    have plain : '\r' ∉ value := by
      simp only [StringValue.fitsBlock, Bool.and_eq_true, Bool.not_eq_true'] at fits
      simpa using fits.1.1.1
    rw [List.append_nil] at closes
    rw [StringValue.block_eq, ← List.append_assoc]
    exact .block closes (StringValue.return_notMem_blockBody indentation plain)
      (StringValue.spares_blockBody indentation spares)
  ends := ⟨StringValue.tripleQuote ++ StringValue.blockBody indentation value ++ ['"', '"'], '"',
    by simp [StringValue.block_eq, StringValue.tripleQuote], by decide⟩

end Neat

theorem Lexeme.IsWord.head?_ne (word : IsWord text) (back : Text) :
    (text ++ back).head? ≠ some '"' := by
  cases text with
  | nil => exact absurd rfl word.1
  | cons first rest =>
    rintro ⟨⟩
    exact absurd (word.2 '"' (List.mem_cons_self ..)) (by decide)

namespace Layout

theorem neat_enclose (layout : Layout) {opening closing : Char} {items : List Text}
    (opens : Filler [opening]) (closes : Filler [closing]) (written : Text.isBlank closing = false)
    (quiet : ∀ item ∈ items, Quiet language item) :
    Neat language (layout.enclose opening closing items) := by
  unfold enclose
  split
  · exact (Quiet.of_filler opens).close closes written
  · exact (Quiet.filler_append opens (.joinWith (by decide) (by decide) quiet)).close closes written
  · next _ level _ =>
    have each : ∀ item ∈ items, Quiet language (newLine (level + 1) ++ item ++ [',']) ∧
        (newLine (level + 1) ++ item ++ [',']).head? ≠ some '"' := fun item member =>
      ⟨(Quiet.filler_append (filler_newLine _) (quiet item member)).append_filler (by decide),
        nofun⟩
    exact ((Quiet.filler_append opens (Quiet.flatMap each).1).append_filler
      (filler_newLine level)).close closes written

theorem neat_braces (level : Nat) {lines : List Text}
    (quiet : ∀ line ∈ lines, Quiet language line) :
    Neat language (braces level lines) := by
  unfold braces
  split
  · exact (Quiet.of_filler (by decide : Filler ['{'])).close (by decide) (by decide)
  · have each : ∀ line ∈ lines, Quiet language (newLine (level + 1) ++ line) ∧
        (newLine (level + 1) ++ line).head? ≠ some '"' := fun line member =>
      ⟨.filler_append (filler_newLine _) (quiet line member), nofun⟩
    exact ((Quiet.filler_append (by decide : Filler ['{']) (Quiet.flatMap each).1).append_filler
      (filler_newLine level)).close (by decide) (by decide)

end Layout

end RelayWorkbench.GraphQL
