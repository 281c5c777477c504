import Mathlib
import RelayWorkbench.Text.Basic

/-! Texts as strings of bytes. A byte string is also a text with one character for each byte, so
what is said of all texts is said of all byte strings; in that form each ASCII character of a text
is itself, and the bytes of the others are no ASCII characters. -/

namespace RelayWorkbench.Text

/-- The UTF-8 bytes of a text. -/
def bytes (text : Text) : List UInt8 := text.flatMap String.utf8EncodeChar

/-- A byte string as a text with one character for each byte. -/
def ofBytes (bytes : List UInt8) : Text := bytes.map Char.ofUInt8

/-- The text with one character for each UTF-8 byte of a text. -/
def bytewise (text : Text) : Text := ofBytes text.bytes

/-- Characters beyond ASCII. -/
def IsHigh (text : Text) : Prop := ∀ char ∈ text, 128 ≤ char.toNat

theorem toNat_ofUInt8 (byte : UInt8) : (Char.ofUInt8 byte).toNat = byte.toNat := rfl

theorem ofUInt8_inj {byte other : UInt8} :
    Char.ofUInt8 byte = Char.ofUInt8 other ↔ byte = other := by
  refine ⟨fun same => UInt8.toNat_inj.mp ?_, fun same => same ▸ rfl⟩
  rw [← toNat_ofUInt8, same, toNat_ofUInt8]

@[simp] theorem bytewise_nil : bytewise [] = [] := rfl

theorem bytewise_append (front back : Text) :
    bytewise (front ++ back) = bytewise front ++ bytewise back := by
  simp [bytewise, bytes, ofBytes]

theorem length_bytes (text : Text) : text.bytes.length = text.width := by
  induction text with
  | nil => rfl
  | cons char rest ih =>
    have own := String.length_utf8EncodeChar char
    simp only [bytes] at ih
    simp [bytes, ih, own]

theorem bytes_append (front back : Text) : bytes (front ++ back) = bytes front ++ bytes back := by
  simp [bytes]

theorem bytewise_of_ascii {char : Char} (ascii : char.toNat < 128) : bytewise [char] = [char] := by
  have encoded : String.utf8EncodeChar char = [UInt8.ofNat char.toNat] :=
    if_pos (Nat.le_of_lt_succ ascii)
  have same : Char.ofUInt8 (UInt8.ofNat char.toNat) = char := by
    apply Char.toNat_inj.mp
    rw [toNat_ofUInt8, UInt8.toNat_ofNat']
    omega
  simp [bytewise, bytes, ofBytes, encoded, same]

theorem bytewise_cons {char : Char} (ascii : char.toNat < 128) (rest : Text) :
    bytewise (char :: rest) = char :: bytewise rest := by
  rw [← List.singleton_append, bytewise_append, bytewise_of_ascii ascii, List.singleton_append]

/-- A character is one byte, itself, or several bytes beyond ASCII. -/
theorem bytewise_singleton (char : Char) :
    bytewise [char] = [char] ∨ 128 ≤ char.toNat ∧ IsHigh (bytewise [char]) := by
  by_cases ascii : char.toNat < 128
  · exact .inl (bytewise_of_ascii ascii)
  · refine .inr ⟨by omega, fun high member => ?_⟩
    have beyond : ¬ char.val.toNat ≤ 127 := fun small => ascii (Nat.lt_succ_of_le small)
    obtain ⟨byte, among, rfl⟩ : ∃ byte ∈ String.utf8EncodeChar char, Char.ofUInt8 byte = high := by
      simpa [bytewise, bytes, ofBytes] using member
    rw [toNat_ofUInt8]
    simp only [String.utf8EncodeChar, if_neg beyond] at among
    split_ifs at among <;> simp only [List.mem_cons, List.not_mem_nil, or_false] at among <;>
      rcases among with rfl | rfl | rfl | rfl <;> rw [UInt8.toNat_ofNat'] <;> omega

theorem bytewise_singleton_ne_nil (char : Char) : bytewise [char] ≠ [] := by
  simp [bytewise, bytes, ofBytes]

/-- An ASCII character that is not in a text is not among its bytes. -/
theorem notMem_bytewise {char : Char} (ascii : char.toNat < 128) {text : Text}
    (absent : char ∉ text) : char ∉ bytewise text := by
  induction text with
  | nil => exact List.not_mem_nil
  | cons first rest ih =>
    rw [List.mem_cons, not_or] at absent
    rw [← List.singleton_append, bytewise_append, List.mem_append, not_or]
    refine ⟨fun member => ?_, ih absent.2⟩
    rcases bytewise_singleton first with same | ⟨-, high⟩
    · rw [same, List.mem_singleton] at member
      exact absent.1 member
    · have beyond := high char member
      omega

/-- A text whose bytes begin with an ASCII character begins with it. -/
theorem head?_of_bytewise {text : Text} {char : Char} (ascii : char.toNat < 128)
    (begins : (bytewise text).head? = some char) : text.head? = some char := by
  cases text with
  | nil => exact begins
  | cons first rest =>
    rw [← List.singleton_append, bytewise_append] at begins
    rcases bytewise_singleton first with same | ⟨-, high⟩
    · rwa [same] at begins
    · cases several : bytewise [first] with
      | nil => exact absurd several (bytewise_singleton_ne_nil first)
      | cons byte more =>
        rw [several] at begins high
        cases begins
        have beyond := (List.forall_mem_cons.mp high).1
        omega

end RelayWorkbench.Text
