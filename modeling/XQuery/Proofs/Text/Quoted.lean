import Mathlib.Data.List.DropRight
import Mathlib.Tactic.IntervalCases
import XQuery.Number.Digits
import XQuery.Proofs.Text.Split
import XQuery.Text.Blank
import XQuery.Text.Quoted

/-!
# Reading quoted text

A text between double quotes can be read back. Each character is written as
itself or as an escape that names it, the beginning of what is written tells
which (`readChar?_escapeChar`), and no character is written with a quote or a
line feed that could be taken for the end of the text or of its line.
-/

namespace XQuery

namespace Digits

theorem hexDigit_digitChar {d : Nat} (h : d < 16) : hexDigit d.digitChar = d := by
  interval_cases d <;> rfl

theorem hexValue_append (cs : List Char) (c : Char) :
    hexValue (cs ++ [c]) = hexValue cs * 16 + hexDigit c := by
  simp [hexValue]

/-- The hexadecimal digits of a number write this number. -/
theorem hexValue_toDigits (n : Nat) : hexValue (Nat.toDigits 16 n) = n := by
  induction n using Nat.strongRecOn with
  | ind n ih =>
    by_cases hn : n < 16
    · rw [Nat.toDigits_of_lt_base hn]
      simp [hexValue, hexDigit_digitChar hn]
    · rw [Nat.toDigits_of_base_le (by decide) (by omega), hexValue_append, ih _ (by omega),
        hexDigit_digitChar (by omega)]
      omega

theorem isAlphanum_digitChar {d : Nat} (h : d < 16) : d.digitChar.isAlphanum = true := by
  interval_cases d <;> rfl

theorem isAlphanum_toDigits (n : Nat) : ∀ c ∈ Nat.toDigits 16 n, c.isAlphanum = true := by
  induction n using Nat.strongRecOn with
  | ind n ih =>
    intro c hc
    by_cases hn : n < 16
    · rw [Nat.toDigits_of_lt_base hn, List.mem_singleton] at hc
      rw [hc]
      exact isAlphanum_digitChar hn
    · rw [Nat.toDigits_of_base_le (by decide) (by omega), List.mem_append,
        List.mem_singleton] at hc
      rcases hc with hc | rfl
      · exact ih _ (by omega) c hc
      · exact isAlphanum_digitChar (by omega)

end Digits

namespace Text

/-! ## One character -/

/-- The character that a backslash and one letter write. -/
def shortEscape? : Char → Option Char
  | '0' => some '\x00'
  | 't' => some '\t'
  | 'n' => some '\n'
  | 'r' => some '\r'
  | '"' => some '"'
  | '\\' => some '\\'
  | _ => none

/-- The first character of a text that goes on up to a double quote, with what is written behind
it. -/
def readChar? : List Char → Option (Char × List Char)
  | [] => none
  | '"' :: _ => none
  | '\\' :: 'u' :: '\x7b' :: cs =>
      (splitAtFirst? (· == '\x7d') cs).map fun (digits, rest) =>
        (Char.ofNat (Digits.hexValue digits), rest)
  | '\\' :: c :: cs => (shortEscape? c).map fun d => (d, cs)
  | c :: cs => some (c, cs)

/-- A character that needs no escape is written as it is or by its number. -/
theorem escapeChar_cases (c : Char) :
    (∃ l, escapeChar c = ['\\', l] ∧ shortEscape? l = some c) ∨
      (c ≠ '"' ∧ c ≠ '\\' ∧ c ≠ '\n' ∧
        (escapeChar c = [c] ∨
          escapeChar c = '\\' :: 'u' :: '\x7b' :: (hexDigits c.toNat ++ ['\x7d']))) := by
  unfold escapeChar
  split
  · exact .inl ⟨'0', rfl, rfl⟩
  · exact .inl ⟨'t', rfl, rfl⟩
  · exact .inl ⟨'n', rfl, rfl⟩
  · exact .inl ⟨'r', rfl, rfl⟩
  · exact .inl ⟨'"', rfl, rfl⟩
  · exact .inl ⟨'\\', rfl, rfl⟩
  · next c _ _ hfeed _ hquote hslash =>
    refine .inr ⟨hquote, hslash, hfeed, ?_⟩
    split
    · exact .inl rfl
    · exact .inr rfl

/-- What is written for a character is read as this character, whatever follows. -/
theorem readChar?_escapeChar (c : Char) (rest : List Char) :
    readChar? (escapeChar c ++ rest) = some (c, rest) := by
  rcases escapeChar_cases c with ⟨l, hescape, hshort⟩ | ⟨hquote, hslash, _, hescape | hescape⟩
  · rw [hescape, List.cons_append, List.cons_append, List.nil_append]
    -- no short escape is written with the letter that announces a number
    have hl : l ≠ 'u' := by
      rintro rfl
      cases hshort
    simp [readChar?, hl, hshort]
  · simp [hescape, readChar?, hslash]
  · have hbrace : '\x7d' ∉ hexDigits c.toNat := by
      intro hmem
      have hdigit := Digits.isAlphanum_toDigits c.toNat _ hmem
      revert hdigit
      decide
    have hsplit : splitAtFirst? (· == '\x7d') (hexDigits c.toNat ++ '\x7d' :: rest)
        = some (hexDigits c.toNat, rest) := splitAtFirst?_beq_eq_some.mpr ⟨hbrace, rfl⟩
    have hvalue : Digits.hexValue (hexDigits c.toNat) = c.toNat :=
      Digits.hexValue_toDigits c.toNat
    simp only [hescape, List.cons_append, List.append_assoc, List.nil_append, readChar?, hsplit,
      Option.map_some, hvalue, Char.ofNat_toNat]

theorem newline_not_mem_escapeChar (c : Char) : '\n' ∉ escapeChar c := by
  rcases escapeChar_cases c with ⟨l, hescape, hshort⟩ | ⟨_, _, hfeed, hescape | hescape⟩
  · rw [hescape]
    intro hmem
    have hl : '\n' = l := by simpa using hmem
    rw [← hl] at hshort
    cases hshort
  · simpa [hescape] using Ne.symm hfeed
  · rw [hescape]
    intro hmem
    have hdigits : '\n' ∈ hexDigits c.toNat := by simpa using hmem
    have hdigit := Digits.isAlphanum_toDigits c.toNat _ hdigits
    revert hdigit
    decide

/-! ## Whole texts -/

theorem length_readChar? {cs rest : List Char} {c : Char} (h : readChar? cs = some (c, rest)) :
    rest.length < cs.length := by
  unfold readChar? at h
  split at h
  · cases h
  · cases h
  · next cs =>
    obtain ⟨⟨digits, tail⟩, hsplit, heq⟩ := Option.map_eq_some_iff.mp h
    obtain ⟨_, rfl⟩ := splitAtFirst?_beq_eq_some.mp hsplit
    cases heq
    simp only [List.length_cons, List.length_append]
    omega
  · obtain ⟨d, _, heq⟩ := Option.map_eq_some_iff.mp h
    cases heq
    simp only [List.length_cons]
    omega
  · cases h
    exact Nat.lt_succ_self _

/-- The text that is written up to the next double quote. -/
def readText (cs : List Char) : List Char :=
  match _h : readChar? cs with
  | none => []
  | some (c, rest) => c :: readText rest
termination_by cs.length
decreasing_by exact length_readChar? _h

theorem readText_of_none {cs : List Char} (h : readChar? cs = none) : readText cs = [] := by
  rw [readText]
  split
  · rfl
  · next hsome =>
    rw [h] at hsome
    cases hsome

theorem readText_of_some {cs rest : List Char} {c : Char} (h : readChar? cs = some (c, rest)) :
    readText cs = c :: readText rest := by
  rw [readText]
  split
  · next hnone =>
    rw [h] at hnone
    cases hnone
  · next hsome =>
    rw [h] at hsome
    cases hsome
    rfl

/-- The characters of a quoted text are read back behind the first quote. -/
theorem readText_escaped (cs rest : List Char) :
    readText (cs.flatMap escapeChar ++ '"' :: rest) = cs := by
  induction cs with
  | nil => exact readText_of_none rfl
  | cons c cs ih =>
    rw [List.flatMap_cons, List.append_assoc, readText_of_some (readChar?_escapeChar c _), ih]

theorem toList_quote (s : String) :
    (quote s).toList = '"' :: (s.toList.flatMap escapeChar ++ ['"']) := by
  rw [quote, String.toList_ofList]

theorem newline_not_mem_quote (s : String) : '\n' ∉ (quote s).toList := by
  rw [toList_quote]
  intro hmem
  have hmem : '\n' ∈ s.toList.flatMap escapeChar := by simpa using hmem
  obtain ⟨c, _, hc⟩ := List.mem_flatMap.mp hmem
  exact newline_not_mem_escapeChar c hc

end Text

end XQuery
