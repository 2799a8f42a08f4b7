import XQuery.Proofs.Report.Losslessness
import XQuery.Proofs.Text.Quoted

/-!
# Token listings are unambiguous

A listing has one line for each token, since a quoted text never holds a line
feed, and cutting white space off the end of the listing takes away the last
line feed alone, since every line ends with a quote. The text of a token
stands between the quotes of its line, so that the source can be read off the
listing (`listedSource`) and no two sources are listed alike.
-/

namespace XQuery

namespace Text

/-- The lines of a text, which line feeds separate; the empty text has none. -/
def splitLines (s : String) : List String :=
  if s = "" then [] else (s.toList.splitOn '\n').map String.ofList

/-- The text without white space at its end. -/
def trimEnd (s : String) : String := String.ofList (s.toList.rdropWhile isBlank)

end Text

/-! ## Lines -/

theorem toList_lines (ls : List String) :
    (lines ls).toList = ['\n'].intercalate (ls.map String.toList) := by
  rw [lines, String.toList_intercalate]
  rfl

theorem lines_eq_empty {ls : List String} (hne : ∀ l ∈ ls, l ≠ "") : lines ls = "" ↔ ls = [] := by
  constructor
  · intro h
    rw [← String.toList_inj, toList_lines] at h
    match ls, hne, h with
    | [], _, _ => rfl
    | [l], hne, h =>
      have hl : l = "" := by simpa using h
      exact absurd hl (hne l List.mem_cons_self)
    | l :: l' :: ls, _, h => simp at h
  · rintro rfl
    rfl

/-- Lines that hold no line feed are found again in the text that they make. -/
theorem splitLines_lines {ls : List String} (hne : ∀ l ∈ ls, l ≠ "")
    (hfeed : ∀ l ∈ ls, '\n' ∉ l.toList) : Text.splitLines (lines ls) = ls := by
  rw [Text.splitLines]
  split
  · next hempty => exact ((lines_eq_empty hne).mp hempty).symm
  · next hempty =>
    have hnil : ls ≠ [] := fun h => hempty ((lines_eq_empty hne).mpr h)
    have hfeed : ∀ cs ∈ ls.map String.toList, '\n' ∉ cs := by simpa using hfeed
    rw [toList_lines, List.splitOn_intercalate _ hfeed (by simpa using hnil), List.map_map,
      String.ofList_comp_toList, List.map_id]

theorem toList_lines_concat {ls : List String} (h : ls ≠ []) :
    (lines ls).toList ++ ['\n'] = (String.join (ls.map (· ++ "\n"))).toList := by
  rw [toList_lines, String.toList_join]
  induction ls with
  | nil => exact absurd rfl h
  | cons l ls ih =>
    cases ls with
    | nil => simp
    | cons l' ls =>
      have ih := ih (List.cons_ne_nil l' ls)
      simp only [List.map_cons, List.flatMap_cons] at ih ⊢
      rw [List.intercalate_cons_cons, List.append_assoc, List.append_assoc, ih]
      simp

theorem exists_lines_concat (before : List String) (last : String) :
    ∃ start, lines (before ++ [last]) = start ++ last := by
  by_cases h : before = []
  · exact ⟨"", by simp [h, lines]⟩
  · exact ⟨_, String.intercalate_append_of_ne_nil h (List.cons_ne_nil last [])⟩

/-- Behind lines that end with a quote only the last line feed is cut off. -/
theorem trimEnd_join {ls : List String} (hquote : ∀ l ∈ ls, ∃ cs, l.toList = cs ++ ['"']) :
    Text.trimEnd (String.join (ls.map (· ++ "\n"))) = lines ls := by
  rcases List.eq_nil_or_concat ls with rfl | ⟨before, last, rfl⟩
  · rfl
  · rw [List.concat_eq_append] at hquote ⊢
    obtain ⟨cs, hlast⟩ := hquote last (by simp)
    obtain ⟨start, hstart⟩ := exists_lines_concat before last
    have hend : (lines (before ++ [last])).toList = (start.toList ++ cs) ++ ['"'] := by
      rw [hstart, String.toList_append, hlast, List.append_assoc]
    have hfeed : Text.isBlank '\n' = true := rfl
    have hvisible : ¬Text.isBlank '"' = true := by decide
    rw [Text.trimEnd, ← toList_lines_concat (by simp), List.rdropWhile_concat_pos _ _ _ hfeed, hend,
      List.rdropWhile_concat_neg _ _ _ hvisible, ← hend, String.ofList_toList]

/-! ## The line of a token -/

/-- The characters in front of the text of a token: those of numbers and kinds, dots and spaces. -/
def isHeadChar (c : Char) : Bool := c.isAlphanum || c == '_' || c == '.' || c == ' '

theorem Kind.isHeadChar_label (k : Kind) : ∀ c ∈ k.label.toList, isHeadChar c = true := by
  rw [← List.all_eq_true]
  cases k with
  | keyword k =>
    have hwords :
        (reservedWords.all fun w => w.toList.all fun c => isHeadChar c.toUpper) = true := by
      decide +kernel
    have hword := List.all_eq_true.mp hwords k.word k.reserved
    have hmark : "K_".toList.all isHeadChar = true := rfl
    rw [label, Keyword.upper, String.toUpper, String.toList_append, String.toList_map,
      List.all_append, List.all_map, hmark, Bool.true_and]
    exact hword
  | _ => decide +kernel

theorem isHeadChar_toString (n : Nat) : ∀ c ∈ (toString n).toList, isHeadChar c = true := by
  intro c hc
  rw [Nat.toString_eq_ofList_toDigits, String.toList_ofList] at hc
  have hdigit := Nat.isDigit_of_mem_toDigits (by decide) (by decide) hc
  simp [isHeadChar, Char.isAlphanum, hdigit]

namespace TokenEntry

/-- What a line shows in front of the text: the span and the kind of the token. -/
def head (e : TokenEntry) : String :=
  toString e.token.start ++ ".." ++ toString e.token.stop ++ " " ++ e.token.kind.label ++ " "

theorem line_eq (e : TokenEntry) : e.line false = e.head ++ Text.quote e.text := rfl

theorem isHeadChar_head (e : TokenEntry) : ∀ c ∈ e.head.toList, isHeadChar c = true := by
  have hdots : ∀ c ∈ "..".toList, isHeadChar c = true := List.all_eq_true.mp rfl
  have hspace : ∀ c ∈ " ".toList, isHeadChar c = true := List.all_eq_true.mp rfl
  simp only [head, String.toList_append, List.forall_mem_append]
  exact ⟨⟨⟨⟨⟨isHeadChar_toString _, hdots⟩, isHeadChar_toString _⟩, hspace⟩,
    e.token.kind.isHeadChar_label⟩, hspace⟩

theorem newline_not_mem_line (e : TokenEntry) : '\n' ∉ (e.line false).toList := by
  rw [line_eq, String.toList_append, List.mem_append]
  rintro (hhead | hquote)
  · have hchar := e.isHeadChar_head _ hhead
    revert hchar
    decide
  · exact Text.newline_not_mem_quote e.text hquote

theorem exists_line_quote (e : TokenEntry) : ∃ cs, (e.line false).toList = cs ++ ['"'] := by
  refine ⟨e.head.toList ++ '"' :: e.text.toList.flatMap Text.escapeChar, ?_⟩
  rw [line_eq, String.toList_append, Text.toList_quote, List.append_assoc, List.cons_append]

theorem line_ne_empty (e : TokenEntry) : e.line false ≠ "" := by
  obtain ⟨cs, hcs⟩ := e.exists_line_quote
  rw [← String.toList_inj.ne, hcs]
  simp

end TokenEntry

/-! ## Reading a listing -/

/-- The text that a line shows: what is quoted behind its first quote. -/
def listedText (line : String) : List Char :=
  Text.readText (line.toList.dropWhile (· != '"')).tail

/-- The source whose tokens a listing shows. -/
def listedSource (listing : String) : String :=
  String.ofList ((Text.splitLines listing).flatMap listedText)

theorem listedText_line (e : TokenEntry) : listedText (e.line false) = e.text.toList := by
  have hhead : ∀ c ∈ e.head.toList, (c != '"') = true := by
    intro c hc
    have hchar := e.isHeadChar_head c hc
    rw [bne_iff_ne]
    rintro rfl
    revert hchar
    decide
  rw [listedText, TokenEntry.line_eq, String.toList_append, Text.toList_quote,
    List.dropWhile_append_of_pos hhead, List.dropWhile_cons_of_neg (by decide), List.tail_cons,
    Text.readText_escaped]

theorem splitLines_tokenListing (entries : List TokenEntry) :
    Text.splitLines (tokenListing false entries) = entries.map (·.line false) :=
  splitLines_lines (List.forall_mem_map.mpr fun e _ => e.line_ne_empty)
    (List.forall_mem_map.mpr fun e _ => e.newline_not_mem_line)

theorem tokenListing_eq_empty (entries : List TokenEntry) :
    tokenListing false entries = "" ↔ entries = [] := by
  rw [tokenListing, lines_eq_empty (List.forall_mem_map.mpr fun e _ => e.line_ne_empty),
    List.map_eq_nil_iff]

theorem tokenListing_eq_trimEnd (entries : List TokenEntry) :
    tokenListing false entries
      = Text.trimEnd (String.join (entries.map fun e => e.line false ++ "\n")) := by
  have hquote : ∀ l ∈ entries.map (·.line false), ∃ cs, l.toList = cs ++ ['"'] := by
    intro l hl
    obtain ⟨e, _, rfl⟩ := List.mem_map.mp hl
    exact e.exists_line_quote
  rw [tokenListing, ← trimEnd_join hquote, List.map_map]
  rfl

/-- A listing shows the texts of its tokens one after the other. -/
theorem listedSource_tokenListing (entries : List TokenEntry) :
    listedSource (tokenListing false entries)
      = String.ofList (entries.flatMap (·.text.toList)) := by
  rw [listedSource, splitLines_tokenListing, List.flatMap_map]
  exact congrArg String.ofList (List.flatMap_congr fun e _ => listedText_line e)

/-- The characters of the tokens are those of the source. -/
theorem flatMap_text_tokenize (source : String) (documentation : Bool) :
    (tokenize source documentation false).flatMap (·.text.toList) = source.toList := by
  have hchars := congrArg (List.map Utf16.toChar)
    (flatMap_slice_listedTokens source documentation)
  rw [Utf16.map_toChar_toNat, List.map_flatMap] at hchars
  rw [tokenize_all, List.flatMap_map, ← hchars]
  refine List.flatMap_congr fun t _ => ?_
  rw [coveredText, Utf16.text, String.toList_ofList, Cursor.slice]

theorem listedSource_tokenize (source : String) (documentation : Bool) :
    listedSource (tokenListing false (tokenize source documentation false)) = source := by
  rw [listedSource_tokenListing, flatMap_text_tokenize, String.ofList_toList]

/-- With or without documentation tokens: the listing of a source is what is left of its lines when
white space is cut off at the end, it has one line for each token and is empty if and only if there
is none, and the source, with it the tokens, can be read off it, so that no two sources are listed
alike. -/
theorem tokenListing_unambiguous (documentation : Bool) :
    (∀ source,
      tokenListing false (tokenize source documentation false)
          = Text.trimEnd (String.join
              ((tokenize source documentation false).map fun e => e.line false ++ "\n")) ∧
        Text.splitLines (tokenListing false (tokenize source documentation false))
          = (tokenize source documentation false).map (·.line false) ∧
        (tokenListing false (tokenize source documentation false) = ""
          ↔ tokenize source documentation false = []) ∧
        listedSource (tokenListing false (tokenize source documentation false)) = source) ∧
      Function.Injective fun source => tokenListing false (tokenize source documentation false) := by
  refine ⟨fun source => ⟨?_, ?_, ?_, ?_⟩, ?_⟩
  · exact tokenListing_eq_trimEnd _
  · exact splitLines_tokenListing _
  · exact tokenListing_eq_empty _
  · exact listedSource_tokenize source documentation
  · intro source source' h
    have hread := congrArg listedSource h
    simpa only [listedSource_tokenize] using hread

end XQuery
