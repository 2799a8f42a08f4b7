import XQuery.Proofs.Lexer.Tiling
import XQuery.Proofs.Text.Utf16
import XQuery.Report.Tokens

/-!
# Token listings lose nothing

A token is read code point by code point, so that its ends never fall between
the two halves of a surrogate pair, and the texts of all tokens put together
are the source (`tokenize_lossless`).
-/

namespace XQuery

namespace Lexer

variable {lexer : Lexer}

/-- The code points of the tokens and those still ahead are the code points that were ahead in the
beginning. -/
theorem Drains.flatMap_slice (hlexer : lexer.Progressive) {units : Array UInt16} {last : Nat}
    {m m' : lexer.Memory} {ts : List Token} (h : lexer.Drains m ts m') {c : Cursor}
    (hm : c.Moves (lexer.kind m) (lexer.cursor m))
    (hc : c.ahead = Cursor.slice units c.stop last) :
    (ts.flatMap fun t => Cursor.slice units t.start t.stop) ++ (lexer.cursor m').ahead
      = c.ahead := by
  induction h generalizing c with
  | done hnone =>
    rw [token?_eq_none.mp hnone] at hm
    simpa using hm.reads_zero.ahead
  | @more m m' t ts hsome _ ih =>
    obtain ⟨_, _, hstart, hstop⟩ := token?_eq_some hsome
    obtain ⟨n, hread, _, _⟩ := hm
    have hslice : Cursor.slice units t.start t.stop = c.ahead.take n := by
      rw [← hstart, ← hstop, hread.start, hread.stop, hc, Cursor.slice_width]
    have hrest := ih (hlexer.advance _) (by
      rw [hread.ahead, hread.stop, hc, Cursor.slice_add_width])
    rw [List.flatMap_cons, List.append_assoc, hrest, hslice, hread.ahead, List.take_append_drop]

theorem Exhaustive.flatMap_slice (hexhaustive : lexer.Exhaustive) (h : lexer.Progressive)
    (units : Array UInt16) (state : Nat) :
    ((lexer.tokens units 0 units.size state).flatMap fun t => Cursor.slice units t.start t.stop)
      = Utf16.decode units.toList := by
  have hdrains := drain_drains h (lexer.startOver lexer.fresh units 0 units.size state)
  have hahead : (Cursor.ofRegion units 0 units.size).ahead
      = Cursor.slice units (Cursor.ofRegion units 0 units.size).stop units.size := by
    simp [Cursor.ofRegion]
  have hslices := hdrains.flatMap_slice h (h.start lexer.fresh _ state) hahead
  rw [hdrains.ahead_eq_nil hexhaustive (hexhaustive.start _ _ _), List.append_nil,
    Cursor.ofRegion_ahead_all] at hslices
  exact hslices

end Lexer

/-- The tokens that are listed of a source. -/
def listedTokens (source : String) (documentation : Bool) : List Token :=
  (if documentation then Lexer.documented else Lexer.expression).tokens
    (Utf16.encode source).toArray 0 (Utf16.encode source).toArray.size 0

/-- The text that a token of a source covers. -/
def coveredText (source : String) (t : Token) : String :=
  Utf16.text ((Utf16.encode source).toArray.extract t.start t.stop).toList

theorem tokenize_eq (source : String) (documentation skipTrivia : Bool) :
    tokenize source documentation skipTrivia
      = ((listedTokens source documentation).filter fun t => !(skipTrivia && t.kind.isTrivia)).map
        fun t => ⟨t, coveredText source t⟩ := rfl

theorem tokenize_all (source : String) (documentation : Bool) :
    tokenize source documentation false
      = (listedTokens source documentation).map fun t => ⟨t, coveredText source t⟩ := by
  have hkeep : (listedTokens source documentation).filter (fun t => !(false && t.kind.isTrivia))
      = listedTokens source documentation := List.filter_eq_self.mpr fun _ _ => rfl
  rw [tokenize_eq, hkeep]

/-- The code points of the tokens are the characters of the source. -/
theorem flatMap_slice_listedTokens (source : String) (documentation : Bool) :
    ((listedTokens source documentation).flatMap fun t =>
        Cursor.slice (Utf16.encode source).toArray t.start t.stop)
      = source.toList.map Char.toNat := by
  have hsource : Utf16.decode (Utf16.encode source).toArray.toList
      = source.toList.map Char.toNat := Utf16.decode_encode source
  rw [← hsource]
  cases documentation with
  | true =>
    exact Lexer.documented_exhaustive.flatMap_slice Lexer.Tree.documented.progressive _ 0
  | false =>
    exact Lexer.expression_exhaustive.flatMap_slice Lexer.Tree.expression.progressive _ 0

/-- Every code point of a token is a character. -/
theorem toNat_toChar_of_mem_slice {source : String} {documentation : Bool} {t : Token}
    (ht : t ∈ listedTokens source documentation) {p : CodePoint}
    (hp : p ∈ Cursor.slice (Utf16.encode source).toArray t.start t.stop) :
    (Utf16.toChar p).toNat = p := by
  have hmem : p ∈ source.toList.map Char.toNat := by
    rw [← flatMap_slice_listedTokens source documentation]
    exact List.mem_flatMap.mpr ⟨t, ht, hp⟩
  obtain ⟨c, _, rfl⟩ := List.mem_map.mp hmem
  rw [Utf16.toChar_toNat]

/-- The texts of the tokens of a source put together are the source, the text of each token writes
exactly the units of its span, and leaving trivia out drops entries and changes none. -/
theorem tokenize_lossless (source : String) (documentation : Bool) :
    String.join ((tokenize source documentation false).map (·.text)) = source ∧
      (∀ e ∈ tokenize source documentation false, Utf16.encode e.text
        = ((Utf16.encode source).drop e.token.start).take (e.token.stop - e.token.start)) ∧
      tokenize source documentation true
        = (tokenize source documentation false).filter (!·.token.kind.isTrivia) := by
  refine ⟨?_, ?_, ?_⟩
  · have hchars := congrArg (List.map Utf16.toChar)
      (flatMap_slice_listedTokens source documentation)
    rw [Utf16.map_toChar_toNat, List.map_flatMap] at hchars
    rw [← String.toList_inj, String.toList_join, tokenize_all, List.map_map, List.flatMap_map,
      ← hchars]
    simp only [Function.comp_apply, coveredText, Utf16.text, String.toList_ofList, Cursor.slice]
  · intro e he
    rw [tokenize_all] at he
    obtain ⟨t, ht, rfl⟩ := List.mem_map.mp he
    rw [coveredText, Utf16.encode_text fun p hp => toNat_toChar_of_mem_slice ht hp,
      Cursor.toList_extract]
  · rw [tokenize_all, tokenize_eq, List.filter_map]
    simp only [Bool.true_and, Function.comp_def]

/-- A character of two units between quotes is one text and is not taken apart. -/
theorem tokenize_lossless_pair :
    (tokenize "\"𝄞\"" true false)[1]? = some ⟨⟨.stringLiteralContents, 1, 3, 1⟩, "𝄞"⟩ ∧
      Utf16.encode "𝄞" = ((Utf16.encode "\"𝄞\"").drop 1).take 2 := by
  have hentry : (tokenize "\"𝄞\"" true false)[1]?
      = some ⟨⟨.stringLiteralContents, 1, 3, 1⟩, "𝄞"⟩ := by decide +kernel
  obtain ⟨_, hunits, _⟩ := tokenize_lossless "\"𝄞\"" true
  exact ⟨hentry, hunits _ (List.mem_of_getElem? hentry)⟩

end XQuery
