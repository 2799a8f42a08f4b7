import XQuery.Proofs.Lexer.Nesting
import XQuery.Proofs.Lexer.Segments
import XQuery.Proofs.Lexer.Texts

/-!
# The end of a comment

Where a comment ends is a matter of its delimiters alone. A text is cut from
left to right into marks, which are delimiters or single code points, and the
comment that has been opened in front of the text is closed by the first
closing delimiter that no opening one inside the text accounts for. The
expression lexer ends the comment exactly there, whatever the delimiters
overlap with (`Lexer.tokens_comment`).
-/

namespace XQuery

open Utf16 (width)

/-! ## Marks -/

/-- A delimiter of comments, or a code point that belongs to none. -/
inductive Mark where
  | opening
  | closing
  | point (c : CodePoint)
deriving DecidableEq

namespace Mark

/-- The marks of a text from left to right; no two of them overlap. -/
def ofText : List CodePoint → List Mark
  | [] => []
  | [c] => [point c]
  | c :: d :: cs =>
      if c == '('.toNat && d == ':'.toNat then opening :: ofText cs
      else if c == ':'.toNat && d == ')'.toNat then closing :: ofText cs
      else point c :: ofText (d :: cs)

/-- The offset of the closing delimiter that is reached at depth zero, if there is one: an opening
delimiter adds one to the depth, and any other closing one takes one off. -/
def endOffset? : Nat → Nat → List Mark → Option Nat
  | _, _, [] => none
  | offset, depth, opening :: ms => endOffset? (offset + 2) (depth + 1) ms
  | offset, 0, closing :: _ => some offset
  | offset, depth + 1, closing :: ms => endOffset? (offset + 2) depth ms
  | offset, depth, point c :: ms => endOffset? (offset + c.width) depth ms

variable {c d : CodePoint}

theorem ofText_open (h : (c == '('.toNat && d == ':'.toNat) = true) (cs : List CodePoint) :
    ofText (c :: d :: cs) = opening :: ofText cs := by
  rw [ofText, if_pos h]

theorem ofText_close (h : (c == ':'.toNat && d == ')'.toNat) = true) (cs : List CodePoint) :
    ofText (c :: d :: cs) = closing :: ofText cs := by
  rw [ofText, if_neg (Bool.eq_false_iff.mp (Expression.not_open_of_close h)), if_pos h]

theorem ofText_other (hopen : (c == '('.toNat && d == ':'.toNat) = false)
    (hclose : (c == ':'.toNat && d == ')'.toNat) = false) (cs : List CodePoint) :
    ofText (c :: d :: cs) = point c :: ofText (d :: cs) := by
  rw [ofText, if_neg (Bool.eq_false_iff.mp hopen), if_neg (Bool.eq_false_iff.mp hclose)]

/-- A code point that starts no delimiter is a mark of its own. -/
theorem ofText_point (hopen : c ≠ '('.toNat) (hclose : c ≠ ':'.toNat) (cs : List CodePoint) :
    ofText (c :: cs) = point c :: ofText cs := by
  cases cs with
  | nil => rfl
  | cons d cs =>
    refine ofText_other ?_ ?_ cs
    · rw [beq_eq_false_iff_ne.mpr hopen, Bool.false_and]
    · rw [beq_eq_false_iff_ne.mpr hclose, Bool.false_and]

/-- A delimiter is two units wide. -/
theorem width_delimiter {a b : Char} (h : (c == a.toNat && d == b.toNat) = true)
    (ha : a.toNat < 0x10000) (hb : b.toNat < 0x10000) (cs : List CodePoint) (n : Nat) :
    width ((c :: d :: cs).take (n + 2)) = 2 + width (cs.take n) := by
  simp only [Bool.and_eq_true, beq_iff_eq] at h
  obtain ⟨rfl, rfl⟩ := h
  simp only [List.take_succ_cons, Utf16.width_cons, CodePoint.width, if_pos ha, if_pos hb]
  omega

end Mark

namespace Expression

/-- The text that the lexer takes for the text of a comment ends at the closing delimiter that is
reached at depth zero. -/
theorem endOffset?_ofText (offset depth : Nat) (cs : List CodePoint) :
    Mark.endOffset? offset depth (Mark.ofText cs)
      = if (commentText depth cs).2 then some (offset + width (cs.take (commentText depth cs).1))
        else none := by
  fun_induction commentText depth cs generalizing offset with
  | case1 => rfl
  | case2 => rfl
  | case3 depth c d cs hopen length closed htext ih =>
    rw [htext] at ih
    have hwidth := Mark.width_delimiter hopen (by decide) (by decide) cs length
    rw [Mark.ofText_open hopen, Mark.endOffset?, ih, hwidth, Nat.add_assoc]
  | case4 c d cs hopen hclose =>
    rw [Mark.ofText_close hclose]
    rfl
  | case5 c d cs hopen hclose depth length closed htext ih =>
    rw [htext] at ih
    have hwidth := Mark.width_delimiter hclose (by decide) (by decide) cs length
    rw [Mark.ofText_close hclose, Mark.endOffset?, ih, hwidth, Nat.add_assoc]
  | case6 depth c d cs hopen hclose length closed htext ih =>
    rw [htext] at ih
    rw [Mark.ofText_other ((Bool.not_eq_true _).mp hopen) ((Bool.not_eq_true _).mp hclose),
      Mark.endOffset?, ih, List.take_succ_cons, Utf16.width_cons, Nat.add_assoc]

/-! ## The tokens of a comment -/

/-- The text of a comment as a token, if there is any. -/
def textTokens (kind : Kind) (first last : Nat) : List Token :=
  if first < last then [⟨kind, first, last, Mode.comment.code⟩] else []

/-- The tokens behind the start tag of a comment: the marker of documentation and the text. -/
def bodyTokens (marked : Bool) (kind : Kind) (first last : Nat) : List Token :=
  if marked then
    ⟨.docCommentMarker, first, first + 1, Mode.docMarker.code⟩ :: textTokens kind (first + 1) last
  else textTokens kind first last

/-- The tokens behind the start tag of a comment that ends at an offset, or that is not closed
before the end of the region. -/
def ReadsComment (marked : Bool) (first last : Nat) (ts : List Token) : Option Nat → Prop
  | some stop => ∃ after, ts = bodyTokens marked .comment first stop ++
      ⟨.commentEndTag, stop, stop + 2, Mode.comment.code⟩ :: after ∧
      ∀ t ∈ after.head?, t.state = Mode.plain.code
  | none => ts = bodyTokens marked .partialComment first last

variable {offset : Nat} {cs : List CodePoint} {ts : List Token}

theorem reader_of_scan {mode : Mode} {step : Step} {kind : Kind} (h : scan mode cs = step)
    (hkind : step.kind = some kind) : rule.reader mode.code cs
      = some ⟨kind, step.length, mode.code, step.move.next mode.code⟩ := by
  rw [Rule.reader, rule, Mode.ofCode_code, h, hkind, Option.map_some]

theorem head_state {state : Nat} (h : rule.reader.Runs offset state cs ts) :
    ∀ t ∈ ts.head?, t.state = state := by
  cases h with
  | done => exact nofun
  | more hread =>
    rintro t ⟨⟩
    exact (Rule.reader_eq_some hread).2.2.1

/-- The text of an end tag. -/
theorem exists_of_atCommentEnd (h : atCommentEnd cs = true) :
    ∃ rest, cs = ':'.toNat :: ')'.toNat :: rest := by
  rcases cs with _ | ⟨c, _ | ⟨d, rest⟩⟩
  · cases h
  · simp [atCommentEnd, next] at h
  · simp only [atCommentEnd, next, List.tail_cons, Bool.and_eq_true, beq_iff_eq] at h
    exact ⟨rest, by rw [h.1, h.2]⟩

/-- The end tag of a comment leads back to plain text. -/
theorem runs_commentEnd (h : rule.reader.Runs offset Mode.comment.code cs ts)
    (hend : atCommentEnd cs = true) : ∃ after,
      ts = ⟨.commentEndTag, offset, offset + 2, Mode.comment.code⟩ :: after ∧
      ∀ t ∈ after.head?, t.state = Mode.plain.code := by
  obtain ⟨rest, rfl⟩ := exists_of_atCommentEnd hend
  have hscan : scan .comment (':'.toNat :: ')'.toNat :: rest)
      = (Step.token .commentEndTag 2).moving .pop := rfl
  obtain ⟨after, rfl, hafter⟩ := h.eq_cons (reader_of_scan hscan rfl)
  exact ⟨after, rfl, head_state hafter⟩

theorem textTokens_self (kind : Kind) (offset : Nat) : textTokens kind offset offset = [] :=
  if_neg (Nat.lt_irrefl _)

/-- The text of a comment is one token. -/
theorem runs_text {c : CodePoint} {kind : Kind} {n : Nat}
    (h : rule.reader.Runs offset Mode.comment.code (c :: cs) ts)
    (hcomment : comment (c :: cs) = .token kind n) : ∃ rest,
      ts = textTokens kind offset (offset + width ((c :: cs).take n)) ++ rest ∧
      rule.reader.Runs (offset + width ((c :: cs).take n)) Mode.comment.code ((c :: cs).drop n)
        rest := by
  have htakes := comment_takes c cs
  rw [hcomment] at htakes
  have hlt : offset < offset + width ((c :: cs).take n) :=
    Nat.lt_add_of_pos_right (Utf16.width_take_pos htakes.length_pos htakes.length_le)
  have hscan : scan .comment (c :: cs) = .token kind n := hcomment
  obtain ⟨rest, rfl, hruns⟩ := h.eq_cons (reader_of_scan hscan rfl)
  refine ⟨rest, ?_, hruns⟩
  rw [textTokens, if_pos hlt]
  rfl

/-- No text stands in front of an end tag. -/
theorem commentText_of_atCommentEnd (h : atCommentEnd cs = true) :
    commentText 0 cs = (0, true) := by
  obtain ⟨rest, rfl⟩ := exists_of_atCommentEnd h
  exact commentText_end rfl rfl rest

/-- Behind the text of a closed comment stands its end tag. -/
theorem runs_closed {n : Nat} (h : rule.reader.Runs offset Mode.comment.code cs ts)
    (htext : commentText 0 cs = (n, true)) :
    ReadsComment false offset (offset + width cs) ts (some (offset + width (cs.take n))) := by
  have hend := atCommentEnd_drop 0 cs (by rw [htext])
  rw [htext] at hend
  cases cs with
  | nil => cases htext
  | cons c cs =>
    rcases comment_cases c cs with ⟨hnow, -⟩ | ⟨length, hlength, hcomment⟩ | ⟨length, hlength, -⟩
    · rw [commentText_of_atCommentEnd hnow] at htext
      cases htext
      obtain ⟨after, rfl, hafter⟩ := runs_commentEnd h hend
      refine ⟨after, ?_, hafter⟩
      simp only [List.take_zero, Utf16.width_nil, Nat.add_zero, bodyTokens, Bool.false_eq_true,
        if_false, textTokens_self, List.nil_append]
    · rw [htext] at hlength
      cases hlength
      obtain ⟨rest, rfl, hruns⟩ := runs_text h hcomment
      obtain ⟨after, rfl, hafter⟩ := runs_commentEnd hruns hend
      exact ⟨after, rfl, hafter⟩
    · rw [htext] at hlength
      cases hlength

/-- The text of a comment that is not closed goes on to the end of the region. -/
theorem runs_unclosed {n : Nat} (h : rule.reader.Runs offset Mode.comment.code cs ts)
    (htext : commentText 0 cs = (n, false)) :
    ReadsComment false offset (offset + width cs) ts none := by
  have hdrop := drop_commentText 0 cs (by rw [htext])
  rw [htext] at hdrop
  cases cs with
  | nil =>
    rw [h.eq_nil (reader_nil _)]
    exact (textTokens_self _ _).symm
  | cons c cs =>
    rcases comment_cases c cs with ⟨hnow, -⟩ | ⟨length, hlength, -⟩ | ⟨length, hlength, hcomment⟩
    · rw [commentText_of_atCommentEnd hnow] at htext
      cases htext
    · rw [htext] at hlength
      cases hlength
    · rw [htext] at hlength
      cases hlength
      obtain ⟨rest, rfl, hruns⟩ := runs_text h hcomment
      rw [hruns.eq_nil (by rw [hdrop, reader_nil]), List.append_nil,
        List.take_of_length_le (List.drop_eq_nil_iff.mp hdrop)]
      rfl

/-- What is read inside a comment, said by the marks of the text. -/
theorem runs_comment (h : rule.reader.Runs offset Mode.comment.code cs ts) :
    ReadsComment false offset (offset + width cs) ts
      (Mark.endOffset? offset 0 (Mark.ofText cs)) := by
  rw [endOffset?_ofText]
  cases htext : commentText 0 cs with
  | mk n closed =>
    cases closed with
    | true => exact runs_closed h htext
    | false => exact runs_unclosed h htext

theorem ReadsComment.marked {first last : Nat} {stop : Option Nat}
    (h : ReadsComment false (first + 1) last ts stop) :
    ReadsComment true first last
      (⟨.docCommentMarker, first, first + 1, Mode.docMarker.code⟩ :: ts) stop := by
  cases stop with
  | some stop =>
    obtain ⟨after, rfl, hafter⟩ := h
    exact ⟨after, rfl, hafter⟩
  | none => exact congrArg (List.cons _) h

/-- The marker of documentation is no part of a delimiter. -/
theorem runs_docMarker (h : rule.reader.Runs offset Mode.docMarker.code cs ts)
    (hmarker : next '~' cs = true) :
    ReadsComment true offset (offset + width cs) ts
      (Mark.endOffset? offset 0 (Mark.ofText cs)) := by
  cases cs with
  | nil => cases hmarker
  | cons c cs =>
    have hscan : scan .docMarker (c :: cs)
        = (Step.token .docCommentMarker 1).moving (.replace Mode.comment.code) := by
      rw [scan, docMarker, if_pos hmarker]
    obtain ⟨rest, rfl, hruns⟩ := h.eq_cons (reader_of_scan hscan rfl)
    simp only [next, beq_iff_eq] at hmarker
    subst hmarker
    rw [Mark.ofText_point (by decide) (by decide), Mark.endOffset?, Utf16.width_cons,
      ← Nat.add_assoc]
    exact (runs_comment hruns).marked

theorem name_ne_commentStart (c : CodePoint) (cs : List CodePoint) :
    (name c cs).kind ≠ some .commentStartTag := by
  unfold name nameKind
  split
  · exact nofun
  · simp only [Step.token_kind, ne_eq, Option.some.injEq]
    split <;> exact nofun

theorem parenthesis_commentStart (h : (parenthesis cs).kind = some .commentStartTag) :
    ∃ rest, cs = ':'.toNat :: rest ∧ parenthesis cs = (Step.token .commentStartTag 2).moving
      (.push (if next '~' rest then Mode.docMarker else Mode.comment).code) := by
  unfold parenthesis at h ⊢
  cases hcolon : next ':' cs with
  | true =>
    cases cs with
    | nil => cases hcolon
    | cons d cs =>
      rw [beq_iff_eq.mp hcolon]
      exact ⟨cs, rfl, rfl⟩
  | false =>
    rw [hcolon, if_neg Bool.false_ne_true] at h
    split at h
    all_goals cases h

/-- The text of a start tag, and the mode to which it leads. -/
theorem plain_commentStart (h : (plain cs).kind = some .commentStartTag) :
    ∃ rest, cs = '('.toNat :: ':'.toNat :: rest ∧
      plain cs = (Step.token .commentStartTag 2).moving
        (.push (if next '~' rest then Mode.docMarker else Mode.comment).code) := by
  cases cs with
  | nil => cases h
  | cons c cs =>
    simp only [plain] at h ⊢
    cases hc : CharClass.of c with
    | parenthesisOpen =>
      rw [hc] at h
      obtain ⟨rest, rfl, hstep⟩ := parenthesis_commentStart h
      exact ⟨rest, by rw [point_of_class '('.toNat hc (by decide) (by decide)], hstep⟩
    | dot =>
      rw [hc] at h
      rcases dot_kinds h with hk | hk | hk | hk | hk <;> cases hk
    | digit =>
      rw [hc] at h
      rcases number_kinds h with hk | hk | hk | hk <;> cases hk
    | nameStartChar =>
      rw [hc] at h
      exact absurd h (name_ne_commentStart c cs)
    | colon | hash | exclamationMark | equal | lessThan | greaterThan | verticalBar
    | forwardSlash =>
      rw [hc] at h
      exact absurd rfl (operator_kind (P := fun k => k ≠ .commentStartTag) (by decide) (by decide)
        h)
    | _ =>
      rw [hc] at h
      cases h

/-- Behind a start tag the comment is read up to the end that its marks say. -/
theorem runs_commentStart {state : Nat} {t : Token} (hstate : Declared state)
    (h : rule.reader.Runs offset state cs (t :: ts)) (hkind : t.kind = .commentStartTag) :
    ∃ rest, cs = '('.toNat :: ':'.toNat :: rest ∧ t.start = offset ∧ t.stop = offset + 2 ∧
      ReadsComment (next '~' rest) (offset + 2) (offset + 2 + width rest) ts
        (Mark.endOffset? (offset + 2) 0 (Mark.ofText rest)) := by
  obtain ⟨mode, rfl⟩ := hstate
  cases h with
  | @more _ _ _ rd _ hread hruns =>
    obtain ⟨hrule, hlength, -, hnext⟩ := Rule.reader_eq_some hread
    rw [rule, Mode.ofCode_code] at hrule hlength hnext
    rw [show rd.kind = .commentStartTag from hkind] at hrule
    have hplain : mode = .plain := by
      have hyields := scan_kind hrule
      cases mode with
      | plain => rfl
      | _ => cases hyields
    subst hplain
    obtain ⟨rest, rfl, hscan⟩ := plain_commentStart hrule
    rw [scan, hscan] at hlength hnext
    have hstop : offset + width (('('.toNat :: ':'.toNat :: rest).take rd.length) = offset + 2 := by
      rw [← hlength]
      rfl
    rw [hstop, ← hlength, hnext] at hruns
    refine ⟨rest, rfl, rfl, hstop, ?_⟩
    cases hmarker : next '~' rest with
    | true =>
      rw [hmarker] at hruns
      exact runs_docMarker hruns hmarker
    | false =>
      rw [hmarker] at hruns
      exact runs_comment hruns

end Expression

/-! ## Whole runs -/

/-- Whether the unit at an offset of a region is the marker of documentation. -/
def markedAt (units : Array UInt16) (offset last : Nat) : Bool :=
  offset < last && units[offset]? == some 0x7E

/-- A pair of surrogates is no marker, and neither is its first half. -/
theorem next_decode (u : UInt16) (us : List UInt16) :
    Expression.next '~' (Utf16.decode (u :: us)) = (u == 0x7E) := by
  have hunit : (u.toNat == '~'.toNat) = (u == 0x7E) := by
    rw [Bool.eq_iff_iff, beq_iff_eq, beq_iff_eq]
    exact UInt16.toNat_inj (b := 0x7E)
  cases us with
  | nil => exact hunit
  | cons v us =>
    rw [Utf16.decode]
    split
    · next hpair =>
        have hpoint : 0x10000 ≤ Utf16.combine u v :=
          Nat.le_trans (Nat.le_add_right _ _) (Nat.le_add_right _ _)
        have hhigh : u ≠ 0x7E := by
          rintro rfl
          cases (Bool.and_eq_true_iff.mp hpair).1
        rw [Expression.next, beq_eq_false_iff_ne.mpr hhigh, beq_eq_false_iff_ne]
        exact Nat.ne_of_gt (Nat.lt_of_lt_of_le (by decide) hpoint)
    · exact hunit

theorem Cursor.next_slice (units : Array UInt16) (offset : Nat) {last : Nat}
    (hlast : last ≤ units.size) :
    Expression.next '~' (slice units offset last) = markedAt units offset last := by
  rw [slice, toList_extract, markedAt]
  by_cases hlt : offset < last
  · have hsize : offset < units.toList.length := by
      rw [Array.length_toList]
      omega
    obtain ⟨k, hk⟩ := Nat.exists_eq_add_of_lt hlt
    rw [List.drop_eq_getElem_cons hsize, show last - offset = k + 1 by omega,
      List.take_succ_cons, next_decode, decide_eq_true hlt, Bool.true_and,
      ← Array.getElem?_toList, List.getElem?_eq_getElem hsize]
    rfl
  · rw [show last - offset = 0 by omega, List.take_zero, decide_eq_false hlt, Bool.false_and]
    rfl

/-- A comment ends at its matching delimiter. Behind a start tag stand the marker of documentation,
exactly if the next unit is `~`, and the text of the comment up to the closing delimiter that is
reached at depth zero, then the end tag, and plain text behind it; where no such delimiter is
reached the text goes on to the end of the region as a partial comment. -/
theorem Lexer.tokens_comment (units : Array UInt16) (first last : Nat) {i : Nat} {t : Token}
    (ht : (Lexer.expression.tokens units first last 0)[i]? = some t)
    (hkind : t.kind = .commentStartTag) :
    t.stop = t.start + 2 ∧
      Expression.ReadsComment (markedAt units t.stop (min last units.size)) t.stop
        (min last units.size) ((Lexer.expression.tokens units first last 0).drop (i + 1))
        (Mark.endOffset? t.stop 0
          (Mark.ofText (Cursor.slice units t.stop (min last units.size)))) := by
  have hstate : Expression.Declared 0 := ⟨.plain, rfl⟩
  have hall := Expression.account.tokens_runs Lexer.Tree.expression.progressive hstate units
    first last
  obtain ⟨n, hn, hdeclared, hruns⟩ := Expression.account.runs_drop hall hstate ht
  obtain ⟨hi, hti⟩ := List.getElem?_eq_some_iff.mp ht
  rw [List.drop_eq_getElem_cons hi, hti] at hruns
  obtain ⟨rest, hahead, -, hstop, hread⟩ :=
    Expression.runs_commentStart hdeclared hruns hkind
  -- what is ahead of the lexer is the rest of the region, at the tag and behind it
  have hwidth := Cursor.ofRegion_stop_add_width units first last
  rw [← Utf16.width_take_add_drop _ n, ← Nat.add_assoc, ← hn, hahead] at hwidth
  have htag : width ('('.toNat :: ':'.toNat :: rest) = 2 + width rest := by
    simp only [Utf16.width_cons, ← Nat.add_assoc]
    rfl
  have hslice : rest = Cursor.slice units t.stop (min last units.size) := by
    have hdrop : (Cursor.ofRegion units first last).ahead.drop (n + 2) = rest := by
      rw [← List.drop_drop, hahead]
      rfl
    have htake : width ((Cursor.ofRegion units first last).ahead.take (n + 2))
        = width ((Cursor.ofRegion units first last).ahead.take n) + 2 := by
      rw [List.take_add, Utf16.width_append, hahead]
      rfl
    rw [← hdrop, hstop, hn, Nat.add_assoc, ← htake]
    exact (Cursor.slice_add_width units _ _ (n + 2)).symm
  refine ⟨hstop, ?_⟩
  rw [htag, ← Nat.add_assoc, ← hstop] at hwidth
  rw [← hstop, hwidth] at hread
  rw [← hslice, ← Cursor.next_slice units t.stop (Nat.min_le_right _ _), ← hslice]
  exact hread

/-- In `(:~(::):::)x` the nested comment is opened and closed by delimiters that overlap, and of
three colons in a row only the last one ends the comment. -/
theorem Lexer.tokens_comment_overlap :
    (Lexer.expression.tokens
        #[0x28, 0x3A, 0x7E, 0x28, 0x3A, 0x3A, 0x29, 0x3A, 0x3A, 0x3A, 0x29, 0x78] 0 12 0)[0]?
      = some ⟨.commentStartTag, 0, 2, 0⟩ ∧
    Expression.ReadsComment true 2 12 ((Lexer.expression.tokens
        #[0x28, 0x3A, 0x7E, 0x28, 0x3A, 0x3A, 0x29, 0x3A, 0x3A, 0x3A, 0x29, 0x78] 0 12 0).drop 1)
      (some 9) := by
  have htag : (Lexer.expression.tokens
      #[0x28, 0x3A, 0x7E, 0x28, 0x3A, 0x3A, 0x29, 0x3A, 0x3A, 0x3A, 0x29, 0x78] 0 12 0)[0]?
      = some ⟨.commentStartTag, 0, 2, 0⟩ := by decide +kernel
  have hend : Mark.endOffset? 2 0 (Mark.ofText (Cursor.slice
      #[0x28, 0x3A, 0x7E, 0x28, 0x3A, 0x3A, 0x29, 0x3A, 0x3A, 0x3A, 0x29, 0x78] 2 12))
      = some 9 := by decide +kernel
  have hread := (tokens_comment _ 0 12 htag rfl).2
  exact ⟨htag, hend ▸ hread⟩

end XQuery
