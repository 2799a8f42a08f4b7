import XQuery.Proofs.Lexer.Documented
import XQuery.Proofs.Lexer.Nesting

/-!
# Documentation refines comments

The expression lexer reads the text of a documentation comment as one token.
With documentation the same text is read as a run of documentation tokens that
lie side by side exactly where that one token lies, and all other tokens stay
as they are: both lexers find the same end of every documentation comment.
-/

namespace XQuery

open Utf16 (width)
open Combined (documentedReader documentedReader_expression documentedReader_body)

/-- The second list is the first one with the text of every documentation comment replaced by
documentation tokens that tile it. -/
inductive Refines : List Token → List Token → Prop
  | nil : Refines [] []
  /-- A token that is no marker is the same in both. -/
  | keep {t : Token} {ts us : List Token} : t.kind ≠ .docCommentMarker → Refines ts us →
      Refines (t :: ts) (t :: us)
  /-- So is a marker without text behind it. -/
  | bare {t : Token} {ts us : List Token} : t.kind = .docCommentMarker →
      (∀ u ∈ ts.head?, u.kind ≠ .comment ∧ u.kind ≠ .partialComment) → Refines ts us →
      Refines (t :: ts) (t :: us)
  /-- The text behind a marker is replaced. -/
  | body {t text : Token} {ts run us : List Token} : t.kind = .docCommentMarker →
      text.kind = .comment ∨ text.kind = .partialComment → run ≠ [] →
      Tiles text.start run text.stop → (∀ u ∈ run, Documentation.isBody u.kind) →
      Refines ts us → Refines (t :: text :: ts) (t :: (run ++ us))

namespace Documentation

open Expression (commentText commentDepth)

theorem reader_eq_none {mode : Mode} {depth : Nat} {cs : List CodePoint}
    (h : atTerminator depth cs = true) : rule.reader (pack mode depth) cs = none := by
  rw [Rule.reader, rule_pack, if_pos h]
  rfl

theorem reader_eq_some {mode : Mode} {depth : Nat} {cs : List CodePoint}
    (h : atTerminator depth cs = false) :
    ∃ kind, (scan mode depth cs).kind = some kind ∧
      rule.reader (pack mode depth) cs = some
        { kind, length := (scan mode depth cs).length, state := pack mode depth,
          next := (scan mode depth cs).move.next (pack mode depth) } := by
  obtain ⟨kind, hkind⟩ := Option.isSome_iff_exists.mp (scan_takes mode h).isSome
  have hrule : rule (pack mode depth) cs = scan mode depth cs := by
    rw [rule_pack, h]
    rfl
  refine ⟨kind, hkind, ?_⟩
  rw [Rule.reader, hrule, hkind]
  rfl

/-- Documentation tokens that tile the text of a comment, and then a run inside the comment from
where the text ends. -/
def Splits (offset depth : Nat) (cs : List CodePoint) (us : List Token) : Prop :=
  ∃ run rest, us = run ++ rest ∧
    Tiles offset run (offset + width (cs.take (commentText depth cs).1)) ∧
    (∀ u ∈ run, isBody u.kind) ∧
    documentedReader.Runs (offset + width (cs.take (commentText depth cs).1))
      Expression.Mode.comment.code (cs.drop (commentText depth cs).1) rest

theorem pack_lt_of_commentDepth {depth : Nat} {cs : List CodePoint} (mode : Mode)
    (h : commentDepth depth cs ≤ maxDepth) : pack mode depth < idUnit :=
  pack_lt mode (Nat.le_trans (Nat.le_trans (Expression.le_commentDepth depth cs) h)
    (Nat.le_max_right _ _))

theorem splits_of_atTerminator {offset depth : Nat} {mode : Mode} {cs : List CodePoint}
    {us : List Token} (hend : atTerminator depth cs = true) (hlt : pack mode depth < idUnit)
    (h : documentedReader.Runs offset (documentationId + pack mode depth) cs us) :
    Splits offset depth cs us := by
  have hread : documentedReader Expression.Mode.comment.code cs
      = documentedReader (documentationId + pack mode depth) cs := by
    rw [documentedReader_body hlt, reader_eq_none hend]
  have hlength := commentText_of_atTerminator hend
  refine ⟨[], us, rfl, ?_, nofun, ?_⟩
  · rw [hlength]
    rfl
  · rw [hlength]
    exact h.congr hread

/-- One documentation token in front of a text that is split. -/
theorem Splits.cons {offset depth depth' : Nat} {cs : List CodePoint} {us : List Token}
    {rd : Lexeme} (hkind : isBody rd.kind) (hpos : 0 < rd.length) (hle : rd.length ≤ cs.length)
    (hpasses : Passes depth cs rd.length depth')
    (h : Splits (offset + width (cs.take rd.length)) depth' (cs.drop rd.length) us) :
    Splits offset depth cs (rd.token offset cs :: us) := by
  obtain ⟨run, rest, rfl, htiles, hbody, hruns⟩ := h
  have hwidth := Utf16.width_take_pos hpos hle
  have hstop : offset + width (cs.take rd.length)
      + width ((cs.drop rd.length).take (commentText depth' (cs.drop rd.length)).1)
      = offset + width (cs.take (commentText depth cs).1) := by
    rw [hpasses.length, List.take_add, Utf16.width_append, Nat.add_assoc]
  rw [hstop] at htiles hruns
  rw [List.drop_drop, ← hpasses.length] at hruns
  refine ⟨rd.token offset cs :: run, rest, rfl, ⟨rfl, ?_, htiles⟩, ?_, hruns⟩
  · exact Nat.lt_add_of_pos_right hwidth
  · exact List.forall_mem_cons.mpr ⟨hkind, hbody⟩

/-- In the body of a documentation comment the documented lexer reads documentation tokens up to
where the text of the comment ends. -/
theorem splits_of_runs {offset depth : Nat} {mode : Mode} {cs : List CodePoint} {us : List Token}
    (h : documentedReader.Runs offset (documentationId + pack mode depth) cs us)
    (hdepth : commentDepth depth cs ≤ maxDepth) : Splits offset depth cs us := by
  generalize hstate : documentationId + pack mode depth = state at h
  -- the induction is on the run; mode and depth change from token to token
  induction h generalizing mode depth with
  | @done offset state cs hread =>
    subst hstate
    have hlt := pack_lt_of_commentDepth mode hdepth
    cases hend : atTerminator depth cs with
    | true => exact splits_of_atTerminator hend hlt (.done hread)
    | false =>
      obtain ⟨kind, _, hreader⟩ := @reader_eq_some mode depth cs hend
      rw [documentedReader_body hlt, hreader] at hread
      cases hread
  | @more offset state cs rd us hread hrest ih =>
    subst hstate
    have hlt := pack_lt_of_commentDepth mode hdepth
    cases hend : atTerminator depth cs with
    | true => exact splits_of_atTerminator hend hlt (.more hread hrest)
    | false =>
      obtain ⟨kind, hkind, hreader⟩ := @reader_eq_some mode depth cs hend
      rw [documentedReader_body hlt, hreader] at hread
      cases hread
      have htakes := scan_takes mode hend
      obtain ⟨mode', depth', hnext, hpasses⟩ := scan_follows mode hdepth
      refine .cons (scan_kind hkind) htakes.length_pos htakes.length_le hpasses ?_
      exact ih (Nat.le_trans hpasses.depth_le hdepth) (by rw [hnext])

end Documentation

namespace Expression

/-- What is read inside a comment: its text, or where there is none at most the end tag. -/
theorem reader_comment (cs : List CodePoint) :
    ((commentText 0 cs).1 = 0 ∧
      ∀ rd, rule.reader Mode.comment.code cs = some rd → rd.kind = .commentEndTag) ∨
    ∃ kind, (kind = .comment ∨ kind = .partialComment) ∧ 0 < (commentText 0 cs).1 ∧
      rule.reader Mode.comment.code cs = some
        ⟨kind, (commentText 0 cs).1, Mode.comment.code, Mode.comment.code⟩ := by
  have hrule : rule Mode.comment.code cs = comment cs := rfl
  cases cs with
  | nil => exact .inl ⟨rfl, nofun⟩
  | cons c cs =>
    rw [Rule.reader, hrule, comment, if_neg (by simp), List.tail_cons]
    by_cases hend : (next ':' (c :: cs) && next ')' cs) = true
    · have hterminator : Documentation.atTerminator 0 (c :: cs) = true := by
        rw [Documentation.atTerminator, Bool.or_eq_true]
        exact .inr hend
      rw [if_pos hend]
      refine .inl ⟨Documentation.commentText_of_atTerminator hterminator, ?_⟩
      rintro rd ⟨⟩
      rfl
    · rw [if_neg hend]
      have hpos := commentText_pos ((Bool.not_eq_true _).mp hend)
      generalize commentText 0 (c :: cs) = text at hpos
      obtain ⟨length, closed⟩ := text
      cases closed with
      | true => exact .inr ⟨.comment, .inl rfl, hpos, rfl⟩
      | false => exact .inr ⟨.partialComment, .inr rfl, hpos, rfl⟩

theorem reader_marker {state : Nat} {cs : List CodePoint} {rd : Lexeme} (hstate : Declared state)
    (h : rule.reader state cs = some rd) (hkind : rd.kind = .docCommentMarker) :
    rd.next = Mode.comment.code := by
  obtain ⟨mode, rfl⟩ := hstate
  obtain ⟨hrule, _, _, hnext⟩ := Rule.reader_eq_some h
  rw [hkind, rule, Mode.ofCode_code] at hrule
  rw [hnext, rule, Mode.ofCode_code, (scan_kind_docCommentMarker hrule).2]
  rfl

end Expression

open Expression (Declared commentText commentDepth)

/-- No documentation comment among the tokens nests deeper than the documentation lexer counts. -/
def Shallow (units : Array UInt16) (ts : List Token) : Prop :=
  ∀ t ∈ ts, t.kind = .docCommentMarker →
    commentDepth 0 (Cursor.slice units t.stop units.size) ≤ Documentation.maxDepth

theorem Shallow.tail {units : Array UInt16} {t : Token} {ts : List Token}
    (h : Shallow units (t :: ts)) : Shallow units ts :=
  fun u hu => h u (List.mem_cons_of_mem _ hu)

/-- Behind a marker both readers go on inside the comment, at once if the comment has no text and
otherwise behind one token of text here and the documentation tokens that tile it there. -/
theorem behind_marker {offset : Nat} {cs : List CodePoint} {ts us : List Token}
    (h : Expression.rule.reader.Runs offset Expression.Mode.comment.code cs ts)
    (h' : documentedReader.Runs offset (documentationId + Documentation.pack .lineStart 0) cs us)
    (hdepth : commentDepth 0 cs ≤ Documentation.maxDepth) :
    ((∀ u ∈ ts.head?, u.kind ≠ .comment ∧ u.kind ≠ .partialComment) ∧
      documentedReader.Runs offset Expression.Mode.comment.code cs us) ∨
    ∃ text rest run rest' n, ts = text :: rest ∧ us = run ++ rest' ∧
      (text.kind = .comment ∨ text.kind = .partialComment) ∧ run ≠ [] ∧
      Tiles text.start run text.stop ∧ (∀ u ∈ run, Documentation.isBody u.kind) ∧
      Expression.rule.reader.Runs (offset + width (cs.take n)) Expression.Mode.comment.code
        (cs.drop n) rest ∧
      documentedReader.Runs (offset + width (cs.take n)) Expression.Mode.comment.code
        (cs.drop n) rest' := by
  obtain ⟨run, rest', rfl, htiles, hbody, hruns'⟩ := Documentation.splits_of_runs h' hdepth
  rcases Expression.reader_comment cs with ⟨hzero, hend⟩ | ⟨kind, hkind, hpos, hread⟩
  · rw [hzero] at htiles hruns'
    rw [Tiles.eq_nil htiles]
    refine .inl ⟨?_, hruns'⟩
    cases h with
    | done => exact nofun
    | more hread =>
      rintro u ⟨⟩
      have hkind := hend _ hread
      simp [Lexeme.token, hkind]
  · obtain ⟨rest, rfl, hruns⟩ := h.eq_cons hread
    have hle := Expression.commentText_le 0 cs
    have hlt := Nat.lt_add_of_pos_right (n := offset) (Utf16.width_take_pos hpos hle)
    exact .inr ⟨_, rest, run, rest', _, rfl, rfl, hkind, htiles.ne_nil hlt, htiles, hbody, hruns,
      hruns'⟩

/-- Runs of the two readers from the same place in the same state. -/
theorem refines_of_runs {units : Array UInt16} {ts us : List Token} {offset state : Nat}
    {cs : List CodePoint} (h : Expression.rule.reader.Runs offset state cs ts)
    (hstate : Declared state) (h' : documentedReader.Runs offset state cs us)
    (hcs : cs = Cursor.slice units offset units.size) (hshallow : Shallow units ts) :
    Refines ts us := by
  -- a marker and the text behind it are two tokens at once, so the induction is on the length
  induction hn : ts.length using Nat.strongRecOn generalizing ts us offset state cs with
  | ind n ih =>
    subst hn
    cases h with
    | done hread =>
      have hread' : documentedReader state cs = none := by
        rw [documentedReader_expression hstate.lt, hread]
        rfl
      rw [h'.eq_nil hread']
      exact .nil
    | @more _ _ _ rd ts hread hrest =>
      have hread' : documentedReader state cs = some (Combined.documented.handOver rd) := by
        rw [documentedReader_expression hstate.lt, hread]
        rfl
      have hdrop : cs.drop rd.length
          = Cursor.slice units (offset + width (cs.take rd.length)) units.size := by
        rw [hcs, Cursor.slice_add_width]
      obtain ⟨us, rfl, hrest'⟩ := h'.eq_cons hread'
      rw [Combined.handOver_documented] at hrest' ⊢
      by_cases hkind : rd.kind = .docCommentMarker
      · rw [if_pos hkind] at hrest' ⊢
        rw [Expression.reader_marker hstate hread hkind] at hrest
        have hdepth := hshallow _ List.mem_cons_self hkind
        rw [show Cursor.slice units (rd.token offset cs).stop units.size = _ from hdrop.symm]
          at hdepth
        rcases behind_marker hrest hrest' hdepth with ⟨hhead, hruns'⟩ |
          ⟨text, rest, run, rest', n, rfl, rfl, htext, hrun, htiles, hbody, hruns, hruns'⟩
        · exact .bare hkind hhead (ih _ (Nat.lt_succ_self _) hrest ⟨.comment, rfl⟩ hruns' hdrop
            hshallow.tail rfl)
        · have hlt : rest.length < (rd.token offset cs :: text :: rest).length := by
            simp only [List.length_cons]
            omega
          have hdrop' := Cursor.slice_add_width units (offset + width (cs.take rd.length))
            units.size n
          rw [← hdrop] at hdrop'
          exact .body hkind htext hrun htiles hbody (ih _ hlt hruns ⟨.comment, rfl⟩ hruns'
            hdrop'.symm hshallow.tail.tail rfl)
      · rw [if_neg hkind] at hrest' ⊢
        exact .keep hkind (ih _ (Nat.lt_succ_self _) hrest
          (Expression.account.valid_next hstate hread) hrest' hdrop hshallow.tail rfl)

/-- With documentation the tokens of a whole buffer are those without, except that the text of
every documentation comment is tiled by documentation tokens. -/
theorem documented_refines_expression (units : Array UInt16)
    (h : Shallow units (Lexer.expression.tokens units 0 units.size 0)) :
    Refines (Lexer.expression.tokens units 0 units.size 0)
      (Lexer.documented.tokens units 0 units.size 0) := by
  have hstate : Declared 0 := ⟨.plain, rfl⟩
  have hruns := Expression.account.tokens_runs Lexer.Tree.expression.progressive hstate units 0
    units.size
  have hruns' := Combined.documentedParts.account.tokens_runs Lexer.Tree.documented.progressive
    (Combined.documentedParts.valid_language hstate) units 0 units.size
  refine refines_of_runs hruns hstate hruns' ?_ h
  simp [Cursor.ofRegion]

/-- In `(:~(:`, a line break and `:):)`, the nested comment is closed on the second line. -/
theorem documented_refines_expression_nested :
    Shallow #[0x28, 0x3A, 0x7E, 0x28, 0x3A, 0x0A, 0x3A, 0x29, 0x3A, 0x29]
      (Lexer.expression.tokens
        #[0x28, 0x3A, 0x7E, 0x28, 0x3A, 0x0A, 0x3A, 0x29, 0x3A, 0x29] 0 10 0) ∧
    Refines
      (Lexer.expression.tokens
        #[0x28, 0x3A, 0x7E, 0x28, 0x3A, 0x0A, 0x3A, 0x29, 0x3A, 0x29] 0 10 0)
      (Lexer.documented.tokens
        #[0x28, 0x3A, 0x7E, 0x28, 0x3A, 0x0A, 0x3A, 0x29, 0x3A, 0x29] 0 10 0) := by
  have hshallow : Shallow #[0x28, 0x3A, 0x7E, 0x28, 0x3A, 0x0A, 0x3A, 0x29, 0x3A, 0x29]
      (Lexer.expression.tokens
        #[0x28, 0x3A, 0x7E, 0x28, 0x3A, 0x0A, 0x3A, 0x29, 0x3A, 0x29] 0 10 0) := by
    unfold Shallow
    decide +kernel
  exact ⟨hshallow, documented_refines_expression _ hshallow⟩

end XQuery
