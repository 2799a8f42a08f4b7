import XQuery.Proofs.Lexer.Kinds
import XQuery.Proofs.Lexer.States

/-!
# Nested comments

The expression lexer reads the text of a comment in one go and counts nested
comments on the way; the documentation lexer reads the same text in small
tokens and hands the depth on from token to token. `Passes` says that a part
of the text has been read with the count that the whole text has there: every
token of the documentation lexer passes its part of the text.
-/

namespace XQuery

open Expression (next commentText nameChars)

/-- The greatest depth of nested comments in a comment's text, up to the `:)` that closes it. -/
def Expression.commentDepth : Nat → List CodePoint → Nat
  | depth, c :: d :: cs =>
      if c == '('.toNat && d == ':'.toNat then commentDepth (depth + 1) cs
      else if c == ':'.toNat && d == ')'.toNat then
        match depth with
        | 0 => 0
        | depth + 1 => max (depth + 1) (commentDepth depth cs)
      else commentDepth depth (d :: cs)
  | depth, _ => depth

namespace Expression

variable {c d : CodePoint}

theorem commentText_open (h : (c == '('.toNat && d == ':'.toNat) = true) (depth : Nat)
    (cs : List CodePoint) : commentText depth (c :: d :: cs)
      = ((commentText (depth + 1) cs).1 + 2, (commentText (depth + 1) cs).2) := by
  rw [commentText.eq_def]
  simp only [h, if_true]

theorem commentText_close (hopen : (c == '('.toNat && d == ':'.toNat) = false)
    (h : (c == ':'.toNat && d == ')'.toNat) = true) (depth : Nat) (cs : List CodePoint) :
    commentText (depth + 1) (c :: d :: cs)
      = ((commentText depth cs).1 + 2, (commentText depth cs).2) := by
  rw [commentText.eq_def]
  simp only [hopen, h, Bool.false_eq_true, if_false, if_true]

theorem commentText_end (hopen : (c == '('.toNat && d == ':'.toNat) = false)
    (h : (c == ':'.toNat && d == ')'.toNat) = true) (cs : List CodePoint) :
    commentText 0 (c :: d :: cs) = (0, true) := by
  rw [commentText.eq_def]
  simp only [hopen, h, Bool.false_eq_true, if_false, if_true]

theorem commentText_other (hopen : (c == '('.toNat && d == ':'.toNat) = false)
    (hclose : (c == ':'.toNat && d == ')'.toNat) = false) (depth : Nat) (cs : List CodePoint) :
    commentText depth (c :: d :: cs)
      = ((commentText depth (d :: cs)).1 + 1, (commentText depth (d :: cs)).2) := by
  rw [commentText.eq_def]
  simp only [hopen, hclose, Bool.false_eq_true, if_false]

/-- A colon in front of `)` is no parenthesis in front of a colon. -/
theorem not_open_of_close (h : (c == ':'.toNat && d == ')'.toNat) = true) :
    (c == '('.toNat && d == ':'.toNat) = false := by
  simp only [Bool.and_eq_true, beq_iff_eq] at h
  rw [h.1]
  rfl

theorem commentDepth_open (h : (c == '('.toNat && d == ':'.toNat) = true) (depth : Nat)
    (cs : List CodePoint) :
    commentDepth depth (c :: d :: cs) = commentDepth (depth + 1) cs := by
  rw [commentDepth.eq_def]
  simp only [h, if_true]

theorem commentDepth_close (h : (c == ':'.toNat && d == ')'.toNat) = true) (depth : Nat)
    (cs : List CodePoint) :
    commentDepth (depth + 1) (c :: d :: cs) = max (depth + 1) (commentDepth depth cs) := by
  rw [commentDepth.eq_def]
  simp only [not_open_of_close h, h, Bool.false_eq_true, if_false, if_true]

theorem commentDepth_other (hopen : (c == '('.toNat && d == ':'.toNat) = false)
    (hclose : (c == ':'.toNat && d == ')'.toNat) = false) (depth : Nat) (cs : List CodePoint) :
    commentDepth depth (c :: d :: cs) = commentDepth depth (d :: cs) := by
  rw [commentDepth.eq_def]
  simp only [hopen, hclose, Bool.false_eq_true, if_false]

theorem le_commentDepth (depth : Nat) (cs : List CodePoint) : depth ≤ commentDepth depth cs := by
  fun_induction commentDepth depth cs with
  | case1 depth c d cs _ ih => exact Nat.le_of_succ_le ih
  | case2 => exact Nat.le_refl _
  | case3 => exact Nat.le_max_left _ _
  | case4 depth c d cs _ _ ih => exact ih
  | case5 => exact Nat.le_refl _

end Expression

namespace Documentation

open Expression

/-- The first `n` code points of the text lead from the depth to `depth'`. -/
structure Passes (depth : Nat) (cs : List CodePoint) (n depth' : Nat) : Prop where
  length : (commentText depth cs).1 = n + (commentText depth' (cs.drop n)).1
  closed : (commentText depth cs).2 = (commentText depth' (cs.drop n)).2
  depth_le : commentDepth depth' (cs.drop n) ≤ commentDepth depth cs

theorem Passes.refl (depth : Nat) (cs : List CodePoint) : Passes depth cs 0 depth :=
  ⟨(Nat.zero_add _).symm, rfl, Nat.le_refl _⟩

theorem Passes.trans {depth depth' depth'' n n' : Nat} {cs : List CodePoint}
    (h : Passes depth cs n depth') (h' : Passes depth' (cs.drop n) n' depth'') :
    Passes depth cs (n + n') depth'' := by
  obtain ⟨hlength, hclosed, hdepth⟩ := h
  obtain ⟨hlength', hclosed', hdepth'⟩ := h'
  rw [List.drop_drop] at hlength' hclosed' hdepth'
  exact ⟨by omega, hclosed.trans hclosed', Nat.le_trans hdepth' hdepth⟩

/-- A code point that does not open or close a comment with the one behind it. -/
theorem passes_one {c : CodePoint} {cs : List CodePoint}
    (hopen : (next '(' (c :: cs) && next ':' cs) = false)
    (hclose : (next ':' (c :: cs) && next ')' cs) = false) (depth : Nat) :
    Passes depth (c :: cs) 1 depth := by
  cases cs with
  | nil => exact ⟨rfl, rfl, Nat.le_refl _⟩
  | cons d cs =>
    have htext := commentText_other hopen hclose depth cs
    refine ⟨?_, ?_, ?_⟩
    · rw [htext]
      exact Nat.add_comm _ _
    · rw [htext]
      rfl
    · rw [commentDepth_other hopen hclose]
      exact Nat.le_refl _

theorem passes_open {c d : CodePoint} (h : (c == '('.toNat && d == ':'.toNat) = true)
    (depth : Nat) (cs : List CodePoint) : Passes depth (c :: d :: cs) 2 (depth + 1) := by
  have htext := commentText_open h depth cs
  refine ⟨?_, ?_, ?_⟩
  · rw [htext]
    exact Nat.add_comm _ _
  · rw [htext]
    rfl
  · rw [commentDepth_open h]
    exact Nat.le_refl _

theorem passes_close {c d : CodePoint} (h : (c == ':'.toNat && d == ')'.toNat) = true)
    (depth : Nat) (cs : List CodePoint) : Passes (depth + 1) (c :: d :: cs) 2 depth := by
  have htext := commentText_close (not_open_of_close h) h depth cs
  refine ⟨?_, ?_, ?_⟩
  · rw [htext]
    exact Nat.add_comm _ _
  · rw [htext]
    rfl
  · rw [commentDepth_close h]
    exact Nat.le_max_right _ _

theorem passes_plain {c : CodePoint} (hopen : c ≠ '('.toNat) (hcolon : c ≠ ':'.toNat)
    (depth : Nat) (cs : List CodePoint) : Passes depth (c :: cs) 1 depth := by
  refine passes_one ?_ ?_ depth
  · simp only [next, beq_eq_false_iff_ne.mpr hopen, Bool.false_and]
  · simp only [next, beq_eq_false_iff_ne.mpr hcolon, Bool.false_and]

/-- Code points of a kind that can be no part of a delimiter in front. -/
theorem passes_takeWhile {p : CodePoint → Bool} (hopen : p '('.toNat = false)
    (hcolon : p ':'.toNat = false) (depth : Nat) (cs : List CodePoint) :
    Passes depth cs (cs.takeWhile p).length depth := by
  induction cs with
  | nil => exact .refl _ _
  | cons c cs ih =>
    by_cases hc : p c = true
    · rw [List.takeWhile_cons_of_pos hc, List.length_cons, Nat.add_comm]
      refine (passes_plain ?_ ?_ depth cs).trans ih
      · intro heq
        rw [heq, hopen] at hc
        cases hc
      · intro heq
        rw [heq, hcolon] at hc
        cases hc
    · rw [List.takeWhile_cons_of_neg hc]
      exact .refl _ _

theorem passes_nameChars (depth : Nat) (cs : List CodePoint) :
    Passes depth cs (nameChars cs) depth :=
  passes_takeWhile (by decide) (by decide) depth cs

/-- While the depth stays in range nothing is lost at the greatest depth. -/
theorem passes_lineText {depth : Nat} {cs : List CodePoint}
    (h : commentDepth depth cs ≤ maxDepth) :
    Passes depth cs (lineText depth cs).1 (lineText depth cs).2 := by
  fun_induction lineText depth cs with
  | case1 => exact .refl _ _
  | case2 => exact .refl _ _
  | case3 => exact ⟨rfl, rfl, Nat.le_refl _⟩
  | case4 => exact .refl _ _
  | case5 depth c d cs _ hopen length depth' htext ih =>
    -- the greatest depth is out of reach here, so that the minimum is the depth itself
    have hpasses := passes_open hopen depth cs
    have hrest := Nat.le_trans hpasses.depth_le h
    rw [Nat.min_eq_left (Nat.le_trans (le_commentDepth _ _) hrest)] at htext ih
    have ih' := ih hrest
    rw [htext] at ih'
    rw [Nat.add_comm]
    exact hpasses.trans ih'
  | case6 => exact .refl _ _
  | case7 c d cs _ _ hclose depth length depth' htext ih =>
    have hpasses := passes_close hclose depth cs
    have ih' := ih (Nat.le_trans hpasses.depth_le h)
    rw [htext] at ih'
    rw [Nat.add_comm]
    exact hpasses.trans ih'
  | case8 depth c d cs _ hopen hclose length depth' htext ih =>
    rw [Bool.not_eq_true] at hopen hclose
    have hpasses : Passes depth (c :: d :: cs) 1 depth :=
      @passes_one c (d :: cs) hopen hclose depth
    have ih' := ih (Nat.le_trans hpasses.depth_le h)
    rw [htext] at ih'
    rw [Nat.add_comm]
    exact hpasses.trans ih'

/-- The step goes on in some mode at the depth to which its part of the text leads. -/
def Follows (mode : Mode) (depth : Nat) (cs : List CodePoint) (s : Step) : Prop :=
  ∃ mode' depth', s.move.next (pack mode depth) = pack mode' depth' ∧
    Passes depth cs s.length depth'

theorem trim_follows (mode : Mode) (depth : Nat) (cs : List CodePoint) :
    Follows mode depth cs (trim depth cs) := by
  refine ⟨.lineStart, depth, rfl, ?_⟩
  have hbreaks : Passes depth cs (cs.takeWhile isLineBreak).length depth :=
    passes_takeWhile (by decide) (by decide) depth cs
  have hspaces := passes_takeWhile (p := isInlineSpace) (by decide) (by decide) depth
    (cs.drop (cs.takeWhile isLineBreak).length)
  refine (hbreaks.trans hspaces).trans ?_
  rw [← List.drop_drop]
  generalize (cs.drop (cs.takeWhile isLineBreak).length).drop
    ((cs.drop (cs.takeWhile isLineBreak).length).takeWhile isInlineSpace).length = rest
  split
  · next hcolon =>
      rw [Bool.and_eq_true, Bool.not_eq_true'] at hcolon
      obtain ⟨hnext, hpair⟩ := hcolon
      cases rest with
      | nil => cases hnext
      | cons c rest =>
        -- a colon in front of `)` is not trimmed, so this one closes nothing
        refine passes_one ?_ hpair depth
        simp only [next, beq_iff_eq] at hnext
        rw [hnext]
        rfl
  · exact .refl _ _

theorem line_follows (mode : Mode) {depth : Nat} {cs : List CodePoint}
    (h : commentDepth depth cs ≤ maxDepth) : Follows mode depth cs (line depth cs) :=
  ⟨.contents, _, rfl, passes_lineText h⟩

theorem contents_follows (mode : Mode) {depth : Nat} {cs : List CodePoint}
    (h : commentDepth depth cs ≤ maxDepth) : Follows mode depth cs (contents depth cs) := by
  unfold contents
  split
  · split
    · exact trim_follows mode depth _
    · exact line_follows mode h
  · exact line_follows mode h

theorem inlineSpace_follows (mode : Mode) (depth : Nat) (cs : List CodePoint) :
    Follows mode depth cs (inlineSpace cs) :=
  ⟨mode, depth, rfl, passes_takeWhile (by decide) (by decide) depth cs⟩

/-- A name is no part of a delimiter. -/
theorem name_passes {c : CodePoint} (hc : (CharClass.of c).isNameStart = true) (depth : Nat)
    (cs : List CodePoint) : Passes depth (c :: cs) (1 + nameChars cs) depth := by
  refine (passes_plain ?_ ?_ depth cs).trans (passes_nameChars depth cs)
  · rintro rfl
    revert hc
    decide
  · rintro rfl
    revert hc
    decide

theorem scan_follows (mode : Mode) {depth : Nat} {cs : List CodePoint}
    (h : commentDepth depth cs ≤ maxDepth) : Follows mode depth cs (scan mode depth cs) := by
  cases cs with
  | nil =>
    cases mode with
    | lineStart => exact line_follows _ h
    | contents | tag | paramStart | paramName => exact contents_follows _ h
  | cons c cs =>
    cases mode with
    | contents => exact contents_follows _ h
    | lineStart =>
      simp only [scan, lineStart]
      split
      · exact trim_follows _ depth _
      · split
        · exact inlineSpace_follows _ depth _
        · split
          · next hat =>
              rw [beq_iff_eq.mp hat]
              exact ⟨.tag, depth, rfl, passes_plain (by decide) (by decide) depth cs⟩
          · exact line_follows _ h
    | tag =>
      simp only [scan, tag]
      split
      · next hc => exact ⟨_, depth, rfl, name_passes hc depth cs⟩
      · exact contents_follows _ h
    | paramStart =>
      simp only [scan, paramStart]
      split
      · exact inlineSpace_follows _ depth _
      · split
        · next hdollar =>
            rw [beq_iff_eq.mp hdollar]
            exact ⟨.paramName, depth, rfl, passes_plain (by decide) (by decide) depth cs⟩
        · exact contents_follows _ h
    | paramName =>
      simp only [scan, paramName]
      split
      · next hc => exact ⟨.contents, depth, rfl, name_passes hc depth cs⟩
      · exact contents_follows _ h

/-- The documentation lexer stops where the text of the comment ends. -/
theorem commentText_of_atTerminator {depth : Nat} {cs : List CodePoint}
    (h : atTerminator depth cs = true) : (commentText depth cs).1 = 0 := by
  rw [atTerminator, Bool.or_eq_true, Bool.and_eq_true] at h
  rcases h with hnil | ⟨hdepth, hpair⟩
  · rw [List.isEmpty_iff.mp hnil]
    rfl
  · cases cs with
    | nil => rfl
    | cons c cs =>
      cases cs with
      | nil => simp [atPair, next] at hpair
      | cons d cs =>
        have hclose : (c == ':'.toNat && d == ')'.toNat) = true := hpair
        rw [beq_iff_eq.mp hdepth, commentText_end (not_open_of_close hclose) hclose]

end Documentation

end XQuery
