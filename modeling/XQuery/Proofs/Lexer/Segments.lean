import XQuery.Proofs.Lexer.Constructs
import XQuery.Proofs.Lexer.Resumption

/-!
# Token streams are segmented

What the rule of each mode can read, and in which mode it goes on, follows the
grammar of constructs token by token. That no two tokens of text stand side by
side rests on tokens being as long as possible (`Expression.scan_apart`). By
induction on a run the tokens of every text are complete segments, of which
only the last may be cut short (`Lexer.expression_segmented`).
-/

namespace XQuery

namespace Expression

variable {mode : Mode} {c : Construct} {k : Kind} {ks : List Kind}

/-! ## What can be read inside constructs -/

theorem string_cases (quote : Char) (c : CodePoint) (cs : List CodePoint) :
    (c = quote.toNat ∧ string quote (c :: cs) = .token .escapedCharacter 2) ∨
      (c = quote.toNat ∧ string quote (c :: cs) = (Step.token .stringLiteralEnd 1).moving .pop) ∨
      (c = '&'.toNat ∧ string quote (c :: cs) = reference cs) ∨
      (c ≠ quote.toNat ∧ c ≠ '&'.toNat ∧
        string quote (c :: cs) = .token .stringLiteralContents (1 + contents quote cs)) := by
  by_cases hquote : c = quote.toNat
  · cases hnext : next quote cs with
    | true => exact .inl ⟨hquote, by simp [string, hquote, hnext]⟩
    | false => exact .inr (.inl ⟨hquote, by simp [string, hquote, hnext]⟩)
  · by_cases hamp : c = '&'.toNat
    · refine .inr (.inr (.inl ⟨hamp, ?_⟩))
      rw [string, if_neg (mt beq_iff_eq.mp hquote), if_pos (beq_iff_eq.mpr hamp)]
    · refine .inr (.inr (.inr ⟨hquote, hamp, ?_⟩))
      rw [string, if_neg (mt beq_iff_eq.mp hquote), if_neg (mt beq_iff_eq.mp hamp)]

theorem bracedUri_cases (c : CodePoint) (cs : List CodePoint) :
    (c = '\x7d'.toNat ∧
        bracedUri (c :: cs) = (Step.token .bracedUriLiteralEnd 1).moving .pop) ∨
      (c = '&'.toNat ∧ bracedUri (c :: cs) = reference cs) ∨
      (c ≠ '\x7d'.toNat ∧ c ≠ '&'.toNat ∧
        bracedUri (c :: cs) = .token .stringLiteralContents (1 + contents '\x7d' cs)) := by
  by_cases hbrace : c = '\x7d'.toNat
  · exact .inl ⟨hbrace, by simp [bracedUri, hbrace]⟩
  · by_cases hamp : c = '&'.toNat
    · exact .inr (.inl ⟨hamp, by rw [hamp]; rfl⟩)
    · refine .inr (.inr ⟨hbrace, hamp, ?_⟩)
      rw [bracedUri, if_neg (mt beq_iff_eq.mp hbrace), if_neg (mt beq_iff_eq.mp hamp)]

/-- Whether the end tag of a comment is ahead. -/
def atCommentEnd (cs : List CodePoint) : Bool := next ':' cs && next ')' cs.tail

theorem comment_cases (c : CodePoint) (cs : List CodePoint) :
    (atCommentEnd (c :: cs) = true ∧
        comment (c :: cs) = (Step.token .commentEndTag 2).moving .pop) ∨
      (∃ length, commentText 0 (c :: cs) = (length, true) ∧
        comment (c :: cs) = .token .comment length) ∨
      (∃ length, commentText 0 (c :: cs) = (length, false) ∧
        comment (c :: cs) = .token .partialComment length) := by
  generalize hstep : comment (c :: cs) = step
  unfold comment at hstep
  split at hstep
  · next hempty => cases hempty
  · split at hstep
    · next hend => exact .inl ⟨hend, hstep.symm⟩
    · split at hstep
      · next length htext => exact .inr (.inl ⟨length, htext, hstep.symm⟩)
      · next length htext => exact .inr (.inr ⟨length, htext, hstep.symm⟩)

theorem docMarker_cases (c : CodePoint) (cs : List CodePoint) :
    docMarker (c :: cs)
        = (Step.token .docCommentMarker 1).moving (.replace Mode.comment.code) ∨
      docMarker (c :: cs) = (Step.token .commentEndTag 2).moving .pop ∨
      (∃ length, commentText 0 (c :: cs) = (length, true) ∧ docMarker (c :: cs)
        = (Step.token .comment length).moving (.replace Mode.comment.code)) ∨
      (∃ length, commentText 0 (c :: cs) = (length, false) ∧ docMarker (c :: cs)
        = (Step.token .partialComment length).moving (.replace Mode.comment.code)) := by
  unfold docMarker
  split
  · exact .inl rfl
  · rcases comment_cases c cs with ⟨_, heq⟩ | ⟨length, htext, heq⟩ | ⟨length, htext, heq⟩
    · rw [heq]
      exact .inr (.inl rfl)
    · rw [heq]
      exact .inr (.inr (.inl ⟨length, htext, rfl⟩))
    · rw [heq]
      exact .inr (.inr (.inr ⟨length, htext, rfl⟩))

theorem pragmaNamePart_cases (c : CodePoint) (cs : List CodePoint) :
    ∃ kind length, kind.isPragmaName ∧ pragmaNamePart c cs = .token kind length := by
  unfold pragmaNamePart
  split
  · exact ⟨.ncName, _, rfl, rfl⟩
  · exact ⟨.qnameSeparator, _, rfl, rfl⟩
  · exact ⟨.badCharacter, _, rfl, rfl⟩

theorem pragmaStart_cases (c : CodePoint) (cs : List CodePoint) :
    pragmaStart (c :: cs) = pragmaEnd ∨
      (CharClass.of c = .whitespace ∧
        pragmaStart (c :: cs) = .token .whiteSpace (1 + blanks cs)) ∨
      (∃ kind length, kind.isPragmaName ∧ pragmaStart (c :: cs)
        = (Step.token kind length).moving (.replace Mode.pragmaName.code)) := by
  unfold pragmaStart
  split
  · exact .inl rfl
  · simp only
    split
    · next hclass => exact .inr (.inl ⟨hclass, rfl⟩)
    · obtain ⟨kind, length, hkind, heq⟩ := pragmaNamePart_cases c cs
      rw [heq]
      exact .inr (.inr ⟨kind, length, hkind, rfl⟩)

theorem pragmaName_cases (c : CodePoint) (cs : List CodePoint) :
    pragmaName (c :: cs) = pragmaEnd ∨
      pragmaName (c :: cs) = (Step.token .whiteSpace (1 + blanks cs)).moving
        (.replace Mode.pragmaContents.code) ∨
      ∃ kind length, kind.isPragmaName ∧ pragmaName (c :: cs) = .token kind length := by
  unfold pragmaName
  split
  · exact .inl rfl
  · simp only
    split
    · exact .inr (.inl rfl)
    · exact .inr (.inr (pragmaNamePart_cases c cs))

theorem pragmaContents_cases (c : CodePoint) (cs : List CodePoint) :
    pragmaContents (c :: cs) = pragmaEnd ∨
      (atPragmaEnd (c :: cs) = false ∧
        pragmaContents (c :: cs) = .token .pragmaContents (pragmaText (c :: cs))) := by
  unfold pragmaContents
  split
  · exact .inl rfl
  · next hend => exact .inr ⟨by simpa using hend, rfl⟩

/-! ## The mode behind a token -/

variable {cs : List CodePoint}

theorem string_next {quote : Char} {d : CodePoint} (h : (string quote (d :: cs)).kind = some k)
    (state : Nat) : (string quote (d :: cs)).move.next state
      = if k = .stringLiteralEnd then Mode.plain.code else state := by
  rcases string_cases quote d cs with ⟨_, heq⟩ | ⟨_, heq⟩ | ⟨_, heq⟩ | ⟨_, _, heq⟩
  · rw [heq] at h ⊢
    cases h
    rfl
  · rw [heq] at h ⊢
    cases h
    rfl
  · rw [heq] at h ⊢
    rw [reference_move]
    rcases reference_kind h with rfl | rfl | rfl | rfl <;> rfl
  · rw [heq] at h ⊢
    cases h
    rfl

theorem bracedUri_next {d : CodePoint} (h : (bracedUri (d :: cs)).kind = some k) (state : Nat) :
    (bracedUri (d :: cs)).move.next state
      = if k = .bracedUriLiteralEnd then Mode.plain.code else state := by
  rcases bracedUri_cases d cs with ⟨_, heq⟩ | ⟨_, heq⟩ | ⟨_, _, heq⟩
  · rw [heq] at h ⊢
    cases h
    rfl
  · rw [heq] at h ⊢
    rw [reference_move]
    rcases reference_kind h with rfl | rfl | rfl | rfl <;> rfl
  · rw [heq] at h ⊢
    cases h
    rfl

theorem comment_next {d : CodePoint} (h : (comment (d :: cs)).kind = some k) (state : Nat) :
    (comment (d :: cs)).move.next state
      = if k = .commentEndTag then Mode.plain.code else state := by
  rcases comment_cases d cs with ⟨_, heq⟩ | ⟨_, _, heq⟩ | ⟨_, _, heq⟩
  all_goals
    rw [heq] at h ⊢
    cases h
    rfl

theorem docMarker_next {d : CodePoint} (h : (docMarker (d :: cs)).kind = some k) (state : Nat) :
    (docMarker (d :: cs)).move.next state
      = if k = .commentEndTag then Mode.plain.code else Mode.comment.code := by
  rcases docMarker_cases d cs with heq | heq | ⟨_, _, heq⟩ | ⟨_, _, heq⟩
  all_goals
    rw [heq] at h ⊢
    cases h
    rfl

theorem isPragmaName_ne (h : k.isPragmaName) : k ≠ .pragmaEnd ∧ k ≠ .whiteSpace := by
  constructor
  · rintro rfl
    cases h
  · rintro rfl
    cases h

theorem pragmaStart_next {d : CodePoint} (h : (pragmaStart (d :: cs)).kind = some k) :
    (pragmaStart (d :: cs)).move.next Mode.pragmaStart.code
      = if k = .pragmaEnd then Mode.plain.code else (Mode.pragmaStart.within k).code := by
  rcases pragmaStart_cases d cs with heq | ⟨_, heq⟩ | ⟨kind, _, hkind, heq⟩
  · rw [heq] at h ⊢
    cases h
    rfl
  · rw [heq] at h ⊢
    cases h
    rfl
  · rw [heq] at h ⊢
    cases h
    obtain ⟨hend, hblank⟩ := isPragmaName_ne hkind
    rw [if_neg hend, Mode.within, if_neg hblank]
    rfl

theorem pragmaName_next {d : CodePoint} (h : (pragmaName (d :: cs)).kind = some k) :
    (pragmaName (d :: cs)).move.next Mode.pragmaName.code
      = if k = .pragmaEnd then Mode.plain.code else (Mode.pragmaName.within k).code := by
  rcases pragmaName_cases d cs with heq | heq | ⟨kind, _, hkind, heq⟩
  · rw [heq] at h ⊢
    cases h
    rfl
  · rw [heq] at h ⊢
    cases h
    rfl
  · rw [heq] at h ⊢
    cases h
    obtain ⟨hend, hblank⟩ := isPragmaName_ne hkind
    rw [if_neg hend, Mode.within, if_neg hblank]
    rfl

theorem pragmaContents_next {d : CodePoint} (h : (pragmaContents (d :: cs)).kind = some k)
    (state : Nat) : (pragmaContents (d :: cs)).move.next state
      = if k = .pragmaEnd then Mode.plain.code else state := by
  rcases pragmaContents_cases d cs with heq | ⟨_, heq⟩
  all_goals
    rw [heq] at h ⊢
    cases h
    rfl

/-- Inside a construct the closing token leads back to plain text and no other token does. -/
theorem scan_next (hmode : mode.construct = some c) {d : CodePoint}
    (h : (scan mode (d :: cs)).kind = some k) :
    (scan mode (d :: cs)).move.next mode.code
      = if k = c.closing then Mode.plain.code else (mode.within k).code := by
  cases mode with
  | plain => cases hmode
  | quoted | apostrophed =>
    cases hmode
    exact string_next h _
  | bracedUri =>
    cases hmode
    exact bracedUri_next h _
  | comment =>
    cases hmode
    exact comment_next h _
  | docMarker =>
    cases hmode
    exact docMarker_next h _
  | pragmaStart =>
    cases hmode
    exact pragmaStart_next h
  | pragmaName =>
    cases hmode
    exact pragmaName_next h
  | pragmaContents =>
    cases hmode
    exact pragmaContents_next h _

/-! ## Tokens are as long as possible -/

/-- Behind a run of code points stands none that the run could have taken. -/
theorem takeWhile_stop {p : CodePoint → Bool} {d : CodePoint} {rest : List CodePoint}
    (h : cs.drop (cs.takeWhile p).length = d :: rest) : p d = false := by
  induction cs with
  | nil => simp at h
  | cons e cs ih =>
    by_cases he : p e = true
    · rw [List.takeWhile_cons_of_pos he] at h
      exact ih h
    · rw [List.takeWhile_cons_of_neg he] at h
      cases h
      simpa using he

theorem string_contents {quote : Char} {d : CodePoint}
    (h : (string quote (d :: cs)).kind = some .stringLiteralContents) :
    d ≠ quote.toNat ∧ d ≠ '&'.toNat ∧
      (string quote (d :: cs)).length = 1 + contents quote cs := by
  rcases string_cases quote d cs with ⟨_, heq⟩ | ⟨_, heq⟩ | ⟨_, heq⟩ | ⟨hquote, hamp, heq⟩
  · rw [heq] at h
    cases h
  · rw [heq] at h
    cases h
  · rw [heq] at h
    rcases reference_kind h with heq | heq | heq | heq <;> cases heq
  · exact ⟨hquote, hamp, by rw [heq, Step.token_length]⟩

theorem bracedUri_contents {d : CodePoint}
    (h : (bracedUri (d :: cs)).kind = some .stringLiteralContents) :
    d ≠ '\x7d'.toNat ∧ d ≠ '&'.toNat ∧
      (bracedUri (d :: cs)).length = 1 + contents '\x7d' cs := by
  rcases bracedUri_cases d cs with ⟨_, heq⟩ | ⟨_, heq⟩ | ⟨hbrace, hamp, heq⟩
  · rw [heq] at h
    cases h
  · rw [heq] at h
    rcases reference_kind h with heq | heq | heq | heq <;> cases heq
  · exact ⟨hbrace, hamp, by rw [heq, Step.token_length]⟩

theorem pragmaStart_blanks {d : CodePoint}
    (h : (pragmaStart (d :: cs)).kind = some .whiteSpace) :
    CharClass.of d = .whitespace ∧ (pragmaStart (d :: cs)).length = 1 + blanks cs := by
  rcases pragmaStart_cases d cs with heq | ⟨hclass, heq⟩ | ⟨kind, _, hkind, heq⟩
  · rw [heq] at h
    cases h
  · exact ⟨hclass, by rw [heq, Step.token_length]⟩
  · rw [heq] at h
    cases h
    exact absurd rfl (isPragmaName_ne hkind).2

/-- A token that takes a run behind its first code point is not followed by another such token,
whose first code point would have been part of the run. -/
theorem run_apart {f : List CodePoint → Step} {run : Kind} {p : CodePoint → Bool}
    (hnil : (f []).kind ≠ some run)
    (hf : ∀ {d cs}, (f (d :: cs)).kind = some run →
      p d = true ∧ (f (d :: cs)).length = 1 + (cs.takeWhile p).length)
    (h : (f cs).kind = some run) : (f (cs.drop (f cs).length)).kind ≠ some run := by
  intro h'
  cases cs with
  | nil => exact hnil h
  | cons d cs =>
    rw [(hf h).2, Nat.add_comm, List.drop_succ_cons] at h'
    cases hrest : cs.drop (cs.takeWhile p).length with
    | nil =>
      rw [hrest] at h'
      exact hnil h'
    | cons e rest =>
      rw [hrest] at h'
      have hstop := takeWhile_stop hrest
      rw [(hf h').1] at hstop
      cases hstop

theorem string_apart {quote : Char} (h : (string quote cs).kind = some .stringLiteralContents) :
    (string quote (cs.drop (string quote cs).length)).kind ≠ some .stringLiteralContents := by
  refine run_apart (p := fun c => c != quote.toNat && c != '&'.toNat) nofun (fun h => ?_) h
  obtain ⟨hquote, hamp, hlength⟩ := string_contents h
  exact ⟨by simp only [bne_iff_ne.mpr hquote, bne_iff_ne.mpr hamp, Bool.and_self], hlength⟩

theorem bracedUri_apart (h : (bracedUri cs).kind = some .stringLiteralContents) :
    (bracedUri (cs.drop (bracedUri cs).length)).kind ≠ some .stringLiteralContents := by
  refine run_apart (p := fun c => c != '\x7d'.toNat && c != '&'.toNat) nofun (fun h => ?_) h
  obtain ⟨hbrace, hamp, hlength⟩ := bracedUri_contents h
  exact ⟨by simp only [bne_iff_ne.mpr hbrace, bne_iff_ne.mpr hamp, Bool.and_self], hlength⟩

theorem pragmaStart_apart (h : (pragmaStart cs).kind = some .whiteSpace) :
    (pragmaStart (cs.drop (pragmaStart cs).length)).kind ≠ some .whiteSpace := by
  refine run_apart (p := fun c => CharClass.of c == .whitespace) nofun (fun h => ?_) h
  obtain ⟨hclass, hlength⟩ := pragmaStart_blanks h
  exact ⟨beq_iff_eq.mpr hclass, hlength⟩

/-- The text of a closed comment ends in front of an end tag. -/
theorem atCommentEnd_drop (depth : Nat) (cs : List CodePoint)
    (h : (commentText depth cs).2 = true) :
    atCommentEnd (cs.drop (commentText depth cs).1) = true := by
  fun_induction commentText depth cs with
  | case1 => cases h
  | case2 => cases h
  | case3 depth c d cs hopen length closed htext ih =>
    rw [htext] at ih
    exact ih h
  | case4 c d cs hopen hclose => exact hclose
  | case5 c d cs hopen hclose depth length closed htext ih =>
    rw [htext] at ih
    exact ih h
  | case6 depth c d cs hopen hclose length closed htext ih =>
    rw [htext] at ih
    exact ih h

/-- The text of a comment that is not closed goes on to the end. -/
theorem drop_commentText (depth : Nat) (cs : List CodePoint)
    (h : (commentText depth cs).2 = false) : cs.drop (commentText depth cs).1 = [] := by
  fun_induction commentText depth cs with
  | case1 => rfl
  | case2 => rfl
  | case3 depth c d cs hopen length closed htext ih =>
    rw [htext] at ih
    exact ih h
  | case4 c d cs hopen hclose => cases h
  | case5 c d cs hopen hclose depth length closed htext ih =>
    rw [htext] at ih
    exact ih h
  | case6 depth c d cs hopen hclose length closed htext ih =>
    rw [htext] at ih
    exact ih h

theorem comment_kind_of_atCommentEnd (h : atCommentEnd cs = true) :
    (comment cs).kind = some .commentEndTag := by
  cases cs with
  | nil => cases h
  | cons d cs =>
    have hcomment : comment (d :: cs)
        = if atCommentEnd (d :: cs) then (Step.token .commentEndTag 2).moving .pop else _ := rfl
    rw [hcomment, if_pos h]
    rfl

/-- The two modes in which a comment's text may start read the same text. -/
theorem scan_commentText (closed : Bool) (hmode : mode = .comment ∨ mode = .docMarker)
    (h : (scan mode cs).kind = some (if closed then .comment else .partialComment)) :
    commentText 0 cs = ((scan mode cs).length, closed) := by
  cases cs with
  | nil =>
    rcases hmode with rfl | rfl
    all_goals cases h
  | cons d cs =>
    have hcomment : ∀ {length closed'}, commentText 0 (d :: cs) = (length, closed') →
        (scan mode (d :: cs)).kind = some (if closed' then .comment else .partialComment) →
        (scan mode (d :: cs)).length = length →
        commentText 0 (d :: cs) = ((scan mode (d :: cs)).length, closed) := by
      intro length closed' htext hkind hlength
      rw [hlength, htext]
      rw [hkind] at h
      cases closed <;> cases closed' <;> first | rfl | cases h
    rcases hmode with rfl | rfl
    · rcases comment_cases d cs with ⟨_, heq⟩ | ⟨length, htext, heq⟩ | ⟨length, htext, heq⟩
      · rw [scan, heq] at h
        cases closed <;> cases h
      · exact hcomment htext (by rw [scan, heq]; rfl) (by rw [scan, heq]; rfl)
      · exact hcomment htext (by rw [scan, heq]; rfl) (by rw [scan, heq]; rfl)
    · rcases docMarker_cases d cs with heq | heq | ⟨length, htext, heq⟩ | ⟨length, htext, heq⟩
      · rw [scan, heq] at h
        cases closed <;> cases h
      · rw [scan, heq] at h
        cases closed <;> cases h
      · exact hcomment htext (by rw [scan, heq]; rfl) (by rw [scan, heq]; rfl)
      · exact hcomment htext (by rw [scan, heq]; rfl) (by rw [scan, heq]; rfl)

/-- The contents of a pragma end with the text or in front of an end tag. -/
theorem drop_pragmaText (cs : List CodePoint) :
    cs.drop (pragmaText cs) = [] ∨ atPragmaEnd (cs.drop (pragmaText cs)) = true := by
  fun_induction pragmaText cs with
  | case1 => exact .inl rfl
  | case2 c cs hend => exact .inr hend
  | case3 c cs hend ih => exact ih

theorem pragmaContents_apart (h : (pragmaContents cs).kind = some .pragmaContents) :
    (pragmaContents (cs.drop (pragmaContents cs).length)).kind ≠ some .pragmaContents := by
  cases cs with
  | nil => cases h
  | cons d cs =>
    rcases pragmaContents_cases d cs with heq | ⟨_, heq⟩
    · rw [heq] at h
      cases h
    · rw [heq, Step.token_length]
      rcases drop_pragmaText (d :: cs) with hnil | hend
      · rw [hnil]
        exact nofun
      · rw [pragmaContents, if_pos hend]
        exact nofun

theorem scan_comment_within (hmode : mode = .comment ∨ mode = .docMarker)
    (h : (scan mode cs).kind = some .comment) :
    (scan (mode.within .comment) (cs.drop (scan mode cs).length)).kind
      = some .commentEndTag := by
  have htext := scan_commentText true hmode h
  have hend := atCommentEnd_drop 0 cs (by rw [htext])
  rw [htext] at hend
  rcases hmode with rfl | rfl
  · exact comment_kind_of_atCommentEnd hend
  · exact comment_kind_of_atCommentEnd hend

/-- Inside a construct no two tokens stand side by side that could have been one. -/
theorem scan_apart (hmode : mode.construct = some c) {k' : Kind}
    (h : (scan mode cs).kind = some k)
    (h' : (scan (mode.within k) (cs.drop (scan mode cs).length)).kind = some k') :
    k.fuses k' = false := by
  have hyields := scan_kind h
  have hyields' := scan_kind h'
  refine Bool.eq_false_iff.mpr fun hfuses => ?_
  rcases Kind.eq_of_fuses hfuses with ⟨rfl, rfl⟩ | ⟨rfl, rfl⟩ | ⟨rfl, hk'⟩ | ⟨rfl, rfl⟩
  · cases mode with
    | quoted | apostrophed => exact string_apart h h'
    | bracedUri => exact bracedUri_apart h h'
    | _ => cases hyields
  · cases mode with
    | plain => cases hmode
    | pragmaStart => exact pragmaStart_apart h h'
    | pragmaName => cases hyields'
    | _ => cases hyields
  · have hcomment : mode = .comment ∨ mode = .docMarker := by
      cases mode with
      | comment => exact .inl rfl
      | docMarker => exact .inr rfl
      | _ => cases hyields
    rw [scan_comment_within hcomment h] at h'
    rcases hk' with rfl | rfl
    all_goals cases h'
  · cases mode with
    | pragmaContents => exact pragmaContents_apart h h'
    | _ => cases hyields

theorem Mode.yields_comment (h : mode.yields .partialComment) :
    (mode = .comment ∨ mode = .docMarker) ∧ mode.yields .comment := by
  cases mode with
  | comment => exact ⟨.inl rfl, rfl⟩
  | docMarker => exact ⟨.inr rfl, rfl⟩
  | _ => cases h

/-- Nothing follows a comment that is not closed. -/
theorem drop_partialComment (h : (scan mode cs).kind = some .partialComment) :
    cs.drop (scan mode cs).length = [] := by
  have htext := scan_commentText false (Mode.yields_comment (scan_kind h)).1 h
  have hdrop := drop_commentText 0 cs (by rw [htext])
  rw [htext] at hdrop
  exact hdrop

/-! ## Plain text -/

theorem exponent_not_opening {kind : Kind} (hkind : kind ∉ Construct.openings) {length : Nat}
    (h : (exponent kind length cs).kind = some k) : k ∉ Construct.openings := by
  rcases exponent_kind h with rfl | rfl | rfl
  · exact hkind
  · decide
  · decide

theorem number_not_opening (h : (number cs).kind = some k) : k ∉ Construct.openings := by
  simp only [number] at h
  split at h
  · split at h
    · exact exponent_not_opening (by decide) h
    · exact exponent_not_opening (by decide) h
  · exact exponent_not_opening (by decide) h

theorem dot_not_opening (h : (dot cs).kind = some k) : k ∉ Construct.openings := by
  unfold dot at h
  split at h
  · cases h
    decide
  · split at h
    · cases h
      decide
    · exact exponent_not_opening (by decide) h

/-- The mode in which the body of a construct is read. -/
structure Mode.Begins (mode : Mode) (c : Construct) : Prop where
  construct : mode.construct = some c
  body : ∀ ks, mode.Inside ks → c.Body ks

theorem comment_begins (documented : Bool) :
    (if documented then Mode.docMarker else Mode.comment).Begins .comment := by
  cases documented with
  | true => exact ⟨rfl, fun _ h => h⟩
  | false => exact ⟨rfl, fun ks h => ⟨[], ks, .inl rfl, h, rfl⟩⟩

/-- The step reads a token of plain text and stays there, or it enters a construct. -/
def Enters (step : Step) (k : Kind) : Prop :=
  (k ∉ Construct.openings ∧ step.move = .keep) ∨
    ∃ (c : Construct) (mode : Mode), k = c.opening ∧ mode.Begins c ∧ step.move = .push mode.code

theorem name_enters {d : CodePoint} (h : (name d cs).kind = some k) : Enters (name d cs) k := by
  unfold name at h ⊢
  split at h
  · next hbrace =>
      cases h
      rw [if_pos hbrace]
      exact .inr ⟨.bracedUri, .bracedUri, rfl, ⟨rfl, fun _ h => h⟩, rfl⟩
  · next hbrace =>
      rw [if_neg hbrace]
      refine .inl ⟨?_, rfl⟩
      simp only [Step.token_kind, Option.some.injEq] at h
      subst h
      unfold nameKind
      split
      · simp [Construct.openings, Construct.opening]
      · decide

theorem parenthesis_enters (h : (parenthesis cs).kind = some k) : Enters (parenthesis cs) k := by
  unfold parenthesis at h ⊢
  split at h
  · next hcolon =>
      cases h
      rw [if_pos hcolon]
      exact .inr ⟨.comment, _, rfl, comment_begins _, rfl⟩
  · next hcolon =>
      rw [if_neg hcolon]
      split at h
      · next hhash =>
          cases h
          rw [if_pos hhash]
          exact .inr ⟨.pragma, .pragmaStart, rfl, ⟨rfl, fun _ h => h⟩, rfl⟩
      · next hhash =>
          cases h
          rw [if_neg hhash]
          exact .inl ⟨by decide, rfl⟩

theorem plain_enters (h : (plain cs).kind = some k) : Enters (plain cs) k := by
  cases cs with
  | nil => cases h
  | cons d cs =>
    simp only [plain] at h ⊢
    cases hd : CharClass.of d with
    | dot => rw [hd] at h; exact .inl ⟨dot_not_opening h, dot_move cs⟩
    | digit => rw [hd] at h; exact .inl ⟨number_not_opening h, number_move cs⟩
    | nameStartChar => rw [hd] at h; exact name_enters h
    | parenthesisOpen => rw [hd] at h; exact parenthesis_enters h
    | quote =>
      rw [hd] at h
      cases h
      exact .inr ⟨.string, .quoted, rfl, ⟨rfl, fun _ h => h⟩, rfl⟩
    | apostrophe =>
      rw [hd] at h
      cases h
      exact .inr ⟨.string, .apostrophed, rfl, ⟨rfl, fun _ h => h⟩, rfl⟩
    | colon | hash | exclamationMark | equal | lessThan | greaterThan | verticalBar
    | forwardSlash =>
      rw [hd] at h
      exact .inl ⟨operator_kind (P := (· ∉ Construct.openings)) (by decide) (by decide) h,
        operator_move _ _ cs⟩
    | endOfBuffer => rw [hd] at h; cases h
    | _ =>
      rw [hd] at h
      cases h
      exact .inl ⟨by decide, rfl⟩

/-! ## Whole runs -/

/-- The first token of a run is what the rule reads. -/
theorem runs_head {offset state : Nat} {ts : List Token}
    (h : rule.reader.Runs offset state cs ts) :
    (ts.map Token.kind).head? = (rule state cs).kind := by
  cases h with
  | done hnone => exact (Option.map_eq_none_iff.mp hnone).symm
  | more hsome => exact (Rule.reader_eq_some hsome).1.symm

/-- A run in a mode: segments from plain text on, and from inside a construct the rest of it. -/
def Mode.Run (mode : Mode) (ks : List Kind) : Prop :=
  match mode.construct with
  | none => Segmented ks
  | some c => mode.Continues c ks

theorem Mode.Run.nil (mode : Mode) : mode.Run [] := by
  unfold Mode.Run
  split
  · exact .nil
  · next c hmode => exact .cut [] (Mode.inside_nil hmode)

theorem Mode.Run.continues (hmode : mode.construct = some c) (h : mode.Run ks) :
    mode.Continues c ks := by
  simpa only [Mode.Run, hmode] using h

/-- One token of plain text in front of a run behind it. -/
theorem plain_run_cons (h : (plain cs).kind = some k)
    (hrun : ∀ mode : Mode, (plain cs).move.next Mode.plain.code = mode.code → mode.Run ks) :
    Segmented (k :: ks) := by
  rcases plain_enters h with ⟨hopening, hmove⟩ | ⟨c, mode, rfl, hbegins, hmove⟩
  · have hks : Mode.plain.Run ks := hrun .plain (by rw [hmove]; rfl)
    exact Segmented.append (.single (plain_kind h) hopening) hks
  · have hks : mode.Run ks := hrun mode (by rw [hmove]; rfl)
    exact (hks.continues hbegins.construct).segmented hbegins.body

/-- One token inside a construct in front of a run behind it. -/
theorem construct_run_cons (hmode : mode.construct = some c) (h : (scan mode cs).kind = some k)
    (hhead : ∀ mode' : Mode, (scan mode cs).move.next mode.code = mode'.code →
      ks.head? = (scan mode' (cs.drop (scan mode cs).length)).kind)
    (hrun : ∀ mode' : Mode, (scan mode cs).move.next mode.code = mode'.code → mode'.Run ks) :
    mode.Continues c (k :: ks) := by
  have hnext : (scan mode cs).move.next mode.code
      = if k = c.closing then Mode.plain.code else (mode.within k).code := by
    cases cs with
    | nil => rw [(scan_nil_ends mode).kind] at h; cases h
    | cons d cs => exact scan_next hmode h
  by_cases hclosing : k = c.closing
  · have hks : Mode.plain.Run ks := hrun .plain (by rw [hnext, if_pos hclosing])
    rw [hclosing]
    exact .closed [] ks (Mode.inside_nil hmode) hks
  · rw [if_neg hclosing] at hnext
    have hhead := hhead _ hnext
    have hks := (hrun _ hnext).continues (mode.within_construct hmode k)
    by_cases hpartial : k = .partialComment
    · subst hpartial
      rw [drop_partialComment h, (scan_nil_ends _).kind, List.head?_eq_none_iff] at hhead
      subst hhead
      have hyields := (Mode.yields_comment (scan_kind h)).2
      have hcomment : Kind.comment ≠ c.closing := by cases c <;> exact nofun
      exact .unclosed [] [] (.cons hmode hyields hcomment nofun nofun
        (Mode.inside_nil (mode.within_construct hmode _)))
    · refine .cons hmode (scan_kind h) hclosing hpartial (fun k' hk' => ?_) hks
      rw [Option.mem_def, hhead] at hk'
      exact scan_apart hmode h hk'

/-- A run from any mode follows the grammar of that mode. -/
theorem runs_kinds {offset : Nat} {ts : List Token}
    (h : rule.reader.Runs offset mode.code cs ts) : mode.Run (ts.map Token.kind) := by
  -- the mode says what has to follow, so that it is all that the induction remembers of the past
  generalize hstate : mode.code = state at h
  induction h generalizing mode with
  | done => exact .nil mode
  | @more offset state cs rd ts hsome hruns ih =>
    subst hstate
    obtain ⟨hkind, hlength, -, hnext⟩ := Rule.reader_eq_some hsome
    rw [rule, Mode.ofCode_code] at hkind hlength hnext
    have hrun : ∀ mode' : Mode, (scan mode cs).move.next mode.code = mode'.code →
        mode'.Run (ts.map Token.kind) := fun mode' hmode' => ih (by rw [hnext, hmode'])
    show mode.Run (rd.kind :: ts.map Token.kind)
    cases hmode : mode.construct with
    | none =>
      have hplain : mode = .plain := by
        cases mode with
        | plain => rfl
        | _ => cases hmode
      subst hplain
      exact plain_run_cons hkind hrun
    | some c =>
      have hhead : ∀ mode' : Mode, (scan mode cs).move.next mode.code = mode'.code →
          (ts.map Token.kind).head? = (scan mode' (cs.drop (scan mode cs).length)).kind := by
        intro mode' hmode'
        rw [runs_head hruns, rule, hnext, hmode', Mode.ofCode_code, hlength]
      simpa only [Mode.Run, hmode] using construct_run_cons hmode hkind hhead hrun

end Expression

/-- The kinds of the tokens of any region, read from plain text on, are complete segments of which
only the last may be cut short. -/
theorem Lexer.expression_segmented (units : Array UInt16) (first last : Nat) :
    Segmented ((Lexer.expression.tokens units first last 0).map Token.kind) := by
  have hruns := Expression.account.tokens_runs Lexer.Tree.expression.progressive ⟨.plain, rfl⟩
    units first last
  exact Expression.runs_kinds hruns

end XQuery
