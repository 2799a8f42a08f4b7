import XQuery.Proofs.Lexer.Invariants
import XQuery.Proofs.Text.Cursor

/-!
# Progress

A rule that finds a token takes at least one code point and no more than
there are; one that finds none takes nothing. Lexers inherit this from their
rules: starting and advancing read one token from where the cursor stands,
and a combined lexer that hands over does so without moving the cursor.
-/

namespace XQuery

/-! ## Rules -/

/-- The step is a token of some of the `n` code points ahead. -/
structure Step.Takes (s : Step) (n : Nat) : Prop where
  isSome : s.kind.isSome
  length_pos : 0 < s.length
  length_le : s.length ≤ n

/-- The step is no token and takes nothing. -/
structure Step.Ends (s : Step) : Prop where
  kind : s.kind = none
  length : s.length = 0

/-- A rule whose steps take what is ahead or end. -/
def Rule.Progressive (rule : Rule) : Prop :=
  ∀ state cs, (rule state cs).Takes cs.length ∨ (rule state cs).Ends

/-- A rule that ends only where nothing is ahead. -/
def Rule.Exhaustive (rule : Rule) : Prop :=
  ∀ state cs, (rule state cs).kind = none → cs = []

namespace Step

@[simp] theorem moving_length (s : Step) (m : StackMove) : (s.moving m).length = s.length := rfl

@[simp] theorem moving_kind (s : Step) (m : StackMove) : (s.moving m).kind = s.kind := rfl

@[simp] theorem token_length (k : Kind) (l : Nat) : (token k l).length = l := rfl

@[simp] theorem token_kind (k : Kind) (l : Nat) : (token k l).kind = some k := rfl

theorem ends_exhausted : exhausted.Ends := ⟨rfl, rfl⟩

theorem takes_token {k : Kind} {l n : Nat} (hpos : 0 < l) (hle : l ≤ n) : (token k l).Takes n :=
  ⟨rfl, hpos, hle⟩

theorem Takes.mono {s : Step} {n n' : Nat} (h : s.Takes n) (hle : n ≤ n') : s.Takes n' :=
  ⟨h.isSome, h.length_pos, Nat.le_trans h.length_le hle⟩

theorem Takes.moving {s : Step} {n : Nat} (h : s.Takes n) (m : StackMove) :
    (s.moving m).Takes n := ⟨h.isSome, h.length_pos, h.length_le⟩

end Step

open Step (takes_token ends_exhausted)

namespace Expression

theorem length_pos_of_next {ch : Char} {cs : List CodePoint} (h : next ch cs = true) :
    0 < cs.length := by
  cases cs with
  | nil => simp [next] at h
  | cons c cs => simp

theorem count_le (p : CharClass → Bool) (cs : List CodePoint) : count p cs ≤ cs.length :=
  (List.takeWhile_prefix _).length_le

theorem digits_le (cs : List CodePoint) : digits cs ≤ cs.length := count_le _ _

theorem blanks_le (cs : List CodePoint) : blanks cs ≤ cs.length := count_le _ _

theorem nameChars_le (cs : List CodePoint) : nameChars cs ≤ cs.length := count_le _ _

theorem operator_takes (alone : Kind) (pairs : List (Char × Kind)) (cs : List CodePoint) :
    (operator alone pairs cs).Takes (cs.length + 1) := by
  unfold operator
  split
  · next ch kind hfind =>
      have hnext : next ch cs = true := by simpa using List.find?_some hfind
      have hcs := length_pos_of_next hnext
      exact takes_token (by omega) (by omega)
  · exact takes_token (by omega) (by omega)

theorem sign_le (cs : List CodePoint) : sign cs ≤ cs.length := by
  unfold sign
  split
  · next h =>
      rcases Bool.or_eq_true_iff.mp h with h | h
      · exact length_pos_of_next h
      · exact length_pos_of_next h
  · exact Nat.zero_le _

theorem exponent_takes (kind : Kind) {length : Nat} (hpos : 0 < length) (cs : List CodePoint) :
    (exponent kind length cs).Takes (length + cs.length) := by
  cases cs with
  | nil => exact takes_token hpos (Nat.le_refl _)
  | cons c cs =>
      have hsign := sign_le cs
      have hdrop : (cs.drop (sign cs)).length = cs.length - sign cs := List.length_drop
      simp only [exponent, List.length_cons]
      split
      · split
        · exact takes_token (by omega) (by omega)
        · next d ds hds =>
            have hdigits := digits_le ds
            rw [hds, List.length_cons] at hdrop
            split
            · exact takes_token (by omega) (by omega)
            · exact takes_token hpos (by omega)
            · exact takes_token (by omega) (by omega)
      · exact takes_token hpos (by omega)

theorem number_takes (cs : List CodePoint) : (number cs).Takes (cs.length + 1) := by
  have hwhole := digits_le cs
  have hdrop : (cs.drop (digits cs)).length = cs.length - digits cs := List.length_drop
  unfold number
  simp only
  split
  · next c rest hrest =>
      rw [hrest, List.length_cons] at hdrop
      split
      · have hfraction := digits_le rest
        refine (exponent_takes _ (by omega) _).mono ?_
        rw [List.length_drop]
        omega
      · refine (exponent_takes _ (by omega) _).mono ?_
        rw [List.length_cons]
        omega
  · exact (exponent_takes _ (by omega) _).mono (by simp only [List.length_nil]; omega)

theorem dot_takes (cs : List CodePoint) : (dot cs).Takes (cs.length + 1) := by
  unfold dot
  split
  · next hdot =>
      have hcs := length_pos_of_next hdot
      exact takes_token (by omega) (by omega)
  · have hdigits := digits_le cs
    split
    · exact takes_token (by omega) (by omega)
    · refine (exponent_takes _ (by omega) _).mono ?_
      rw [List.length_drop]
      omega

theorem name_takes (c : CodePoint) (cs : List CodePoint) : (name c cs).Takes (cs.length + 1) := by
  unfold name
  split
  · next hbrace =>
      have hcs := length_pos_of_next (Bool.and_eq_true_iff.mp hbrace).2
      exact (takes_token (by omega) (by omega)).moving _
  · have hname := nameChars_le cs
    exact takes_token (by omega) (by omega)

theorem parenthesis_takes (cs : List CodePoint) : (parenthesis cs).Takes (cs.length + 1) := by
  unfold parenthesis
  split
  · next hcolon =>
      have hcs := length_pos_of_next hcolon
      exact (takes_token (by omega) (by omega)).moving _
  · split
    · next hhash =>
        have hcs := length_pos_of_next hhash
        exact (takes_token (by omega) (by omega)).moving _
    · exact takes_token (by omega) (by omega)

theorem of_ne_endOfBuffer (c : CodePoint) : CharClass.of c ≠ .endOfBuffer := by
  unfold CharClass.of CharClass.punctuation
  repeat' split
  all_goals exact nofun

theorem plain_takes (c : CodePoint) (cs : List CodePoint) :
    (plain (c :: cs)).Takes (cs.length + 1) := by
  have hblanks := blanks_le cs
  have hone : 1 ≤ cs.length + 1 := Nat.le_add_left _ _
  have hclass := of_ne_endOfBuffer c
  simp only [plain]
  cases hc : CharClass.of c with
  | endOfBuffer => exact absurd hc hclass
  | whitespace => exact takes_token (by omega) (by omega)
  | dot => exact dot_takes cs
  | digit => exact number_takes cs
  | nameStartChar => exact name_takes c cs
  | parenthesisOpen => exact parenthesis_takes cs
  | quote | apostrophe => exact (takes_token Nat.one_pos hone).moving _
  | colon | hash | exclamationMark | equal | lessThan | greaterThan | verticalBar
  | forwardSlash => exact operator_takes _ _ cs
  | _ => exact takes_token Nat.one_pos hone

theorem closeReference_takes (closed : Kind) {length : Nat} (hpos : 0 < length)
    (cs : List CodePoint) : (closeReference closed length cs).Takes (length + cs.length) := by
  unfold closeReference
  split
  · next hsemicolon =>
      have hcs := length_pos_of_next hsemicolon
      exact takes_token (by omega) (by omega)
  · exact takes_token hpos (Nat.le_add_right _ _)

theorem reference_takes (cs : List CodePoint) : (reference cs).Takes (cs.length + 1) := by
  cases cs with
  | nil => exact takes_token Nat.one_pos (Nat.le_refl _)
  | cons c cs =>
      simp only [reference, List.length_cons]
      split
      · have hname := nameChars_le cs
        refine (closeReference_takes _ (by omega) _).mono ?_
        rw [List.length_drop]
        omega
      · split
        · next hx =>
            have hcs := length_pos_of_next hx
            have hhex := (List.takeWhile_prefix isHexDigit (l := cs.tail)).length_le
            refine (closeReference_takes _ (by omega) _).mono ?_
            rw [List.length_tail] at hhex
            rw [List.length_drop, List.length_tail]
            omega
        · have hdigits := digits_le cs
          refine (closeReference_takes _ (by omega) _).mono ?_
          rw [List.length_drop]
          omega
      · exact takes_token (by omega) (by omega)
      · exact takes_token (by omega) (by omega)

theorem contents_le (ch : Char) (cs : List CodePoint) : contents ch cs ≤ cs.length :=
  (List.takeWhile_prefix _).length_le

theorem string_takes (quote : Char) (c : CodePoint) (cs : List CodePoint) :
    (string quote (c :: cs)).Takes (cs.length + 1) := by
  simp only [string]
  split
  · split
    · next hquote =>
        have hcs := length_pos_of_next hquote
        exact takes_token (by omega) (by omega)
    · exact (takes_token (by omega) (by omega)).moving _
  · split
    · exact reference_takes cs
    · have hcontents := contents_le quote cs
      exact takes_token (by omega) (by omega)

theorem bracedUri_takes (c : CodePoint) (cs : List CodePoint) :
    (bracedUri (c :: cs)).Takes (cs.length + 1) := by
  simp only [bracedUri]
  split
  · exact (takes_token (by omega) (by omega)).moving _
  · split
    · exact reference_takes cs
    · have hcontents := contents_le '\x7d' cs
      exact takes_token (by omega) (by omega)

theorem commentText_le (depth : Nat) (cs : List CodePoint) :
    (commentText depth cs).1 ≤ cs.length := by
  fun_induction commentText depth cs with
  | case1 => exact Nat.le_refl _
  | case2 => exact Nat.le_refl _
  | case3 depth c d cs hopen length closed htext ih =>
      rw [htext] at ih
      simp only [List.length_cons] at ih ⊢
      omega
  | case4 c d cs hopen hclose => exact Nat.zero_le _
  | case5 c d cs hopen hclose depth length closed htext ih =>
      rw [htext] at ih
      simp only [List.length_cons] at ih ⊢
      omega
  | case6 depth c d cs hopen hclose length closed htext ih =>
      rw [htext] at ih
      simp only [List.length_cons] at ih ⊢
      omega

/-- The two code points of a delimiter are ahead. -/
theorem two_le_of_next_next {a b : Char} {cs : List CodePoint}
    (h : (next a cs && next b cs.tail) = true) : 2 ≤ cs.length := by
  have htail := length_pos_of_next (Bool.and_eq_true_iff.mp h).2
  rw [List.length_tail] at htail
  omega

theorem commentText_pos {c : CodePoint} {cs : List CodePoint}
    (hend : (next ':' (c :: cs) && next ')' cs) = false) : 0 < (commentText 0 (c :: cs)).1 := by
  cases cs with
  | nil => simp [commentText]
  | cons d cs =>
      simp only [next] at hend
      rw [commentText]
      split
      · exact Nat.succ_pos _
      · rw [if_neg (by rw [hend]; exact Bool.false_ne_true)]
        exact Nat.succ_pos _

theorem comment_takes (c : CodePoint) (cs : List CodePoint) :
    (comment (c :: cs)).Takes (cs.length + 1) := by
  unfold comment
  rw [if_neg (by simp)]
  by_cases hend : (next ':' (c :: cs) && next ')' cs) = true
  · rw [List.tail_cons, if_pos hend]
    exact (takes_token (by omega) (two_le_of_next_next hend)).moving _
  · rw [List.tail_cons, if_neg hend]
    have hpos := commentText_pos (by simpa using hend)
    have hle := commentText_le 0 (c :: cs)
    split
    · next length htext =>
        rw [htext] at hpos hle
        exact takes_token hpos hle
    · next length htext =>
        rw [htext] at hpos hle
        exact takes_token hpos hle

theorem docMarker_takes (c : CodePoint) (cs : List CodePoint) :
    (docMarker (c :: cs)).Takes (cs.length + 1) := by
  unfold docMarker
  split
  · exact (takes_token Nat.one_pos (Nat.le_add_left _ _)).moving _
  · simp only
    split
    · exact comment_takes c cs
    · exact (comment_takes c cs).moving _

theorem pragmaEnd_takes {cs : List CodePoint} (h : atPragmaEnd cs = true) :
    pragmaEnd.Takes cs.length :=
  (takes_token (by omega) (two_le_of_next_next h)).moving _

theorem pragmaNamePart_takes (c : CodePoint) (cs : List CodePoint) :
    (pragmaNamePart c cs).Takes (cs.length + 1) := by
  have hname := nameChars_le cs
  unfold pragmaNamePart
  split
  · exact takes_token (by omega) (by omega)
  · exact takes_token (by omega) (by omega)
  · exact takes_token (by omega) (by omega)

theorem pragmaStart_takes (c : CodePoint) (cs : List CodePoint) :
    (pragmaStart (c :: cs)).Takes (cs.length + 1) := by
  have hblanks := blanks_le cs
  unfold pragmaStart
  split
  · next hend => exact pragmaEnd_takes hend
  · simp only
    split
    · exact takes_token (by omega) (by omega)
    · exact (pragmaNamePart_takes c cs).moving _

theorem pragmaName_takes (c : CodePoint) (cs : List CodePoint) :
    (pragmaName (c :: cs)).Takes (cs.length + 1) := by
  have hblanks := blanks_le cs
  unfold pragmaName
  split
  · next hend => exact pragmaEnd_takes hend
  · simp only
    split
    · exact (takes_token (by omega) (by omega)).moving _
    · exact pragmaNamePart_takes c cs

theorem pragmaText_le (cs : List CodePoint) : pragmaText cs ≤ cs.length := by
  fun_induction pragmaText cs with
  | case1 => exact Nat.le_refl _
  | case2 => exact Nat.zero_le _
  | case3 c cs h ih => exact Nat.succ_le_succ ih

theorem pragmaContents_takes (c : CodePoint) (cs : List CodePoint) :
    (pragmaContents (c :: cs)).Takes (cs.length + 1) := by
  unfold pragmaContents
  split
  · next hend => exact pragmaEnd_takes hend
  · next hend =>
      refine takes_token ?_ (pragmaText_le (c :: cs))
      rw [pragmaText, if_neg hend]
      exact Nat.succ_pos _

theorem scan_takes (mode : Mode) (c : CodePoint) (cs : List CodePoint) :
    (scan mode (c :: cs)).Takes (cs.length + 1) := by
  cases mode with
  | plain => exact plain_takes c cs
  | quoted => exact string_takes _ c cs
  | apostrophed => exact string_takes _ c cs
  | comment => exact comment_takes c cs
  | pragmaStart => exact pragmaStart_takes c cs
  | pragmaName => exact pragmaName_takes c cs
  | pragmaContents => exact pragmaContents_takes c cs
  | bracedUri => exact bracedUri_takes c cs
  | docMarker => exact docMarker_takes c cs

theorem scan_nil_ends (mode : Mode) : (scan mode []).Ends := by
  cases mode <;> exact ⟨rfl, rfl⟩

theorem rule_progressive : Rule.Progressive rule := by
  intro state cs
  cases cs with
  | nil => exact .inr (scan_nil_ends _)
  | cons c cs => exact .inl (scan_takes _ c cs)

theorem rule_exhaustive : Rule.Exhaustive rule := by
  intro state cs hkind
  cases cs with
  | nil => rfl
  | cons c cs =>
      have hsome := (scan_takes (Mode.ofCode state) c cs).isSome
      rw [show scan (Mode.ofCode state) (c :: cs) = rule state (c :: cs) from rfl, hkind] at hsome
      cases hsome

end Expression

namespace Documentation

open Expression (nameChars_le two_le_of_next_next)

theorem lineText_le (depth : Nat) (cs : List CodePoint) : (lineText depth cs).1 ≤ cs.length := by
  fun_induction lineText depth cs with
  | case1 => exact Nat.le_refl _
  | case2 => exact Nat.zero_le _
  | case3 => exact Nat.le_refl _
  | case4 => exact Nat.zero_le _
  | case5 depth c d cs hbreak hopen length depth' htext ih =>
      rw [htext] at ih
      simp only [List.length_cons] at ih ⊢
      omega
  | case6 => exact Nat.zero_le _
  | case7 c d cs hbreak hopen hclose depth length depth' htext ih =>
      rw [htext] at ih
      simp only [List.length_cons] at ih ⊢
      omega
  | case8 depth c d cs hbreak hopen hclose length depth' htext ih =>
      rw [htext] at ih
      simp only [List.length_cons] at ih ⊢
      omega

theorem lineText_pos {depth : Nat} {c : CodePoint} {cs : List CodePoint}
    (hbreak : isLineBreak c = false) (hend : atTerminator depth (c :: cs) = false) :
    0 < (lineText depth (c :: cs)).1 := by
  cases cs with
  | nil => simp [lineText, hbreak]
  | cons d cs =>
      rw [lineText.eq_def]
      simp only [hbreak, Bool.false_eq_true, if_false]
      split
      · exact Nat.succ_pos _
      · split
        · next hclose =>
            cases depth with
            | zero =>
                -- the `:)` of the comment itself is where the body ends
                have hpair : atPair ':' ')' (c :: d :: cs) = true := hclose
                simp [atTerminator, hpair] at hend
            | succ depth => exact Nat.succ_pos _
        · exact Nat.succ_pos _

theorem takeWhile_le (p : CodePoint → Bool) (cs : List CodePoint) :
    (cs.takeWhile p).length ≤ cs.length := (List.takeWhile_prefix p).length_le

theorem takeWhile_pos {p : CodePoint → Bool} {c : CodePoint} (h : p c = true)
    (cs : List CodePoint) : 0 < ((c :: cs).takeWhile p).length := by
  simp [h]

theorem trim_takes (depth : Nat) {c : CodePoint} (cs : List CodePoint)
    (hbreak : isLineBreak c = true) : (trim depth (c :: cs)).Takes (c :: cs).length := by
  -- the run of line breaks begins with `c`; spaces and a colon may be missing
  have hpos := takeWhile_pos hbreak cs
  have hbreaks := takeWhile_le isLineBreak (c :: cs)
  unfold trim
  generalize hb : ((c :: cs).takeWhile isLineBreak).length = breaks at *
  have hspaces := takeWhile_le isInlineSpace ((c :: cs).drop breaks)
  rw [List.length_drop] at hspaces
  simp only
  generalize hs : (((c :: cs).drop breaks).takeWhile isInlineSpace).length = spaces at *
  refine (takes_token (by omega) ?_).moving _
  split
  · next hcolon =>
      have hahead := Expression.length_pos_of_next (Bool.and_eq_true_iff.mp hcolon).1
      simp only [List.length_drop] at hahead
      omega
  · omega

theorem line_takes {depth : Nat} {c : CodePoint} {cs : List CodePoint}
    (hbreak : isLineBreak c = false) (hend : atTerminator depth (c :: cs) = false) :
    (line depth (c :: cs)).Takes (c :: cs).length :=
  (takes_token (lineText_pos hbreak hend) (lineText_le depth _)).moving _

theorem contents_takes {depth : Nat} {c : CodePoint} {cs : List CodePoint}
    (hend : atTerminator depth (c :: cs) = false) :
    (contents depth (c :: cs)).Takes (c :: cs).length := by
  simp only [contents]
  split
  · next hbreak => exact trim_takes depth cs hbreak
  · next hbreak => exact line_takes (by simpa using hbreak) hend

theorem inlineSpace_takes {c : CodePoint} (hspace : isInlineSpace c = true) (cs : List CodePoint) :
    (inlineSpace (c :: cs)).Takes (c :: cs).length :=
  takes_token (takeWhile_pos hspace cs) (takeWhile_le _ _)

theorem lineStart_takes {depth : Nat} {c : CodePoint} {cs : List CodePoint}
    (hend : atTerminator depth (c :: cs) = false) :
    (lineStart depth (c :: cs)).Takes (c :: cs).length := by
  simp only [lineStart]
  split
  · next hbreak => exact trim_takes depth cs hbreak
  · next hbreak =>
      split
      · next hspace => exact inlineSpace_takes hspace cs
      · split
        · exact (takes_token Nat.one_pos (Nat.le_add_left _ _)).moving _
        · exact line_takes (by simpa using hbreak) hend

theorem tag_takes {depth : Nat} {c : CodePoint} {cs : List CodePoint}
    (hend : atTerminator depth (c :: cs) = false) :
    (tag depth (c :: cs)).Takes (c :: cs).length := by
  have hname := nameChars_le cs
  simp only [tag]
  split
  · exact (takes_token (by omega) (by rw [List.length_cons]; omega)).moving _
  · exact contents_takes hend

theorem paramStart_takes {depth : Nat} {c : CodePoint} {cs : List CodePoint}
    (hend : atTerminator depth (c :: cs) = false) :
    (paramStart depth (c :: cs)).Takes (c :: cs).length := by
  simp only [paramStart]
  split
  · next hspace => exact inlineSpace_takes hspace cs
  · split
    · exact (takes_token Nat.one_pos (Nat.le_add_left _ _)).moving _
    · exact contents_takes hend

theorem paramName_takes {depth : Nat} {c : CodePoint} {cs : List CodePoint}
    (hend : atTerminator depth (c :: cs) = false) :
    (paramName depth (c :: cs)).Takes (c :: cs).length := by
  have hname := nameChars_le cs
  simp only [paramName]
  split
  · exact (takes_token (by omega) (by rw [List.length_cons]; omega)).moving _
  · exact contents_takes hend

theorem scan_takes (mode : Mode) {depth : Nat} {cs : List CodePoint}
    (hend : atTerminator depth cs = false) : (scan mode depth cs).Takes cs.length := by
  cases cs with
  | nil => simp [atTerminator] at hend
  | cons c cs =>
      cases mode with
      | contents => exact contents_takes hend
      | lineStart => exact lineStart_takes hend
      | tag => exact tag_takes hend
      | paramStart => exact paramStart_takes hend
      | paramName => exact paramName_takes hend

theorem rule_progressive : Rule.Progressive rule := by
  intro state cs
  simp only [rule]
  split
  · exact .inr ends_exhausted
  · next hend => exact .inl (scan_takes _ (by simpa using hend))

end Documentation

/-! ## Lexers -/

/-- `d` is `c` after a token of this kind has been read, or after none was found. -/
def Cursor.Moves (c : Cursor) (kind : Option Kind) (d : Cursor) : Prop :=
  ∃ n, c.Reads n d ∧ n ≤ c.ahead.length ∧ (0 < n ↔ kind.isSome)

theorem Cursor.Moves.reads_zero {c d : Cursor} (h : c.Moves none d) : c.Reads 0 d := by
  obtain ⟨n, hread, _, hpos⟩ := h
  have hn : n = 0 := by
    simp only [Option.isSome_none, Bool.false_eq_true, iff_false] at hpos
    omega
  rwa [hn] at hread

theorem Cursor.Moves.of_resume {c d : Cursor} {kind : Option Kind} (h : c.resume.Moves kind d) :
    c.Moves kind d := by
  obtain ⟨n, ⟨hstart, hstop, hahead⟩, hle, hpos⟩ := h
  exact ⟨n, ⟨hstart, hstop, hahead⟩, hle, hpos⟩

/-- A lexer whose every step reads one token from where its cursor stands. -/
structure Lexer.Progressive (lexer : Lexer) : Prop where
  start : ∀ m (c : Cursor) state, c.Moves (lexer.kind (lexer.start m c state))
    (lexer.cursor (lexer.start m c state))
  advance : ∀ m, (lexer.cursor m).Moves (lexer.kind (lexer.advance m))
    (lexer.cursor (lexer.advance m))

/-- Reading by a rule takes as many code points as the rule says. -/
theorem Scanner.advance_reads (rule : Rule) (s : Scanner) :
    s.cursor.Reads (rule s.nextState s.cursor.ahead).length (s.advance rule).cursor :=
  Cursor.reads_skip _ _

theorem Scanner.advance_moves {rule : Rule} (hrule : rule.Progressive) (s : Scanner) :
    s.cursor.Moves (s.advance rule).token (s.advance rule).cursor := by
  refine ⟨_, s.advance_reads rule, ?_⟩
  rcases hrule s.nextState s.cursor.ahead with ⟨hsome, hpos, hle⟩ | ⟨hkind, hlength⟩
  · exact ⟨hle, iff_of_true hpos hsome⟩
  · rw [show (s.advance rule).token = none from hkind]
    refine ⟨?_, ?_⟩
    · exact Nat.le_trans (Nat.le_of_eq hlength) (Nat.zero_le _)
    · exact iff_of_false (Nat.not_lt.mpr (Nat.le_of_eq hlength)) nofun

theorem Lexer.ofRule_progressive {rule : Rule} (hrule : rule.Progressive) :
    (Lexer.ofRule rule).Progressive where
  start m c state := Scanner.advance_moves hrule (m.start c state)
  advance m := Scanner.advance_moves hrule m

/-- A lexer that is out of tokens only where nothing is ahead. -/
structure Lexer.Exhaustive (lexer : Lexer) : Prop where
  start : ∀ m c state, lexer.kind (lexer.start m c state) = none →
    (lexer.cursor (lexer.start m c state)).ahead = []
  advance : ∀ m, lexer.kind (lexer.advance m) = none →
    (lexer.cursor (lexer.advance m)).ahead = []

theorem Scanner.advance_ahead_eq_nil {rule : Rule} (hrule : rule.Exhaustive) (s : Scanner)
    (h : (s.advance rule).token = none) : (s.advance rule).cursor.ahead = [] := by
  have hahead : s.cursor.ahead = [] := hrule _ _ h
  rw [(s.advance_reads rule).ahead, hahead, List.drop_nil]

theorem Lexer.ofRule_exhaustive {rule : Rule} (hrule : rule.Exhaustive) :
    (Lexer.ofRule rule).Exhaustive where
  start m c state := Scanner.advance_ahead_eq_nil hrule (m.start c state)
  advance m := Scanner.advance_ahead_eq_nil hrule m

namespace Combined

variable {c : Combined}

/-- A sub-lexer without a token leaves the cursor where it was, so that the language lexer reads
from the same place. -/
theorem settle_moves (hlanguage : c.language.Progressive) {position : Cursor} {m : c.Memory}
    {i : c.Index} (hactive : m.active = some i)
    (h : position.Moves ((c.sub i).lexer.kind (m.subs i)) ((c.sub i).lexer.cursor (m.subs i))) :
    position.Moves (c.kind (c.settle m)) (c.cursor (c.settle m)) := by
  cases hkind : (c.sub i).lexer.kind (m.subs i) with
  | some k =>
      rw [settle_of_some hactive hkind]
      simpa only [kind, cursor, hactive] using h
  | none =>
      rw [hkind] at h
      rw [settle_of_none hactive hkind]
      simp only [kind, cursor]
      -- how far the language lexer reads from where the sub-lexer stopped
      obtain ⟨n, hread, hle, hpos⟩ :=
        hlanguage.start m.language ((c.sub i).lexer.cursor (m.subs i)).resume (c.sub i).parent
      have hzero := h.reads_zero
      refine ⟨n, hzero.resume hread, ?_, hpos⟩
      simpa [Cursor.resume, hzero.ahead] using hle

theorem enter_moves (hlanguage : c.language.Progressive)
    (hsubs : ∀ i, (c.sub i).lexer.Progressive) (m : c.Memory) (i : c.Index) (position : Cursor)
    (state : Nat) : position.Moves (c.kind (c.enter m i position state))
      (c.cursor (c.enter m i position state)) := by
  refine settle_moves hlanguage rfl ?_
  simpa only [Memory.setSub_self] using (hsubs i).start (m.subs i) position state

theorem lexer_progressive (hlanguage : c.language.Progressive)
    (hsubs : ∀ i, (c.sub i).lexer.Progressive) : c.lexer.Progressive where
  start m position state := by
    simp only [lexer, start]
    split
    · exact enter_moves hlanguage hsubs m _ position _
    · exact hlanguage.start m.language position _
  advance m := by
    obtain ⟨language, subs, _ | i⟩ := m
    · simp only [lexer, advance]
      split
      · exact (enter_moves hlanguage hsubs _ _ _ _).of_resume
      · exact hlanguage.advance language
    · refine settle_moves hlanguage rfl ?_
      simp only [Memory.setSub_self]
      exact (hsubs i).advance (subs i)

/-- Whenever a sub-lexer is out of tokens, the language lexer has the last word. -/
theorem settle_exhaustive (hlanguage : c.language.Exhaustive) {m : c.Memory} {i : c.Index}
    (hactive : m.active = some i) (h : c.kind (c.settle m) = none) :
    (c.cursor (c.settle m)).ahead = [] := by
  cases hkind : (c.sub i).lexer.kind (m.subs i) with
  | some k => simp [settle_of_some hactive hkind, kind, hactive, hkind] at h
  | none =>
      rw [settle_of_none hactive hkind] at h ⊢
      exact hlanguage.start _ _ _ h

theorem lexer_exhaustive (hlanguage : c.language.Exhaustive) : c.lexer.Exhaustive where
  start m position state := by
    simp only [lexer, start]
    split
    · exact settle_exhaustive hlanguage rfl
    · exact hlanguage.start _ _ _
  advance m := by
    obtain ⟨language, subs, _ | i⟩ := m
    · simp only [lexer, advance]
      split
      · exact settle_exhaustive hlanguage rfl
      · exact hlanguage.advance _
    · exact settle_exhaustive hlanguage rfl

end Combined

end XQuery
