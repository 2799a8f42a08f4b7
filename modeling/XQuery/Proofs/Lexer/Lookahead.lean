import XQuery.Proofs.Lexer.Nesting

/-!
# Lookahead

How far a rule looks past the end of its token. A token and what it does to
the stack are the same in all texts that agree up to three units behind the
token: an exponent is refused over an `e`, a sign and a code point that may be
two units wide, every other rule looks at two code points or fewer.
-/

namespace XQuery

open Utf16 (width)

/-- At least three units of the text lie behind its first `n` code points. -/
def Sees (w : List CodePoint) (n : Nat) : Prop := 3 ≤ width (w.drop n)

namespace Sees

variable {w : List CodePoint} {m n : Nat}

theorem drop (h : Sees w (m + n)) : Sees (w.drop m) n := by
  unfold Sees
  rw [List.drop_drop]
  exact h

theorem mono (h : Sees w n) (hle : m ≤ n) : Sees w m := by
  have hsplit := Utf16.width_take_add_drop (w.drop m) (n - m)
  rw [List.drop_drop, Nat.add_sub_of_le hle] at hsplit
  unfold Sees at h ⊢
  omega

/-- A code point has at most two units, so two code points lie behind. -/
theorem exists_drop (h : Sees w n) : ∃ c d rest, w.drop n = c :: d :: rest := by
  unfold Sees at h
  generalize w.drop n = rest at h
  match rest with
  | [] => simp at h
  | [c] =>
    have hc := Utf16.width_le c
    simp only [Utf16.width_cons, Utf16.width_nil] at h
    omega
  | c :: d :: rest => exact ⟨c, d, rest, rfl⟩

theorem add_two_le (h : Sees w n) : n + 2 ≤ w.length := by
  obtain ⟨c, d, rest, hdrop⟩ := h.exists_drop
  have hlength : (w.drop n).length = w.length - n := List.length_drop
  rw [hdrop] at hlength
  simp only [List.length_cons] at hlength
  omega

theorem exists_cons (h : Sees w n) : ∃ c d rest, w = c :: d :: rest :=
  (h.mono (Nat.zero_le n)).exists_drop

end Sees

/-- Two steps from texts that both go on with `w` behind the first `used` code points of a token:
the steps are the same if the token ends three units or more before `w` does. -/
def Step.Agrees (w : List CodePoint) (used : Nat) (a b : Step) : Prop :=
  Sees w (a.length - used) → b = a

/-- The rule reads the same token in all texts that agree up to three units behind it. -/
def Rule.Local (rule : Rule) : Prop :=
  ∀ state w s s', Step.Agrees w 0 (rule state (w ++ s)) (rule state (w ++ s'))

section

variable {w s s' : List CodePoint}

theorem Step.Agrees.of_drop {a b : Step} {used n : Nat} (h : Agrees (w.drop n) (used + n) a b)
    (hle : used + n ≤ a.length) : Agrees w used a b := by
  intro hsees
  refine h ?_
  rw [show a.length - used = n + (a.length - (used + n)) from by omega] at hsees
  exact hsees.drop

theorem Step.Agrees.cons {c : CodePoint} {a b : Step} {used : Nat} (h : Agrees w (used + 1) a b)
    (hlt : used < a.length) : Agrees (c :: w) used a b :=
  of_drop (w := c :: w) (n := 1) h hlt

theorem Step.Agrees.moving {a b : Step} {used : Nat} (h : Agrees w used a b) (m : StackMove) :
    Agrees w used (a.moving m) (b.moving m) := by
  intro hsees
  rw [h hsees]

/-- A run that ends inside the common text is the same in both texts. -/
theorem takeWhile_append_congr {p : CodePoint → Bool}
    (h : ((w ++ s).takeWhile p).length < w.length) :
    (w ++ s').takeWhile p = (w ++ s).takeWhile p := by
  rw [List.takeWhile_append] at h ⊢
  rw [List.takeWhile_append]
  split
  · next hall =>
    rw [if_pos hall, List.length_append] at h
    omega
  · rfl

/-- A run of code points behind `used` others, and what is read behind the run. -/
theorem Step.agrees_run (p : CodePoint → Bool) {f : Nat → List CodePoint → Step}
    (hle : ∀ n cs, n ≤ (f n cs).length)
    (hf : ∀ n w s s', Agrees w n (f n (w ++ s)) (f n (w ++ s'))) (used : Nat) :
    Agrees w used
      (f (used + ((w ++ s).takeWhile p).length) ((w ++ s).drop ((w ++ s).takeWhile p).length))
      (f (used + ((w ++ s').takeWhile p).length)
        ((w ++ s').drop ((w ++ s').takeWhile p).length)) := by
  intro h
  have hused := hle (used + ((w ++ s).takeWhile p).length)
    ((w ++ s).drop ((w ++ s).takeWhile p).length)
  have hlength := h.add_two_le
  have hrun : (w ++ s').takeWhile p = (w ++ s).takeWhile p :=
    takeWhile_append_congr (by omega)
  have hdrop : ∀ t, (w ++ t).drop ((w ++ s).takeWhile p).length
      = w.drop ((w ++ s).takeWhile p).length ++ t :=
    fun t => List.drop_append_of_le_length (by omega)
  rw [hdrop] at h hused
  rw [hrun, hdrop, hdrop]
  exact (hf _ _ s s').of_drop hused h

/-- A token that is a run of code points behind `used` others. -/
theorem Step.agrees_takeWhile (p : CodePoint → Bool) (kind : Kind) (used : Nat) :
    Agrees w used (token kind (used + ((w ++ s).takeWhile p).length))
      (token kind (used + ((w ++ s').takeWhile p).length)) :=
  agrees_run p (f := fun n _ => token kind n) (fun n _ => Nat.le_refl n) (fun _ _ _ _ _ => rfl)
    used

end

open Step (agrees_run agrees_takeWhile)

namespace Expression

variable {w s s' : List CodePoint}

theorem count_append {p : CharClass → Bool} (h : count p (w ++ s) < w.length) :
    count p (w ++ s') = count p (w ++ s) := by
  unfold count at h ⊢
  rw [takeWhile_append_congr h]

theorem digits_append (h : digits (w ++ s) < w.length) : digits (w ++ s') = digits (w ++ s) :=
  count_append h

theorem nameChars_append (h : nameChars (w ++ s) < w.length) :
    nameChars (w ++ s') = nameChars (w ++ s) :=
  count_append h

theorem next_append {n : Nat} (h : Sees w n) (ch : Char) (s s' : List CodePoint) :
    next ch (w ++ s') = next ch (w ++ s) := by
  obtain ⟨c, d, w, rfl⟩ := h.exists_cons
  rfl

theorem next_tail_append {n : Nat} (h : Sees w n) (ch : Char) (s s' : List CodePoint) :
    next ch (w ++ s').tail = next ch (w ++ s).tail := by
  obtain ⟨c, d, w, rfl⟩ := h.exists_cons
  rfl

theorem isEmpty_append {n : Nat} (h : Sees w n) (s : List CodePoint) :
    (w ++ s).isEmpty = false := by
  obtain ⟨c, d, w, rfl⟩ := h.exists_cons
  rfl

theorem operator_agrees (alone : Kind) (pairs : List (Char × Kind)) :
    Step.Agrees w 1 (operator alone pairs (w ++ s)) (operator alone pairs (w ++ s')) := by
  intro h
  obtain ⟨c, d, w, rfl⟩ := h.exists_cons
  rfl

theorem le_exponent (kind : Kind) (length : Nat) (cs : List CodePoint) :
    length ≤ (exponent kind length cs).length := by
  unfold exponent
  split
  · exact Nat.le_refl _
  · split
    · simp only
      split
      · simp only [Step.token_length]
        omega
      · split
        all_goals simp only [Step.token_length]
        all_goals omega
    · exact Nat.le_refl _

/-- Behind the sign of an exponent a code point is in sight. -/
theorem exists_drop_sign {c : CodePoint} (hc : (c == 'e'.toNat || c == 'E'.toNat) = true)
    (h : Sees (c :: w) 0) : ∃ d rest, w.drop (sign w) = d :: rest := by
  obtain ⟨_, d, w, heq⟩ := h.exists_cons
  cases heq
  by_cases hsign : (next '+' (d :: w) || next '-' (d :: w)) = true
  · -- an `e` and a sign are two units, so the third unit belongs to a code point behind them
    have hwidth : c.width + (d.width + width w) ≥ 3 := h
    have hc : c.width = 1 := by
      simp only [Bool.or_eq_true, beq_iff_eq] at hc
      rcases hc with rfl | rfl <;> rfl
    have hd : d.width = 1 := by
      simp only [next, Bool.or_eq_true, beq_iff_eq] at hsign
      rcases hsign with rfl | rfl <;> rfl
    rw [sign, if_pos hsign]
    cases w with
    | nil => simp only [hc, hd, Utf16.width_nil] at hwidth; omega
    | cons x rest => exact ⟨x, rest, rfl⟩
  · rw [sign, if_neg hsign]
    exact ⟨d, w, rfl⟩

theorem exponent_agrees (kind : Kind) (length : Nat) :
    Step.Agrees w length (exponent kind length (w ++ s)) (exponent kind length (w ++ s')) := by
  intro h
  have hzero := h.mono (Nat.zero_le _)
  obtain ⟨c, d, w, rfl⟩ := h.exists_cons
  by_cases he : (c == 'e'.toNat || c == 'E'.toNat) = true
  · obtain ⟨x, rest, hrest⟩ := exists_drop_sign he hzero
    have hdrop : ∀ t, (d :: (w ++ t)).drop (sign (d :: w)) = x :: (rest ++ t) := by
      intro t
      rw [← List.cons_append, List.drop_append_of_le_length (sign_le _), hrest, List.cons_append]
    have hlength : (d :: w).length = sign (d :: w) + (rest.length + 1) := by
      have hsplit := congrArg List.length (List.take_append_drop (sign (d :: w)) (d :: w))
      have hle := sign_le (d :: w)
      rw [hrest, List.length_append, List.length_take] at hsplit
      simp only [List.length_cons] at hsplit hle ⊢
      omega
    have hsign : ∀ t, sign (d :: (w ++ t)) = sign (d :: w) := fun _ => rfl
    simp only [List.cons_append, exponent, he, if_true, hsign, hdrop] at h ⊢
    cases hx : CharClass.of x with
    | digit =>
      simp only [hx, Step.token_length] at h ⊢
      have hle := h.add_two_le
      rw [List.length_cons, hlength] at hle
      have hdigits : digits (rest ++ s') = digits (rest ++ s) := digits_append (by omega)
      rw [hdigits]
    | _ => rfl
  · simp only [List.cons_append, exponent, he]
    rfl

/-- Digits behind `used` code points, and what may follow them. -/
theorem agrees_exponent (kind : Kind) (used : Nat) :
    Step.Agrees w used (exponent kind (used + digits (w ++ s)) ((w ++ s).drop (digits (w ++ s))))
      (exponent kind (used + digits (w ++ s')) ((w ++ s').drop (digits (w ++ s')))) :=
  agrees_run _ (le_exponent kind) (fun _ _ _ _ => exponent_agrees kind _) used

theorem le_number (cs : List CodePoint) : 1 + digits cs ≤ (number cs).length := by
  unfold number
  simp only
  split
  · split
    · exact Nat.le_trans (by omega) (le_exponent _ _ _)
    · exact le_exponent _ _ _
  · exact le_exponent _ _ _

theorem number_agrees : Step.Agrees w 1 (number (w ++ s)) (number (w ++ s')) := by
  intro h
  have hwhole := le_number (w ++ s)
  have hle := h.add_two_le
  have hdigits : digits (w ++ s') = digits (w ++ s) := digits_append (by omega)
  have hdrop : ∀ t, (w ++ t).drop (digits (w ++ s)) = w.drop (digits (w ++ s)) ++ t :=
    fun t => List.drop_append_of_le_length (by omega)
  -- both texts have the same digits first, and what is left of `w` behind them
  refine Step.Agrees.of_drop (n := digits (w ++ s)) ?_ hwhole h
  unfold number
  simp only [hdigits, hdrop]
  generalize digits (w ++ s) = whole at hwhole hle
  cases hw : w.drop whole with
  | nil =>
    have hnil := List.drop_eq_nil_iff.mp hw
    omega
  | cons c rest =>
    simp only [List.cons_append]
    by_cases hdot : (c == '.'.toNat) = true
    · rw [if_pos hdot, if_pos hdot]
      refine Step.Agrees.cons (agrees_exponent _ _) ?_
      exact Nat.lt_of_lt_of_le (by omega) (le_exponent _ _ _)
    · rw [if_neg hdot, if_neg hdot]
      exact exponent_agrees .integerLiteral (1 + whole) (w := c :: rest)

theorem dot_eq (cs : List CodePoint) : dot cs = if next '.' cs then .token .parentSelector 2
    else if digits cs = 0 then .token .contextItem 1
    else exponent .decimalLiteral (1 + digits cs) (cs.drop (digits cs)) := by
  unfold dot
  congr 1
  split
  · next hzero => rw [if_pos hzero]
  · next hne => rw [if_neg hne]

theorem dot_agrees : Step.Agrees w 1 (dot (w ++ s)) (dot (w ++ s')) := by
  intro h
  have hnext := next_append h '.' s s'
  have hle := h.add_two_le
  rw [dot_eq] at h hle ⊢
  rw [dot_eq, hnext]
  by_cases hdot : next '.' (w ++ s) = true
  · rw [if_pos hdot, if_pos hdot]
  · rw [if_neg hdot] at h hle ⊢
    rw [if_neg hdot]
    by_cases hzero : digits (w ++ s) = 0
    · have hdigits : digits (w ++ s') = digits (w ++ s) := digits_append (by omega)
      rw [if_pos hzero, if_pos (hdigits.trans hzero)]
    · rw [if_neg hzero] at h hle ⊢
      have hused := le_exponent .decimalLiteral (1 + digits (w ++ s))
        ((w ++ s).drop (digits (w ++ s)))
      have hdigits : digits (w ++ s') = digits (w ++ s) := digits_append (by omega)
      rw [if_neg (by rw [hdigits]; exact hzero)]
      exact agrees_exponent .decimalLiteral 1 h

theorem name_agrees (c : CodePoint) : Step.Agrees w 1 (name c (w ++ s)) (name c (w ++ s')) := by
  intro h
  have hnext := next_append h '\x7b' s s'
  have hle := h.add_two_le
  unfold name at h hle ⊢
  rw [hnext]
  by_cases hbrace : (c == 'Q'.toNat && next '\x7b' (w ++ s)) = true
  · rw [if_pos hbrace, if_pos hbrace]
  · rw [if_neg hbrace] at h hle ⊢
    rw [if_neg hbrace]
    simp only [Step.token_length] at h hle ⊢
    have hname : nameChars (w ++ s') = nameChars (w ++ s) := nameChars_append (by omega)
    rw [hname, List.take_append_of_le_length (by omega), List.take_append_of_le_length (by omega)]

theorem parenthesis_agrees : Step.Agrees w 1 (parenthesis (w ++ s)) (parenthesis (w ++ s')) := by
  intro h
  obtain ⟨c, d, w, rfl⟩ := h.exists_cons
  rfl

theorem plain_agrees : Step.Agrees w 0 (plain (w ++ s)) (plain (w ++ s')) := by
  intro h
  obtain ⟨c, d, w, rfl⟩ := h.exists_cons
  have hpos := (plain_takes c (d :: w ++ s)).length_pos
  refine Step.Agrees.cons (w := d :: w) ?_ hpos h
  simp only [plain, List.cons_append]
  cases hc : CharClass.of c with
  | whitespace => exact agrees_takeWhile _ _ 1 (w := d :: w)
  | dot => exact dot_agrees (w := d :: w)
  | digit => exact number_agrees (w := d :: w)
  | nameStartChar => exact name_agrees c (w := d :: w)
  | parenthesisOpen => exact parenthesis_agrees (w := d :: w)
  | colon | hash | exclamationMark | equal | lessThan | greaterThan | verticalBar
  | forwardSlash => exact operator_agrees _ _ (w := d :: w)
  | _ => exact fun _ => rfl

theorem le_closeReference (closed : Kind) (length : Nat) (cs : List CodePoint) :
    length ≤ (closeReference closed length cs).length := by
  unfold closeReference
  split
  · exact Nat.le_succ _
  · exact Nat.le_refl _

theorem closeReference_agrees (closed : Kind) (length : Nat) :
    Step.Agrees w length (closeReference closed length (w ++ s))
      (closeReference closed length (w ++ s')) := by
  intro h
  obtain ⟨c, d, w, rfl⟩ := h.exists_cons
  rfl

/-- A reference of `used` code points, a run and perhaps a semicolon. -/
theorem agrees_closeReference (p : CodePoint → Bool) (closed : Kind) (used : Nat) :
    Step.Agrees w used
      (closeReference closed (used + ((w ++ s).takeWhile p).length)
        ((w ++ s).drop ((w ++ s).takeWhile p).length))
      (closeReference closed (used + ((w ++ s').takeWhile p).length)
        ((w ++ s').drop ((w ++ s').takeWhile p).length)) :=
  agrees_run p (le_closeReference closed) (fun _ _ _ _ => closeReference_agrees closed _) used

theorem reference_agrees : Step.Agrees w 1 (reference (w ++ s)) (reference (w ++ s')) := by
  intro h
  obtain ⟨c, d, w, rfl⟩ := h.exists_cons
  revert h
  simp only [reference, List.cons_append]
  cases hc : CharClass.of c with
  | nameStartChar =>
    refine Step.Agrees.cons (agrees_closeReference _ _ 2 (w := d :: w)) ?_
    exact Nat.lt_of_lt_of_le (by omega) (le_closeReference _ _ _)
  | hash =>
    by_cases hx : (d == 'x'.toNat) = true
    · simp only [next, hx, if_true, List.tail_cons]
      refine Step.Agrees.cons (Step.Agrees.cons (agrees_closeReference _ _ 3) ?_) ?_
      · exact Nat.lt_of_lt_of_le (by omega) (le_closeReference _ _ _)
      · exact Nat.lt_of_lt_of_le (by omega) (le_closeReference _ _ _)
    · simp only [next, hx]
      refine Step.Agrees.cons (agrees_closeReference _ _ 2 (w := d :: w)) ?_
      exact Nat.lt_of_lt_of_le (by omega) (le_closeReference _ _ _)
  | _ => exact fun _ => rfl

/-- A token inside a literal that `ch` closes, behind its first code point `c`. -/
theorem literal_agrees (ch : Char) (c : CodePoint) :
    Step.Agrees w 1
      (if c == '&'.toNat then reference (w ++ s)
        else .token .stringLiteralContents (1 + contents ch (w ++ s)))
      (if c == '&'.toNat then reference (w ++ s')
        else .token .stringLiteralContents (1 + contents ch (w ++ s'))) := by
  by_cases hreference : (c == '&'.toNat) = true
  · rw [if_pos hreference, if_pos hreference]
    exact reference_agrees
  · rw [if_neg hreference, if_neg hreference]
    exact agrees_takeWhile _ _ 1

theorem string_agrees (quote : Char) :
    Step.Agrees w 0 (string quote (w ++ s)) (string quote (w ++ s')) := by
  intro h
  obtain ⟨c, d, w, rfl⟩ := h.exists_cons
  refine Step.Agrees.cons (w := d :: w) ?_ (string_takes quote c (d :: w ++ s)).length_pos h
  simp only [string, List.cons_append]
  by_cases hquote : (c == quote.toNat) = true
  · rw [if_pos hquote, if_pos hquote]
    exact fun _ => rfl
  · rw [if_neg hquote, if_neg hquote]
    exact literal_agrees quote c (w := d :: w)

theorem bracedUri_agrees : Step.Agrees w 0 (bracedUri (w ++ s)) (bracedUri (w ++ s')) := by
  intro h
  obtain ⟨c, d, w, rfl⟩ := h.exists_cons
  refine Step.Agrees.cons (w := d :: w) ?_ (bracedUri_takes c (d :: w ++ s)).length_pos h
  simp only [bracedUri, List.cons_append]
  by_cases hbrace : (c == '\x7d'.toNat) = true
  · rw [if_pos hbrace, if_pos hbrace]
    exact fun _ => rfl
  · rw [if_neg hbrace, if_neg hbrace]
    exact literal_agrees '\x7d' c (w := d :: w)

theorem commentText_append {depth : Nat} (h : (commentText depth (w ++ s)).1 + 2 ≤ w.length) :
    commentText depth (w ++ s') = commentText depth (w ++ s) := by
  -- along the recursion on the common text: two code points of it are always left
  induction depth, w using commentText.induct with
  | case1 => simp at h
  | case2 => simp at h
  | case3 depth c d w hopen length closed _ ih =>
    simp only [List.cons_append, commentText_open hopen, List.length_cons] at h ⊢
    rw [ih (by omega)]
  | case4 c d w hopen hclose =>
    simp only [List.cons_append, commentText_end ((Bool.not_eq_true _).mp hopen) hclose]
  | case5 c d w hopen hclose depth length closed _ ih =>
    simp only [List.cons_append, commentText_close ((Bool.not_eq_true _).mp hopen) hclose,
      List.length_cons] at h ⊢
    rw [ih (by omega)]
  | case6 depth c d w hopen hclose length closed _ ih =>
    simp only [List.cons_append, commentText_other ((Bool.not_eq_true _).mp hopen)
      ((Bool.not_eq_true _).mp hclose), List.length_cons] at h ih ⊢
    rw [ih (by omega)]

theorem comment_agrees : Step.Agrees w 0 (comment (w ++ s)) (comment (w ++ s')) := by
  intro h
  have hle := h.add_two_le
  unfold comment at hle ⊢
  rw [isEmpty_append h, next_append h ':' s s', next_tail_append h ')' s s']
  rw [isEmpty_append h] at hle ⊢
  by_cases hclosed : (next ':' (w ++ s) && next ')' (w ++ s).tail) = true
  · rw [if_pos hclosed, if_pos hclosed]
  · rw [if_neg hclosed, if_neg hclosed]
    rw [if_neg hclosed] at hle
    have htext : (commentText 0 (w ++ s)).1 + 2 ≤ w.length := by
      generalize commentText 0 (w ++ s) = text at hle
      obtain ⟨length, closed⟩ := text
      cases closed <;> exact hle
    rw [commentText_append htext]

theorem docMarker_agrees : Step.Agrees w 0 (docMarker (w ++ s)) (docMarker (w ++ s')) := by
  intro h
  have hnext := next_append h '~' s s'
  unfold docMarker at h ⊢
  rw [hnext]
  by_cases hmarker : next '~' (w ++ s) = true
  · rw [if_pos hmarker, if_pos hmarker]
  · rw [if_neg hmarker] at h ⊢
    rw [if_neg hmarker]
    have hcomment : comment (w ++ s') = comment (w ++ s) := by
      refine comment_agrees ?_
      simp only at h
      split at h
      · exact h
      · exact h
    rw [hcomment]

theorem atPragmaEnd_append {n : Nat} (h : Sees w n) (s s' : List CodePoint) :
    atPragmaEnd (w ++ s') = atPragmaEnd (w ++ s) := by
  rw [atPragmaEnd, atPragmaEnd, next_append h _ s s', next_tail_append h _ s s']

theorem pragmaNamePart_agrees (c : CodePoint) :
    Step.Agrees w 1 (pragmaNamePart c (w ++ s)) (pragmaNamePart c (w ++ s')) := by
  unfold pragmaNamePart
  split
  · exact agrees_takeWhile _ _ 1
  · exact fun _ => rfl
  · exact fun _ => rfl

theorem pragmaStart_agrees : Step.Agrees w 0 (pragmaStart (w ++ s)) (pragmaStart (w ++ s')) := by
  intro h
  have hend := atPragmaEnd_append h s s'
  obtain ⟨c, d, w, rfl⟩ := h.exists_cons
  refine Step.Agrees.cons (w := d :: w) ?_ (pragmaStart_takes c (d :: w ++ s)).length_pos h
  unfold pragmaStart
  rw [hend]
  split
  · exact fun _ => rfl
  · simp only [List.cons_append]
    split
    · exact agrees_takeWhile _ _ 1 (w := d :: w)
    · exact (pragmaNamePart_agrees c (w := d :: w)).moving _

theorem pragmaName_agrees : Step.Agrees w 0 (pragmaName (w ++ s)) (pragmaName (w ++ s')) := by
  intro h
  have hend := atPragmaEnd_append h s s'
  obtain ⟨c, d, w, rfl⟩ := h.exists_cons
  refine Step.Agrees.cons (w := d :: w) ?_ (pragmaName_takes c (d :: w ++ s)).length_pos h
  unfold pragmaName
  rw [hend]
  split
  · exact fun _ => rfl
  · simp only [List.cons_append]
    split
    · exact (agrees_takeWhile _ _ 1 (w := d :: w)).moving _
    · exact pragmaNamePart_agrees c (w := d :: w)

theorem pragmaText_append (h : pragmaText (w ++ s) + 2 ≤ w.length) :
    pragmaText (w ++ s') = pragmaText (w ++ s) := by
  induction w with
  | nil => simp at h
  | cons c w ih =>
    cases w with
    | nil => simp at h
    | cons d w =>
      have hcons : ∀ t, pragmaText (c :: d :: w ++ t)
          = if atPragmaEnd (c :: d :: w) then 0 else pragmaText (d :: w ++ t) + 1 := fun _ => rfl
      rw [hcons] at h ⊢
      rw [hcons]
      split
      · rfl
      · next hmore =>
        rw [if_neg hmore, List.length_cons] at h
        rw [ih (by omega)]

theorem pragmaContents_agrees :
    Step.Agrees w 0 (pragmaContents (w ++ s)) (pragmaContents (w ++ s')) := by
  intro h
  have hend := atPragmaEnd_append h s s'
  have hle := h.add_two_le
  unfold pragmaContents at hle ⊢
  rw [hend, isEmpty_append h]
  rw [isEmpty_append h] at hle ⊢
  split
  · rfl
  · next hmore =>
    rw [if_neg hmore] at hle
    rw [pragmaText_append hle]

theorem scan_agrees (mode : Mode) : Step.Agrees w 0 (scan mode (w ++ s)) (scan mode (w ++ s')) := by
  cases mode with
  | plain => exact plain_agrees
  | quoted => exact string_agrees _
  | apostrophed => exact string_agrees _
  | comment => exact comment_agrees
  | pragmaStart => exact pragmaStart_agrees
  | pragmaName => exact pragmaName_agrees
  | pragmaContents => exact pragmaContents_agrees
  | bracedUri => exact bracedUri_agrees
  | docMarker => exact docMarker_agrees

theorem rule_local : Rule.Local rule := fun _ _ _ _ => scan_agrees _

end Expression

namespace Documentation

open Expression (next nameChars nameChars_append next_append next_tail_append isEmpty_append)

variable {w s s' : List CodePoint}

theorem atTerminator_append {n : Nat} (h : Sees w n) (depth : Nat) (s s' : List CodePoint) :
    atTerminator depth (w ++ s') = atTerminator depth (w ++ s) := by
  rw [atTerminator, atTerminator, atPair, atPair, isEmpty_append h, isEmpty_append h,
    next_append h _ s s', next_tail_append h _ s s']

/-- A colon that begins the line, behind `used` code points. -/
def lineColon (used : Nat) (cs : List CodePoint) : Step :=
  .token .docTrim (used + if next ':' cs && !atPair ':' ')' cs then 1 else 0)

/-- The indentation of a line and the colon behind it, behind `used` code points. -/
def indentation (used : Nat) (cs : List CodePoint) : Step :=
  lineColon (used + (cs.takeWhile isInlineSpace).length)
    (cs.drop (cs.takeWhile isInlineSpace).length)

theorem trim_eq (depth : Nat) (cs : List CodePoint) :
    trim depth cs = (indentation (0 + (cs.takeWhile isLineBreak).length)
      (cs.drop (cs.takeWhile isLineBreak).length)).moving (.replace (pack .lineStart depth)) := by
  rw [Nat.zero_add]
  rfl

theorem le_lineColon (used : Nat) (cs : List CodePoint) : used ≤ (lineColon used cs).length :=
  Nat.le_add_right _ _

theorem le_indentation (used : Nat) (cs : List CodePoint) : used ≤ (indentation used cs).length :=
  Nat.le_trans (Nat.le_add_right _ _) (le_lineColon _ _)

theorem lineColon_agrees (used : Nat) :
    Step.Agrees w used (lineColon used (w ++ s)) (lineColon used (w ++ s')) := by
  intro h
  obtain ⟨c, d, w, rfl⟩ := h.exists_cons
  rfl

theorem indentation_agrees (used : Nat) :
    Step.Agrees w used (indentation used (w ++ s)) (indentation used (w ++ s')) :=
  agrees_run _ le_lineColon (fun n _ _ _ => lineColon_agrees n) used

theorem trim_agrees (depth : Nat) :
    Step.Agrees w 0 (trim depth (w ++ s)) (trim depth (w ++ s')) := by
  rw [trim_eq, trim_eq]
  exact (agrees_run _ le_indentation (fun n _ _ _ => indentation_agrees n) 0).moving _

theorem lineText_other {c d : CodePoint} (hbreak : isLineBreak c = false)
    (hopen : (c == '('.toNat && d == ':'.toNat) = false)
    (hclose : (c == ':'.toNat && d == ')'.toNat) = false) (depth : Nat) (cs : List CodePoint) :
    lineText depth (c :: d :: cs)
      = ((lineText depth (d :: cs)).1 + 1, (lineText depth (d :: cs)).2) := by
  rw [lineText.eq_def]
  simp only [hbreak, hopen, hclose, Bool.false_eq_true, if_false]

theorem lineText_append {depth : Nat} (h : (lineText depth (w ++ s)).1 + 2 ≤ w.length) :
    lineText depth (w ++ s') = lineText depth (w ++ s) := by
  -- the recursion never reaches the last code point of `w`, whose partner may be in `s`
  induction depth, w using lineText.induct with
  | case1 => simp at h
  | case2 => simp at h
  | case3 => simp at h
  | case4 depth c d w hbreak =>
    simp only [List.cons_append, lineText, hbreak, if_true]
  | case5 depth c d w hbreak hopen length depth' _ ih =>
    simp only [List.cons_append, lineText, hbreak, hopen, List.length_cons, if_true, if_false,
      Bool.false_eq_true] at h ⊢
    rw [ih (by omega)]
  | case6 c d w hbreak hopen hclose =>
    simp only [List.cons_append, lineText, hbreak, hopen, hclose, if_true, if_false,
      Bool.false_eq_true]
  | case7 c d w hbreak hopen hclose depth length depth' _ ih =>
    simp only [List.cons_append, lineText, hbreak, hopen, hclose, List.length_cons, if_true,
      if_false, Bool.false_eq_true] at h ⊢
    rw [ih (by omega)]
  | case8 depth c d w hbreak hopen hclose length depth' _ ih =>
    simp only [List.cons_append, List.length_cons, lineText_other ((Bool.not_eq_true _).mp hbreak)
      ((Bool.not_eq_true _).mp hopen) ((Bool.not_eq_true _).mp hclose)] at h ih ⊢
    rw [ih (by omega)]

theorem line_agrees (depth : Nat) :
    Step.Agrees w 0 (line depth (w ++ s)) (line depth (w ++ s')) := by
  intro h
  unfold line
  rw [lineText_append h.add_two_le]

theorem contents_agrees (depth : Nat) :
    Step.Agrees w 0 (contents depth (w ++ s)) (contents depth (w ++ s')) := by
  intro h
  obtain ⟨c, d, w, rfl⟩ := h.exists_cons
  revert h
  simp only [List.cons_append, contents]
  split
  · exact trim_agrees depth (w := c :: d :: w)
  · exact line_agrees depth (w := c :: d :: w)

theorem inlineSpace_agrees : Step.Agrees w 0 (inlineSpace (w ++ s)) (inlineSpace (w ++ s')) := by
  have hrun := @agrees_takeWhile w s s' isInlineSpace .docWhiteSpace 0
  simp only [Nat.zero_add] at hrun
  exact hrun

theorem lineStart_agrees (depth : Nat) :
    Step.Agrees w 0 (lineStart depth (w ++ s)) (lineStart depth (w ++ s')) := by
  intro h
  obtain ⟨c, d, w, rfl⟩ := h.exists_cons
  revert h
  simp only [List.cons_append, lineStart]
  split
  · exact trim_agrees depth (w := c :: d :: w)
  · split
    · exact inlineSpace_agrees (w := c :: d :: w)
    · split
      · exact fun _ => rfl
      · exact line_agrees depth (w := c :: d :: w)

theorem tag_agrees (depth : Nat) :
    Step.Agrees w 0 (tag depth (w ++ s)) (tag depth (w ++ s')) := by
  intro h
  obtain ⟨c, d, w, rfl⟩ := h.exists_cons
  simp only [List.cons_append, tag] at h ⊢
  by_cases hc : (CharClass.of c).isNameStart = true
  · simp only [hc, if_true] at h ⊢
    have hle := h.add_two_le
    simp only [Step.moving_length, Step.token_length, List.length_cons] at hle
    have hlt : nameChars (d :: w ++ s) < (d :: w).length := by
      simp only [List.length_cons, List.cons_append]
      omega
    have hname : nameChars (d :: w ++ s') = nameChars (d :: w ++ s) := nameChars_append hlt
    have htake : ∀ t, (d :: w ++ t).take (nameChars (d :: w ++ s))
        = (d :: w).take (nameChars (d :: w ++ s)) :=
      fun t => List.take_append_of_le_length (Nat.le_of_lt hlt)
    rw [← List.cons_append, ← List.cons_append, hname, htake, htake]
  · simp only [hc] at h ⊢
    exact contents_agrees depth (w := c :: d :: w) h

theorem paramStart_agrees (depth : Nat) :
    Step.Agrees w 0 (paramStart depth (w ++ s)) (paramStart depth (w ++ s')) := by
  intro h
  obtain ⟨c, d, w, rfl⟩ := h.exists_cons
  revert h
  simp only [List.cons_append, paramStart]
  split
  · exact inlineSpace_agrees (w := c :: d :: w)
  · split
    · exact fun _ => rfl
    · exact contents_agrees depth (w := c :: d :: w)

theorem paramName_agrees (depth : Nat) :
    Step.Agrees w 0 (paramName depth (w ++ s)) (paramName depth (w ++ s')) := by
  intro h
  obtain ⟨c, d, w, rfl⟩ := h.exists_cons
  revert h
  simp only [List.cons_append, paramName]
  split
  · refine Step.Agrees.moving (Step.Agrees.cons (w := d :: w) ?_ ?_) _
    · exact agrees_takeWhile _ _ 1 (w := d :: w)
    · exact Nat.lt_of_lt_of_le Nat.one_pos (Nat.le_add_right _ _)
  · exact contents_agrees depth (w := c :: d :: w)

theorem scan_agrees (mode : Mode) (depth : Nat) :
    Step.Agrees w 0 (scan mode depth (w ++ s)) (scan mode depth (w ++ s')) := by
  cases mode with
  | contents => exact contents_agrees depth
  | lineStart => exact lineStart_agrees depth
  | tag => exact tag_agrees depth
  | paramStart => exact paramStart_agrees depth
  | paramName => exact paramName_agrees depth

theorem rule_local : Rule.Local rule := by
  intro state w s s' h
  have hend := atTerminator_append h (state / depthUnit) s s'
  unfold rule at h ⊢
  simp only [hend] at h ⊢
  split
  · rfl
  · next hmore =>
    rw [if_neg hmore] at h
    exact scan_agrees _ _ h

end Documentation

end XQuery
