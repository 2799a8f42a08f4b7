import XQuery.Proofs.Lexer.ExpressionWork
import XQuery.Proofs.Lexer.States

/-!
# The documentation lexer at work

How the documentation lexer finds its tokens with a cursor. It counts nested
comments in a word of 32 bits beside the stack and packs the count with the
mode into the states. To count up, to count down and to pack are checked
operations here: they fail where the word would overflow, fall below zero or
lose bits. They never do (`Documentation.work_implements`), and the depth
beside the stack is that of the state on top of it (`Session.Settled`).
-/

namespace XQuery

/-- The depth beside the stack is that of the state on top of it. -/
def Session.Settled (s : Session) : Prop := s.nextState >>> 8 = s.depth

theorem Session.Advances.settled {s t : Session} {n : Nat} (h : s.Advances n t) (hs : s.Settled) :
    t.Settled := by
  rw [Settled, nextState, h.stack, h.depth]
  exact hs

namespace Documentation

open Session (Advances Performs Reads Settled ahead_of_peek_none ahead_of_peek_some charClass_nil
  charClass_cons peek_nil peek_cons)
open Expression (next nameChars)
open Expression.Work (found ncName ncName_eq)

/-- The word that stands for the mode in a state. -/
def Mode.word (mode : Mode) : UInt32 := mode.code.toUInt32

namespace Work

/-! ## Words -/

/-- One more than the number; none if the word overflows. -/
def succ? (n : UInt32) : Option UInt32 := if n + 1 = 0 then none else some (n + 1)

/-- One less than the number; none if it is zero. -/
def pred? (n : UInt32) : Option UInt32 := if n = 0 then none else some (n - 1)

/-- The depth as it stands above the mode in a state; none if bits of it are lost there. -/
def shift? (depth : UInt32) : Option UInt32 :=
  if depth <<< 8 >>> 8 = depth then some (depth <<< 8) else none

/-- Count a comment that opens, up to the greatest depth. -/
def deeper? (s : Session) : Option Session :=
  (succ? s.depth).map fun depth => { s with depth := min depth maxDepth.toUInt32 }

/-- Count a comment that closes. -/
def shallower? (s : Session) : Option Session :=
  (pred? s.depth).map fun depth => { s with depth }

/-- Read on in the mode, at the depth that has been reached. -/
def switch? (mode : Mode) (s : Session) : Option Session :=
  (shift? s.depth).map fun depth => s.set (mode.word ||| depth)

/-! ## Tokens -/

/-- Whether `first` and then `second` are ahead. -/
def atPair (first second : Char) (s : Session) : Bool × Session :=
  if s.sees first then (s.save.bump.sees second, s.save.bump.restore) else (false, s)

/-- Whether the body ends here. -/
def atTerminator (s : Session) : Bool × Session :=
  match s.peek with
  | none => (true, s)
  | some _ => if s.depth = 0 then atPair ':' ')' s else (false, s)

/-- Eat a colon that does not close a comment. -/
def colon (s : Session) : Session :=
  if s.sees ':' then
    let close := atPair ':' ')' s
    if close.1 then close.2 else close.2.bump
  else s

def trim (s : Session) : Option (Kind × Session) :=
  (switch? .lineStart (colon ((s.eatWhile isLineBreak).eatWhile isInlineSpace))).map (.docTrim, ·)

theorem atPair_fst (first second : Char) (s : Session) :
    (atPair first second s).1 = Documentation.atPair first second s.cursor.ahead := by
  unfold atPair Documentation.atPair
  rw [Session.sees_eq, Session.sees_eq, Session.ahead_bump, Session.ahead_save]
  cases next first s.cursor.ahead with
  | true => rfl
  | false => rfl

theorem atPair_advances (first second : Char) (s : Session) :
    s.Advances 0 (atPair first second s).2 := by
  unfold atPair
  split
  · exact Session.advances_restore 1 s
  · exact .refl s

theorem atTerminator_fst (s : Session) :
    (atTerminator s).1 = Documentation.atTerminator s.depth.toNat s.cursor.ahead := by
  unfold atTerminator Documentation.atTerminator
  cases hs : s.cursor.ahead with
  | nil =>
    rw [peek_nil hs]
    rfl
  | cons c cs =>
    have hzero : (s.depth.toNat == 0) = decide (s.depth = 0) := by
      rw [Bool.eq_iff_iff, beq_iff_eq, decide_eq_true_iff, ← UInt32.toNat_inj, UInt32.toNat_zero]
    simp only [peek_cons hs, List.isEmpty_cons, Bool.false_or, hzero]
    by_cases hdepth : s.depth = 0
    · simp only [hdepth, if_true, decide_true, Bool.true_and, atPair_fst, hs]
    · simp only [hdepth, if_false, decide_false, Bool.false_and]

theorem atTerminator_advances (s : Session) : s.Advances 0 (atTerminator s).2 := by
  unfold atTerminator
  split
  · exact .refl s
  · split
    · exact atPair_advances _ _ s
    · exact .refl s

theorem ahead_deeper? {s t : Session} (h : deeper? s = some t) :
    t.cursor.ahead = s.cursor.ahead := by
  obtain ⟨_, _, rfl⟩ := Option.map_eq_some_iff.mp h
  rfl

theorem ahead_shallower? {s t : Session} (h : shallower? s = some t) :
    t.cursor.ahead = s.cursor.ahead := by
  obtain ⟨_, _, rfl⟩ := Option.map_eq_some_iff.mp h
  rfl

theorem length_ahead_skip {s t : Session} {c : CodePoint} (h : s.peek = some c)
    (hlook : s.Advances 0 t) : (t.skip 2).cursor.ahead.length < s.cursor.ahead.length := by
  obtain ⟨cs, hcs⟩ := ahead_of_peek_some h
  rw [(hlook.trans (Session.advances_skip 2 t)).ahead, hcs]
  simp only [List.length_drop, List.length_cons]
  omega

theorem length_ahead_bump {s t : Session} {c : CodePoint} (h : s.peek = some c)
    (hlook : s.Advances 0 t) : t.bump.cursor.ahead.length < s.cursor.ahead.length := by
  obtain ⟨cs, hcs⟩ := ahead_of_peek_some h
  rw [← Session.bumps_one, (hlook.bumps 1).ahead, hcs]
  exact Nat.lt_succ_self _

/-! Before it passes over anything in a line, the lexer looks for the end of the body, for a comment
that opens, and for one that closes. -/

theorem looks_open (s : Session) : s.Advances 0 (atPair '(' ':' (atTerminator s).2).2 :=
  (atTerminator_advances s).trans (atPair_advances _ _ _)

theorem looks_close (s : Session) :
    s.Advances 0 (atPair ':' ')' (atPair '(' ':' (atTerminator s).2).2).2 :=
  (looks_open s).trans (atPair_advances _ _ _)

theorem looked_open (s : Session) : (atPair '(' ':' (atTerminator s).2).1
    = Documentation.atPair '(' ':' s.cursor.ahead := by
  rw [atPair_fst, (atTerminator_advances s).ahead, List.drop_zero]

theorem looked_close (s : Session) : (atPair ':' ')' (atPair '(' ':' (atTerminator s).2).2).1
    = Documentation.atPair ':' ')' s.cursor.ahead := by
  rw [atPair_fst, (looks_open s).ahead, List.drop_zero]

/-- Pass over the rest of the line and count the comments that open and close in it. -/
def lineText (s : Session) : Option Session :=
  match _h : s.peek with
  | none => some s
  | some c =>
      let ended := atTerminator s
      if ended.1 || isLineBreak c then some ended.2
      else
        let opened := atPair '(' ':' ended.2
        if opened.1 then
          match _hdeeper : deeper? (opened.2.skip 2) with
          | none => none
          | some t => lineText t
        else
          let closed := atPair ':' ')' opened.2
          if closed.1 then
            match _hshallower : shallower? (closed.2.skip 2) with
            | none => none
            | some t => lineText t
          else lineText closed.2.bump
termination_by s.cursor.ahead.length
decreasing_by
  · rw [ahead_deeper? _hdeeper]
    exact length_ahead_skip _h (looks_open s)
  · rw [ahead_shallower? _hshallower]
    exact length_ahead_skip _h (looks_close s)
  · exact length_ahead_bump _h (looks_close s)

def line (s : Session) : Option (Kind × Session) :=
  ((lineText s).bind (switch? .contents)).map (.docContents, ·)

def contents (s : Session) : Option (Kind × Session) :=
  match s.peek with
  | some c => if isLineBreak c then trim s else line s
  | none => line s

def inlineSpace (s : Session) : Kind × Session := (.docWhiteSpace, s.eatWhile isInlineSpace)

def lineStart (s : Session) : Option (Kind × Session) :=
  match s.peek with
  | some c =>
      if isLineBreak c then trim s
      else if isInlineSpace c then some (inlineSpace s)
      else if c == '@'.toNat then (switch? .tag s.bump).map (.docTagMarker, ·)
      else line s
  | none => line s

/-- The name of a tag, whose meaning depends on the text of the token. It fails if the token has
none. -/
def tag (s : Session) : Option (Kind × Session) :=
  if s.charClass.isNameStart then
    (ncName s).cursor.text?.bind fun name =>
      (switch? (if name = "param" then .paramStart else .contents) (ncName s)).map
        (if name ∈ taggedKeywords then .docTaggedKeyword else .docTag, ·)
  else contents s

def paramStart (s : Session) : Option (Kind × Session) :=
  match s.peek with
  | some c =>
      if isInlineSpace c then some (inlineSpace s)
      else if c == '$'.toNat then (switch? .paramName s.bump).map (.docVariableIndicator, ·)
      else contents s
  | none => contents s

def paramName (s : Session) : Option (Kind × Session) :=
  if s.charClass.isNameStart then (switch? .contents (ncName s)).map (.docNCName, ·)
  else contents s

def scan : Mode → Session → Option (Kind × Session)
  | .contents => contents
  | .lineStart => lineStart
  | .tag => tag
  | .paramStart => paramStart
  | .paramName => paramName

/-- A token that is begun in the state, at its depth. -/
def token (state : UInt32) (s : Session) : Option (Option Kind × Session) :=
  let ended := atTerminator s
  if ended.1 then some (none, ended.2)
  else (scan (Mode.ofCode (state &&& 0xFF).toNat) ended.2).map found

end Work

/-- The documentation lexer at work. -/
def work : Work := fun state s => Work.token state { s with depth := state >>> 8 }

/-! ## Words and numbers -/

theorem Mode.toNat_word (mode : Mode) : mode.word.toNat = mode.code := by
  cases mode <;> rfl

theorem toNat_shiftRight (state : UInt32) : (state >>> 8).toNat = state.toNat / depthUnit := by
  rw [UInt32.toNat_shiftRight]
  exact Nat.shiftRight_eq_div_pow _ 8

theorem toNat_and (state : UInt32) : (state &&& 0xFF).toNat = state.toNat % depthUnit := by
  rw [UInt32.toNat_and]
  exact Nat.and_two_pow_sub_one_eq_mod _ 8

/-- The depths below this number have room in a state above the mode. -/
def depthLimit : Nat := 0x1000000

theorem maxDepth_lt : maxDepth < depthLimit := by decide

theorem shiftRight_lt (state : UInt32) : (state >>> 8).toNat < depthLimit := by
  have hstate : state.toNat < depthLimit * depthUnit := state.toNat_lt
  rw [toNat_shiftRight]
  exact Nat.div_lt_of_lt_mul (Nat.mul_comm depthLimit depthUnit ▸ hstate)

namespace Work

theorem toNat_shiftLeft {depth : UInt32} (h : depth.toNat < depthLimit) :
    (depth <<< 8).toNat = depth.toNat * depthUnit := by
  have hlt : depth.toNat * depthUnit < UInt32.size := Nat.mul_lt_mul_of_pos_right h (by decide)
  rw [UInt32.toNat_shiftLeft]
  exact (congrArg (· % UInt32.size) (Nat.shiftLeft_eq _ 8)).trans (Nat.mod_eq_of_lt hlt)

theorem shift?_eq {depth : UInt32} (h : depth.toNat < depthLimit) :
    shift? depth = some (depth <<< 8) := by
  refine if_pos (UInt32.toNat_inj.mp ?_)
  rw [toNat_shiftRight, toNat_shiftLeft h, Nat.mul_div_cancel _ (by decide)]

/-- The word of a mode and the word of a depth do not overlap. -/
theorem toNat_or (mode : Mode) {depth : UInt32} (h : depth.toNat < depthLimit) :
    (mode.word ||| depth <<< 8).toNat = pack mode depth.toNat := by
  have hor := Nat.two_pow_add_eq_or_of_lt (i := 8) mode.code_lt depth.toNat
  rw [UInt32.toNat_or, toNat_shiftLeft h, mode.toNat_word, Nat.or_comm, Nat.mul_comm]
  exact hor.symm.trans (by rw [pack, depthUnit]; omega)

theorem or_shiftRight (mode : Mode) {depth : UInt32} (h : depth.toNat < depthLimit) :
    (mode.word ||| depth <<< 8) >>> 8 = depth := by
  rw [← UInt32.toNat_inj, toNat_shiftRight, toNat_or mode h, pack_div]

theorem deeper?_eq {s : Session} (h : s.depth.toNat < depthLimit) :
    ∃ depth, deeper? s = some { s with depth } ∧
      depth.toNat = min (s.depth.toNat + 1) maxDepth := by
  have hsucc : (s.depth + 1).toNat = s.depth.toNat + 1 := by
    rw [UInt32.toNat_add, UInt32.toNat_one]
    exact Nat.mod_eq_of_lt (Nat.lt_of_le_of_lt (Nat.succ_le_of_lt h) (by decide))
  have hne : s.depth + 1 ≠ 0 := by
    intro hzero
    rw [hzero] at hsucc
    cases hsucc
  refine ⟨min (s.depth + 1) maxDepth.toUInt32, ?_, ?_⟩
  · rw [deeper?, succ?, if_neg hne, Option.map_some]
  · rw [← hsucc]
    exact UInt32.toNat_min _ _

theorem shallower?_eq {s : Session} {n : Nat} (h : s.depth.toNat = n + 1) :
    ∃ depth, shallower? s = some { s with depth } ∧ depth.toNat = n := by
  have hne : s.depth ≠ 0 := by
    intro hzero
    rw [hzero] at h
    cases h
  refine ⟨s.depth - 1, ?_, ?_⟩
  · rw [shallower?, pred?, if_neg hne, Option.map_some]
  · have hle : (1 : UInt32) ≤ s.depth := by
      rw [UInt32.le_iff_toNat_le, h, UInt32.toNat_one]
      exact Nat.le_add_left 1 n
    rw [UInt32.toNat_sub_of_le _ _ hle, h, UInt32.toNat_one, Nat.add_sub_cancel]

/-! ## Agreement with the rule -/

variable {s t : Session} {n : Nat} {c : CodePoint} {cs : List CodePoint}

/-- The rest of a line by what stands in front of it. -/
theorem lineText_cons (depth : Nat) (c : CodePoint) (cs : List CodePoint) :
    Documentation.lineText depth (c :: cs) =
      if isLineBreak c then (0, depth)
      else if Documentation.atPair '(' ':' (c :: cs) then
        let rest := Documentation.lineText (min (depth + 1) maxDepth) cs.tail
        (rest.1 + 2, rest.2)
      else if Documentation.atPair ':' ')' (c :: cs) then
        match depth with
        | 0 => (0, 0)
        | depth + 1 =>
            let rest := Documentation.lineText depth cs.tail
            (rest.1 + 2, rest.2)
      else
        let rest := Documentation.lineText depth cs
        (rest.1 + 1, rest.2) := by
  cases cs with
  | nil =>
    simp only [Documentation.lineText, Documentation.atPair, List.tail_cons, next, Bool.and_false,
      Bool.false_eq_true, if_false]
  | cons d cs =>
    rw [Documentation.lineText.eq_def]
    simp only [Documentation.atPair, List.tail_cons, next]
    rfl

theorem lineText_stop {depth : Nat}
    (h : (Documentation.atTerminator depth (c :: cs) || isLineBreak c) = true) :
    Documentation.lineText depth (c :: cs) = (0, depth) := by
  rw [lineText_cons]
  split
  · rfl
  · next hbreak =>
    rw [(Bool.not_eq_true _).mp hbreak, Bool.or_false, Documentation.atTerminator,
      List.isEmpty_cons, Bool.false_or, Bool.and_eq_true, beq_iff_eq] at h
    obtain ⟨rfl, hclose⟩ := h
    have hopen : Documentation.atPair '(' ':' (c :: cs) = false := by
      rw [Documentation.atPair, Bool.and_eq_true] at hclose
      rw [Documentation.atPair, Expression.Work.next_cons, beq_iff_eq.mp hclose.1]
      rfl
    rw [hopen, hclose]
    rfl

theorem lineText_open (hbreak : isLineBreak c = false)
    (hopen : Documentation.atPair '(' ':' (c :: cs) = true) (depth : Nat) :
    Documentation.lineText depth (c :: cs)
      = ((Documentation.lineText (min (depth + 1) maxDepth) ((c :: cs).drop 2)).1 + 2,
          (Documentation.lineText (min (depth + 1) maxDepth) ((c :: cs).drop 2)).2) := by
  rw [lineText_cons, hbreak, hopen, List.drop_succ_cons, List.drop_one]
  rfl

theorem lineText_close (hbreak : isLineBreak c = false)
    (hopen : Documentation.atPair '(' ':' (c :: cs) = false)
    (hclose : Documentation.atPair ':' ')' (c :: cs) = true) (depth : Nat) :
    Documentation.lineText (depth + 1) (c :: cs)
      = ((Documentation.lineText depth ((c :: cs).drop 2)).1 + 2,
          (Documentation.lineText depth ((c :: cs).drop 2)).2) := by
  rw [lineText_cons, hbreak, hopen, hclose, List.drop_succ_cons, List.drop_one]
  rfl

theorem lineText_plain (hbreak : isLineBreak c = false)
    (hopen : Documentation.atPair '(' ':' (c :: cs) = false)
    (hclose : Documentation.atPair ':' ')' (c :: cs) = false) (depth : Nat) :
    Documentation.lineText depth (c :: cs)
      = ((Documentation.lineText depth cs).1 + 1, (Documentation.lineText depth cs).2) := by
  rw [lineText_cons, hbreak, hopen, hclose]
  rfl

/-- A comment closes in front of the terminator only inside another one. -/
theorem depth_ne_zero {depth : Nat} (hend : Documentation.atTerminator depth (c :: cs) = false)
    (hclose : Documentation.atPair ':' ')' (c :: cs) = true) : ∃ n, depth = n + 1 := by
  refine Nat.exists_eq_succ_of_ne_zero ?_
  rintro rfl
  rw [Documentation.atTerminator, hclose] at hend
  cases hend

/-- The session has come to the end of the line, and to the depth there. -/
structure ReadsLine (s t : Session) : Prop where
  reads : s.Reads (Documentation.lineText s.depth.toNat s.cursor.ahead).1 t
  stack : t.stack = s.stack
  depth : t.depth.toNat = (Documentation.lineText s.depth.toNat s.cursor.ahead).2

theorem ReadsLine.after {u : Session} (hread : s.Reads n u) (hstack : u.stack = s.stack)
    (htext : Documentation.lineText s.depth.toNat s.cursor.ahead
      = ((Documentation.lineText u.depth.toNat u.cursor.ahead).1 + n,
          (Documentation.lineText u.depth.toNat u.cursor.ahead).2))
    (h : ReadsLine u t) : ReadsLine s t := by
  refine ⟨?_, h.stack.trans hstack, ?_⟩
  · rw [htext, Nat.add_comm]
    exact hread.trans h.reads
  · rw [htext]
    exact h.depth

theorem ReadsLine.stop (h : s.Advances 0 t)
    (htext : Documentation.lineText s.depth.toNat s.cursor.ahead = (0, s.depth.toNat)) :
    ReadsLine s t := by
  refine ⟨?_, h.stack, ?_⟩
  · rw [htext]
    exact h.toReads
  · rw [htext, h.depth]

/-- A comment that opens or closes is passed over with its count. -/
theorem ReadsLine.counted {depth : UInt32} {u : Session} (hlook : s.Advances 0 u)
    (htext : Documentation.lineText s.depth.toNat s.cursor.ahead
      = ((Documentation.lineText depth.toNat (s.cursor.ahead.drop 2)).1 + 2,
          (Documentation.lineText depth.toNat (s.cursor.ahead.drop 2)).2))
    (h : ReadsLine { u.skip 2 with depth } t) : ReadsLine s t := by
  have hread := hlook.trans (Session.advances_skip 2 u)
  have hahead : (u.skip 2).cursor.ahead = s.cursor.ahead.drop 2 := hread.ahead
  refine .after (u := { u.skip 2 with depth }) ⟨hread.calls, hread.cursor⟩ hread.stack ?_ h
  rw [htext, ← hahead]
  rfl

/-- A comment that opens can be counted, and behind it the rest of the line is read. -/
theorem counts_open {u : Session} (hdepth : s.depth.toNat < depthLimit)
    (hs : s.cursor.ahead = c :: cs) (hbreak : isLineBreak c = false)
    (hopen : Documentation.atPair '(' ':' s.cursor.ahead = true) (hlook : s.Advances 0 u) :
    ∃ v, deeper? (u.skip 2) = some v ∧ v.depth.toNat < depthLimit ∧
      ∀ {t}, ReadsLine v t → ReadsLine s t := by
  have hkept : (u.skip 2).depth = s.depth := hlook.depth
  obtain ⟨depth, hsome, hmin⟩ := @deeper?_eq (u.skip 2) (hkept ▸ hdepth)
  rw [hkept] at hmin
  refine ⟨_, hsome, ?_, .counted hlook ?_⟩
  · show depth.toNat < depthLimit
    rw [hmin]
    exact Nat.lt_of_le_of_lt (Nat.min_le_right _ _) maxDepth_lt
  · rw [hs] at hopen ⊢
    rw [hmin]
    exact lineText_open hbreak hopen s.depth.toNat

/-- So can a comment that closes, which is none but a nested one. -/
theorem counts_close {u : Session} (hdepth : s.depth.toNat < depthLimit)
    (hs : s.cursor.ahead = c :: cs) (hbreak : isLineBreak c = false)
    (hend : Documentation.atTerminator s.depth.toNat s.cursor.ahead = false)
    (hopen : Documentation.atPair '(' ':' s.cursor.ahead = false)
    (hclose : Documentation.atPair ':' ')' s.cursor.ahead = true) (hlook : s.Advances 0 u) :
    ∃ v, shallower? (u.skip 2) = some v ∧ v.depth.toNat < depthLimit ∧
      ∀ {t}, ReadsLine v t → ReadsLine s t := by
  rw [hs] at hend hopen hclose
  obtain ⟨n, hn⟩ := depth_ne_zero hend hclose
  have hkept : (u.skip 2).depth = s.depth := hlook.depth
  obtain ⟨depth, hsome, hpred⟩ := @shallower?_eq (u.skip 2) n (hkept ▸ hn)
  refine ⟨_, hsome, ?_, .counted hlook ?_⟩
  · show depth.toNat < depthLimit
    omega
  · rw [hs, hn, hpred]
    exact lineText_close hbreak hopen hclose n

theorem lineText_spec (s : Session) (hdepth : s.depth.toNat < depthLimit) :
    ∃ t, lineText s = some t ∧ ReadsLine s t := by
  fun_induction lineText s with
  | case1 s hnone =>
    refine ⟨s, rfl, .stop (.refl s) ?_⟩
    rw [ahead_of_peek_none hnone, Documentation.lineText]
  | case2 s c hsome ended hended =>
    obtain ⟨cs, hcs⟩ := ahead_of_peek_some hsome
    rw [show ended.1 = _ from atTerminator_fst s, hcs] at hended
    refine ⟨_, rfl, .stop (atTerminator_advances s) ?_⟩
    rw [hcs, lineText_stop hended]
  | case3 s c hsome ended hended opened hopened hnone =>
    obtain ⟨cs, hcs⟩ := ahead_of_peek_some hsome
    rw [Bool.not_eq_true, Bool.or_eq_false_iff] at hended
    have hopen := (looked_open s).symm.trans hopened
    obtain ⟨v, hdeeper, -⟩ := counts_open hdepth hcs hended.2 hopen (looks_open s)
    cases hnone.symm.trans hdeeper
  | case4 s c hsome ended hended opened hopened u hdeeper ih =>
    obtain ⟨cs, hcs⟩ := ahead_of_peek_some hsome
    rw [Bool.not_eq_true, Bool.or_eq_false_iff] at hended
    have hopen := (looked_open s).symm.trans hopened
    obtain ⟨v, hsome, hlt, hline⟩ := counts_open hdepth hcs hended.2 hopen (looks_open s)
    obtain rfl := Option.some.inj (hdeeper.symm.trans hsome)
    obtain ⟨t, ht, hread⟩ := ih hlt
    exact ⟨t, ht, hline hread⟩
  | case5 s c hsome ended hended opened hopened closed hclosed hnone =>
    obtain ⟨cs, hcs⟩ := ahead_of_peek_some hsome
    rw [Bool.not_eq_true, Bool.or_eq_false_iff] at hended
    have hend := (atTerminator_fst s).symm.trans hended.1
    have hopen := (looked_open s).symm.trans ((Bool.not_eq_true _).mp hopened)
    have hclose := (looked_close s).symm.trans hclosed
    obtain ⟨v, hshallower, -⟩ :=
      counts_close hdepth hcs hended.2 hend hopen hclose (looks_close s)
    cases hnone.symm.trans hshallower
  | case6 s c hsome ended hended opened hopened closed hclosed u hshallower ih =>
    obtain ⟨cs, hcs⟩ := ahead_of_peek_some hsome
    rw [Bool.not_eq_true, Bool.or_eq_false_iff] at hended
    have hend := (atTerminator_fst s).symm.trans hended.1
    have hopen := (looked_open s).symm.trans ((Bool.not_eq_true _).mp hopened)
    have hclose := (looked_close s).symm.trans hclosed
    obtain ⟨v, hsome, hlt, hline⟩ :=
      counts_close hdepth hcs hended.2 hend hopen hclose (looks_close s)
    obtain rfl := Option.some.inj (hshallower.symm.trans hsome)
    obtain ⟨t, ht, hread⟩ := ih hlt
    exact ⟨t, ht, hline hread⟩
  | case7 s c hsome ended hended opened hopened closed hclosed ih =>
    obtain ⟨cs, hcs⟩ := ahead_of_peek_some hsome
    rw [Bool.not_eq_true, Bool.or_eq_false_iff] at hended
    have hopen := (looked_open s).symm.trans ((Bool.not_eq_true _).mp hopened)
    have hclose := (looked_close s).symm.trans ((Bool.not_eq_true _).mp hclosed)
    have hread : s.Advances 1 closed.2.bump := (looks_close s).bumps 1
    rw [hcs] at hopen hclose
    obtain ⟨t, ht, hline⟩ := ih (hread.depth ▸ hdepth)
    refine ⟨t, ht, .after hread.toReads hread.stack ?_ hline⟩
    rw [hread.ahead, hread.depth, hcs]
    exact lineText_plain hended.2 hopen hclose s.depth.toNat

/-- The work succeeds and finds the token of the step, and it leaves the session settled if it was
before. -/
def Finds (s : Session) (step : Step) (work : Option (Kind × Session)) : Prop :=
  ∃ outcome, work = some outcome ∧ s.Performs step (found outcome) ∧
    (s.Settled → outcome.2.Settled)

theorem finds_token (h : s.Advances n t) (kind : Kind) :
    Finds s (.token kind n) (some (kind, t)) :=
  ⟨_, rfl, h.token kind, h.settled⟩

/-- A switch packs the depth that has been reached, and so the session is settled. -/
theorem finds_reached (hread : s.Reads n t) (hstack : t.stack = s.stack) {depth : Nat}
    (hdepth : t.depth.toNat = depth) (hlt : depth < depthLimit) (kind : Kind) (mode : Mode) :
    Finds s ((Step.token kind n).moving (.replace (pack mode depth)))
      ((switch? mode t).map (kind, ·)) := by
  subst hdepth
  refine ⟨(kind, t.set (mode.word ||| t.depth <<< 8)), ?_, ⟨rfl, ⟨hread.calls, hread.cursor⟩, ?_⟩,
    fun _ => or_shiftRight mode hlt⟩
  · rw [switch?, shift?_eq hlt]
    rfl
  · simp [found, Session.set, Session.push, Session.pop, hstack, Step.moving, StackMove.apply,
      List.map_tail, toNat_or mode hlt]

theorem finds_switch (h : s.Advances n t) (hlt : s.depth.toNat < depthLimit) (kind : Kind)
    (mode : Mode) :
    Finds s ((Step.token kind n).moving (.replace (pack mode s.depth.toNat)))
      ((switch? mode t).map (kind, ·)) :=
  finds_reached h.toReads h.stack (congrArg _ h.depth) hlt kind mode

/-- A colon belongs to the indentation unless it closes a comment. -/
theorem colon_advances (s : Session) :
    s.Advances
      (if next ':' s.cursor.ahead && !Documentation.atPair ':' ')' s.cursor.ahead then 1 else 0)
      (colon s) := by
  unfold colon
  rw [Session.sees_eq]
  cases hcolon : next ':' s.cursor.ahead with
  | false => exact .refl s
  | true =>
    have hlook := atPair_advances ':' ')' s
    rw [← atPair_fst, Bool.true_and]
    generalize atPair ':' ')' s = close at *
    obtain ⟨closes, t⟩ := close
    cases closes with
    | true => exact hlook
    | false => exact hlook.bumps 1

theorem trim_advances (s : Session) :
    s.Advances (Documentation.trim s.depth.toNat s.cursor.ahead).length
      (colon ((s.eatWhile isLineBreak).eatWhile isInlineSpace)) := by
  have hbreaks := Session.advances_eatWhile isLineBreak s
  have hspaces := Session.advances_eatWhile isInlineSpace (s.eatWhile isLineBreak)
  have hcolon := colon_advances ((s.eatWhile isLineBreak).eatWhile isInlineSpace)
  rw [hspaces.ahead, hbreaks.ahead] at hcolon
  rw [hbreaks.ahead] at hspaces
  exact (hbreaks.trans hspaces).trans hcolon

theorem inlineSpace_finds (s : Session) :
    Finds s (Documentation.inlineSpace s.cursor.ahead) (some (inlineSpace s)) :=
  finds_token (Session.advances_eatWhile isInlineSpace s) .docWhiteSpace

section

variable (hlt : s.depth.toNat < depthLimit)
include hlt

theorem line_finds : Finds s (Documentation.line s.depth.toNat s.cursor.ahead) (line s) := by
  obtain ⟨t, ht, hline⟩ := lineText_spec s hlt
  have hle := lineText_depth_le s.depth.toNat s.cursor.ahead
  rw [line, ht]
  refine finds_reached hline.reads hline.stack hline.depth ?_ _ _
  exact Nat.lt_of_le_of_lt hle (Nat.max_lt.mpr ⟨hlt, maxDepth_lt⟩)

theorem trim_finds : Finds s (Documentation.trim s.depth.toNat s.cursor.ahead) (trim s) :=
  finds_switch (trim_advances s) hlt .docTrim .lineStart

theorem contents_finds :
    Finds s (Documentation.contents s.depth.toNat s.cursor.ahead) (contents s) := by
  have htrim := trim_finds hlt
  have hline := line_finds hlt
  unfold contents Documentation.contents
  cases hs : s.cursor.ahead with
  | nil =>
    rw [hs] at hline
    rw [peek_nil hs]
    exact hline
  | cons c cs =>
    rw [hs] at htrim hline
    simp only [peek_cons hs]
    split
    · exact htrim
    · exact hline

theorem lineStart_finds :
    Finds s (Documentation.lineStart s.depth.toNat s.cursor.ahead) (lineStart s) := by
  have htrim := trim_finds hlt
  have hline := line_finds hlt
  unfold lineStart Documentation.lineStart
  cases hs : s.cursor.ahead with
  | nil =>
    rw [hs] at hline
    rw [peek_nil hs]
    exact hline
  | cons c cs =>
    rw [hs] at htrim hline
    simp only [peek_cons hs]
    split
    · exact htrim
    · split
      · rw [← hs]
        exact inlineSpace_finds s
      · split
        · exact finds_switch (Session.advances_bumps 1 s) hlt _ _
        · exact hline

/-- The meaning of a tag depends on the text of the token, which is that of the code points read. -/
theorem tag_finds {before : Session} (hpoised : before.cursor.start = before.cursor.stop)
    (hread : before.Advances 0 s) :
    Finds s (Documentation.tag s.depth.toNat s.cursor.ahead) (tag s) := by
  have hcontents := contents_finds hlt
  unfold tag Documentation.tag
  cases hs : s.cursor.ahead with
  | nil =>
    rw [hs] at hcontents
    rw [charClass_nil hs]
    exact hcontents
  | cons c cs =>
    rw [hs] at hcontents
    rw [charClass_cons hs]
    simp only
    split
    · have hname := Session.advances_bumps (1 + nameChars cs) s
      have htext := (hread.trans hname).text? hpoised
      have hahead : before.cursor.ahead = c :: cs := hread.ahead.symm.trans hs
      rw [hahead, Nat.zero_add, Nat.add_comm, List.take_succ_cons, Nat.add_comm] at htext
      rw [ncName_eq hs, htext, Option.bind_some]
      exact finds_switch hname hlt _ _
    · exact hcontents

theorem paramStart_finds :
    Finds s (Documentation.paramStart s.depth.toNat s.cursor.ahead) (paramStart s) := by
  have hcontents := contents_finds hlt
  unfold paramStart Documentation.paramStart
  cases hs : s.cursor.ahead with
  | nil =>
    rw [hs] at hcontents
    rw [peek_nil hs]
    exact hcontents
  | cons c cs =>
    rw [hs] at hcontents
    simp only [peek_cons hs]
    split
    · rw [← hs]
      exact inlineSpace_finds s
    · split
      · exact finds_switch (Session.advances_bumps 1 s) hlt _ _
      · exact hcontents

theorem paramName_finds :
    Finds s (Documentation.paramName s.depth.toNat s.cursor.ahead) (paramName s) := by
  have hcontents := contents_finds hlt
  unfold paramName Documentation.paramName
  cases hs : s.cursor.ahead with
  | nil =>
    rw [hs] at hcontents
    rw [charClass_nil hs]
    exact hcontents
  | cons c cs =>
    rw [hs] at hcontents
    rw [charClass_cons hs]
    simp only
    split
    · rw [ncName_eq hs]
      exact finds_switch (Session.advances_bumps _ s) hlt _ _
    · exact hcontents

theorem scan_finds (mode : Mode) {before : Session}
    (hpoised : before.cursor.start = before.cursor.stop) (hread : before.Advances 0 s) :
    Finds s (Documentation.scan mode s.depth.toNat s.cursor.ahead) (scan mode s) := by
  cases mode with
  | contents => exact contents_finds hlt
  | lineStart => exact lineStart_finds hlt
  | tag => exact tag_finds hlt hpoised hread
  | paramStart => exact paramStart_finds hlt
  | paramName => exact paramName_finds hlt

end

theorem token_finds {state : UInt32} (hpoised : s.cursor.start = s.cursor.stop)
    (hdepth : s.depth = state >>> 8) :
    ∃ outcome, token state s = some outcome ∧
      s.Performs (rule state.toNat s.cursor.ahead) outcome ∧
      (s.Settled → outcome.2.Settled) := by
  have hlook := atTerminator_advances s
  have hend := atTerminator_fst s
  have hunit : s.depth.toNat = state.toNat / depthUnit := by rw [hdepth, toNat_shiftRight]
  unfold token rule
  simp only [← hunit, ← toNat_and, ← hend]
  generalize atTerminator s = ended at *
  obtain ⟨ends, t⟩ := ended
  cases ends with
  | true => exact ⟨_, rfl, hlook.exhausted, hlook.settled⟩
  | false =>
    have hlt : t.depth.toNat < depthLimit := by
      rw [hlook.depth, hdepth]
      exact shiftRight_lt state
    obtain ⟨outcome, hscan, hperforms, hsettled⟩ :=
      scan_finds hlt (Mode.ofCode (state &&& 0xFF).toNat) hpoised hlook
    rw [hlook.ahead, hlook.depth, List.drop_zero] at hperforms
    refine ⟨found outcome, ?_, hlook.performs hperforms, fun hs => hsettled (hlook.settled hs)⟩
    simp only [hscan]
    rfl

end Work

/-- One token: the work never fails, it finds the token of the rule, and it leaves the session
settled if the state is the one on top of the stack. -/
theorem work_finds (state : UInt32) (s : Session) (hpoised : s.cursor.start = s.cursor.stop) :
    ∃ outcome, work state s = some outcome ∧
      s.Performs (rule state.toNat s.cursor.ahead) outcome ∧
      (s.nextState = state → outcome.2.Settled) := by
  obtain ⟨outcome, htoken, ⟨hkind, hreads, hstack⟩, hsettled⟩ :=
    @Work.token_finds { s with depth := state >>> 8 } state hpoised rfl
  refine ⟨outcome, htoken, ⟨hkind, ⟨hreads.calls, hreads.cursor⟩, hstack⟩, ?_⟩
  rintro rfl
  exact hsettled rfl

theorem work_implements : Work.Implements work rule := by
  intro state s hpoised
  obtain ⟨outcome, hwork, hperforms, _⟩ := work_finds state s hpoised
  exact ⟨outcome, hwork, hperforms⟩

end Documentation

end XQuery
