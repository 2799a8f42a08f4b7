import XQuery.Proofs.Lexer.Documented
import XQuery.Proofs.Lexer.Lookahead

/-!
# Reading a text again after an edit

An edit leaves the tokens alone that end four units or more before it, and
lexing resumes at the first other token, in the state in which that token was
read before. What is read this way is what a lexer reads from the edited text
as a whole (`Lexer.tokens_edit`).
-/

namespace XQuery

open Utf16 (width)

/-! ## Readers -/

/-- The reader reads the same in all texts that agree up to three units behind what it reads. -/
def Reader.Local (read : Reader) : Prop :=
  ∀ state w s s', Sees w ((read state (w ++ s)).elim 0 Lexeme.length) →
    read state (w ++ s') = read state (w ++ s)

namespace Reader.Local

variable {read : Reader} {state : Nat} {w s : List CodePoint}

theorem of_some (h : read.Local) {rd : Lexeme} (hread : read state (w ++ s) = some rd)
    (hsees : Sees w rd.length) (s' : List CodePoint) : read state (w ++ s') = some rd := by
  rw [h state w s s' (by rw [hread]; exact hsees), hread]

theorem of_none (h : read.Local) (hread : read state (w ++ s) = none) (hsees : Sees w 0)
    (s' : List CodePoint) : read state (w ++ s') = none := by
  rw [h state w s s' (by rw [hread]; exact hsees), hread]

end Reader.Local

theorem Rule.Local.reader {rule : Rule} (h : rule.Local) (hprogress : rule.Progressive) :
    rule.reader.Local := by
  intro state w s s' hsees
  have hrule : rule state (w ++ s') = rule state (w ++ s) := by
    refine h state w s s' ?_
    cases hkind : (rule state (w ++ s)).kind with
    | some kind =>
      rw [Rule.reader, hkind] at hsees
      exact hsees
    | none =>
      rcases hprogress state (w ++ s) with htakes | hends
      · have hsome := htakes.isSome
        rw [hkind] at hsome
        cases hsome
      · rw [Rule.reader, hkind] at hsees
        rw [hends.length]
        exact hsees
  unfold Rule.reader
  rw [hrule]

/-- An account of a lexer that looks no further ahead than three units. -/
structure Lexer.Account.Local {lexer : Lexer} (a : lexer.Account) : Prop where
  read : a.read.Local
  /-- The reported state stands for the state that was read in also where the text goes on
  differently. -/
  state : ∀ {state w s rd}, a.Valid state → Sees w 0 → a.read state (w ++ s) = some rd →
    ∀ s', a.read rd.state (w ++ s') = a.read state (w ++ s')

theorem Lexer.Account.ofRule_local {rule : Rule} {Valid : Nat → Prop}
    (hprogress : rule.Progressive) (hrule : rule.Closed Valid) (h : rule.Local) :
    (Lexer.Account.ofRule hprogress hrule).Local where
  read := h.reader hprogress
  state _ _ hread _ := by rw [(Rule.reader_eq_some hread).2.2.1]

namespace Combined

variable {c : Combined}

theorem readLanguage_local {language : Reader} (h : language.Local) :
    (c.readLanguage language).Local := by
  intro state w s s' hsees
  unfold readLanguage at hsees ⊢
  rw [h state w s s' ?_]
  cases hread : language state (w ++ s) with
  | none =>
    rw [hread] at hsees
    exact hsees
  | some rd =>
    rw [hread] at hsees
    simpa only [Option.map_some, Option.elim_some, handOver_length] using hsees

theorem readSub_local {language : Reader} {subs : c.Index → Reader} (h : language.Local)
    (hsubs : ∀ i, (subs i).Local) (i : c.Index) : (c.readSub language subs i).Local := by
  intro state w s s' hsees
  unfold readSub at hsees ⊢
  cases hread : subs i state (w ++ s) with
  | some rd =>
    rw [hread] at hsees
    rw [(hsubs i).of_some hread hsees]
  | none =>
    rw [hread] at hsees
    rw [(hsubs i).of_none hread (hsees.mono (Nat.zero_le _))]
    exact readLanguage_local h _ w s s' hsees

theorem reader_local {language : Reader} {subs : c.Index → Reader} (h : language.Local)
    (hsubs : ∀ i, (subs i).Local) : (c.reader language subs).Local := by
  intro state w s s' hsees
  unfold reader at hsees ⊢
  cases howner : c.owner state with
  | some i =>
    rw [howner] at hsees
    exact readSub_local h hsubs i _ w s s' hsees
  | none =>
    rw [howner] at hsees
    exact readLanguage_local h _ w s s' hsees

theorem Parts.readLanguage_state (p : c.Parts) (h : p.language.Local) {state : Nat}
    {w s : List CodePoint} {rd : Lexeme} (hstate : p.language.Valid state) (hsees : Sees w 0)
    (hread : c.readLanguage p.language.read state (w ++ s) = some rd) (s' : List CodePoint) :
    p.read rd.state (w ++ s') = c.readLanguage p.language.read state (w ++ s') := by
  obtain ⟨r, hr, rfl⟩ := readLanguage_eq_some hread
  have hlt := p.language_lt (p.language.valid_state hstate hr)
  rw [handOver_state, read, p.registered.reader_language _ _ hlt, readLanguage, readLanguage,
    h.state hstate hsees hr]

theorem Parts.readSub_state (p : c.Parts) (h : p.language.Local) {i : c.Index}
    (hi : (p.subs i).Local) {state : Nat} {w s : List CodePoint} {rd : Lexeme}
    (hstate : (p.subs i).Valid state) (hsees : Sees w 0)
    (hread : c.readSub p.language.read (fun i => (p.subs i).read) i state (w ++ s) = some rd)
    (s' : List CodePoint) :
    p.read rd.state (w ++ s')
      = c.readSub p.language.read (fun i => (p.subs i).read) i state (w ++ s') := by
  unfold readSub at hread
  cases hsub : (p.subs i).read state (w ++ s) with
  | some r =>
    simp only [hsub] at hread
    cases hread
    have hlt := p.subs_lt ((p.subs i).valid_state hstate hsub)
    rw [read, p.registered.reader_sub _ _ i hlt, readSub, readSub, hi.state hstate hsees hsub]
  | none =>
    -- the sub-lexer ends here in the other text as well, and its parent reads on
    simp only [hsub] at hread
    have hend := hi.read.of_none hsub hsees s'
    simp only [readSub, hend]
    exact p.readLanguage_state h (p.parent i) hsees hread s'

theorem Parts.account_local (p : c.Parts) (h : p.language.Local)
    (hsubs : ∀ i, (p.subs i).Local) : p.account.Local where
  read := reader_local h.read fun i => (hsubs i).read
  state := by
    intro state w s rd hstate hsees hread s'
    change p.Valid state at hstate
    change p.read state (w ++ s) = some rd at hread
    show p.read rd.state (w ++ s') = c.reader _ _ state (w ++ s')
    unfold Valid at hstate
    unfold read reader at hread
    rw [reader]
    cases howner : c.owner state with
    | some i =>
      rw [howner] at hstate hread
      exact p.readSub_state h (hsubs i) hstate hsees hread s'
    | none =>
      rw [howner] at hstate hread
      exact p.readLanguage_state h hstate hsees hread s'

end Combined

theorem Expression.account_local : Expression.account.Local :=
  Lexer.Account.ofRule_local _ _ Expression.rule_local

theorem Documentation.partAccount_local : Documentation.partAccount.Local :=
  Lexer.Account.ofRule_local _ _ Documentation.rule_local

theorem Combined.documented_local : documentedParts.account.Local := by
  refine documentedParts.account_local Expression.account_local ?_
  rintro ⟨_ | i, hi⟩
  · exact Documentation.partAccount_local
  · exact absurd hi (Nat.not_lt.mpr (Nat.le_add_left 1 i))

/-! ## Runs -/

/-- The tokens that end four units or more before an edit at offset `p`. -/
def untouched (p : Nat) (ts : List Token) : List Token := ts.takeWhile fun t => t.stop + 4 ≤ p

/-- Where lexing resumes, and in which state: at the first token that is not untouched. -/
def restart (p : Nat) (ts : List Token) : Nat × Nat :=
  match ts[(untouched p ts).length]? with
  | some t => (t.start, t.state)
  | none => (0, 0)

/-- What is read of a text that was edited at offset `p`, if `ts` was read of it before. -/
def Lexer.relex (lexer : Lexer) (ts : List Token) (p : Nat) (units : Array UInt16) : List Token :=
  untouched p ts ++ lexer.tokens units (restart p ts).1 units.size (restart p ts).2

theorem sees_of_stop {p offset n : Nat} {w s : List CodePoint} (hp : p ≤ offset + width w + 1)
    (h : offset + width ((w ++ s).take n) + 4 ≤ p) : Sees w n ∧ n ≤ w.length := by
  have hle : n ≤ w.length := by
    apply Nat.le_of_not_lt
    intro hlt
    rw [List.take_append, List.take_of_length_le (Nat.le_of_lt hlt), Utf16.width_append] at h
    omega
  have hsplit := Utf16.width_take_add_drop w n
  rw [List.take_append_of_le_length hle] at h
  refine ⟨?_, hle⟩
  unfold Sees
  omega

/-- A run over a whole text has a token that is not untouched, unless the text is empty. -/
theorem untouched_length_lt {p first last : Nat} {ts : List Token} (h : Tiles first ts last)
    (hp : p ≤ last) (hne : ts ≠ []) : (untouched p ts).length < ts.length := by
  induction ts generalizing first with
  | nil => exact absurd rfl hne
  | cons t ts ih =>
    obtain ⟨_, _, hrest⟩ := h
    by_cases hkept : t.stop + 4 ≤ p
    · have huntouched : untouched p (t :: ts) = t :: untouched p ts := by simp [untouched, hkept]
      have hne : ts ≠ [] := by
        rintro rfl
        have hlast : t.stop = last := hrest
        omega
      rw [huntouched]
      exact Nat.succ_lt_succ (ih hrest hne)
    · have huntouched : untouched p (t :: ts) = [] := by simp [untouched, hkept]
      rw [huntouched]
      exact Nat.succ_pos _

namespace Lexer

variable {lexer : Lexer}

/-- Two texts that go on differently behind `w`: the run over the second one begins with the
untouched tokens of the run over the first one, and goes on where the next token of the first run
started. -/
theorem Account.Local.runs_edit {a : lexer.Account} (ha : a.Local) {p offset state : Nat}
    {w s s' : List CodePoint} {ts us : List Token} (h : a.read.Runs offset state (w ++ s) ts)
    (h' : a.read.Runs offset state (w ++ s') us) (hstate : a.Valid state)
    (hp : p ≤ offset + width w + 1)
    (hsame : ∀ rd, a.read state (w ++ s) = some rd →
      a.read rd.state (w ++ s') = a.read state (w ++ s')) :
    ∃ rest, us = untouched p ts ++ rest ∧
      ∀ t, ts[(untouched p ts).length]? = some t →
        ∃ n, t.start = offset + width ((w ++ s').take n) ∧ a.Valid t.state ∧
          a.read.Runs t.start t.state ((w ++ s').drop n) rest := by
  generalize hcs : w ++ s = cs at h
  -- the invariant of the induction on the old run: the new run is in the same state here, and
  -- what is left of `w` reaches to one unit before the edit
  induction h generalizing w us with
  | done hread => exact ⟨us, rfl, by simp [untouched]⟩
  | @more offset state cs rd ts hread hrest ih =>
    subst hcs
    by_cases hkept : (rd.token offset (w ++ s)).stop + 4 ≤ p
    · have huntouched : untouched p (rd.token offset (w ++ s) :: ts)
          = rd.token offset (w ++ s) :: untouched p ts := by simp [untouched, hkept]
      obtain ⟨hsees, hle⟩ := sees_of_stop hp hkept
      have htake : ∀ t, (w ++ t).take rd.length = w.take rd.length :=
        fun t => List.take_append_of_le_length hle
      have hdrop : ∀ t, (w ++ t).drop rd.length = w.drop rd.length ++ t :=
        fun t => List.drop_append_of_le_length hle
      have hsplit := Utf16.width_take_add_drop w rd.length
      obtain ⟨us, rfl, hrest'⟩ := h'.eq_cons (ha.read.of_some hread hsees s')
      have hnext := a.valid_next hstate hread
      rw [htake, hdrop] at hrest' ih
      obtain ⟨rest, rfl, hrestart⟩ := ih hrest' hnext (by omega)
        (fun r hr => ha.state hnext hsees hr s') rfl
      rw [huntouched]
      refine ⟨rest, ?_, ?_⟩
      · simp only [Lexeme.token, htake, List.cons_append]
      · intro t ht
        obtain ⟨n, hstart, hvalid, hruns⟩ := hrestart t ht
        refine ⟨rd.length + n, ?_, hvalid, ?_⟩
        · rw [hstart, List.take_add, Utf16.width_append, htake, hdrop, Nat.add_assoc]
        · rw [← List.drop_drop, hdrop]
          exact hruns
    · have huntouched : untouched p (rd.token offset (w ++ s) :: ts) = [] := by
        simp [untouched, hkept]
      rw [huntouched]
      refine ⟨us, rfl, ?_⟩
      rintro t ⟨⟩
      exact ⟨0, by simp [Lexeme.token], a.valid_state hstate hread, h'.congr (hsame rd hread)⟩

theorem Exhaustive.untouched_lt (hexhaustive : lexer.Exhaustive) (hlexer : lexer.Progressive)
    {units : Array UInt16} {p : Nat} (hp : p ≤ units.size) (hpos : 0 < units.size) :
    (untouched p (lexer.tokens units 0 units.size 0)).length
      < (lexer.tokens units 0 units.size 0).length := by
  have htiles := hexhaustive.tokens_tiles hlexer units 0 units.size 0
  rw [Nat.min_self, Nat.zero_min] at htiles
  exact untouched_length_lt htiles hp (htiles.ne_nil hpos)

theorem Exhaustive.tokens_nil (hexhaustive : lexer.Exhaustive) (hlexer : lexer.Progressive)
    {units : Array UInt16} (hzero : units.size = 0) : lexer.tokens units 0 units.size 0 = [] := by
  have htiles := hexhaustive.tokens_tiles hlexer units 0 units.size 0
  rw [Nat.min_self, Nat.zero_min, hzero] at htiles
  rw [hzero]
  exact htiles.eq_nil

theorem Account.Local.tokens_eq_relex {a : lexer.Account} (ha : a.Local)
    (hlexer : lexer.Progressive) (hexhaustive : lexer.Exhaustive) (hzero : a.Valid 0)
    (hstate : ∀ {cs rd}, a.read 0 cs = some rd → rd.state = 0) {old new : Array UInt16} {p : Nat}
    (hp : p ≤ old.size) (h : old.extract 0 p = new.extract 0 p) :
    lexer.tokens new 0 new.size 0 = lexer.relex (lexer.tokens old 0 old.size 0) p new := by
  have hold := a.tokens_runs hlexer hzero old 0 old.size
  have hnew := a.tokens_runs hlexer hzero new 0 new.size
  have hunits : new.toList.take p = old.toList.take p := by
    have hlist := congrArg Array.toList h
    rw [Cursor.toList_extract, Cursor.toList_extract] at hlist
    exact hlist.symm
  obtain ⟨w, s, s', hs, hs', hlength⟩ := Utf16.exists_decode_append (old.toList.take p)
    (old.toList.drop p) (new.toList.drop p)
  rw [List.take_append_drop] at hs
  rw [← hunits, List.take_append_drop] at hs'
  rw [List.length_take, Array.length_toList, Nat.min_eq_left hp] at hlength
  rw [Cursor.ofRegion_stop_all, Cursor.ofRegion_ahead_all, hs] at hold
  rw [Cursor.ofRegion_stop_all, Cursor.ofRegion_ahead_all, hs'] at hnew
  obtain ⟨rest, htokens, hrestart⟩ := ha.runs_edit hold hnew hzero (p := p) (by omega)
    (fun rd hread => by rw [hstate hread])
  cases hnext : (lexer.tokens old 0 old.size 0)[
      (untouched p (lexer.tokens old 0 old.size 0)).length]? with
  | some t =>
    obtain ⟨n, hstart, hvalid, hruns⟩ := hrestart t hnext
    have hregion : (Cursor.ofRegion new 0 new.size).ahead = w ++ s' := by
      rw [Cursor.ofRegion_ahead_all, hs']
    have hoffset : t.start = (Cursor.ofRegion new 0 new.size).stop
        + width ((Cursor.ofRegion new 0 new.size).ahead.take n) := by
      rw [hregion, Cursor.ofRegion_stop_all, hstart]
    rw [← hregion] at hruns
    have hresumed := a.tokens_eq_of_runs hlexer hvalid hoffset hruns
    simp only [relex, restart, hnext, hresumed]
    exact htokens
  | none =>
    -- only an empty text has no token left to resume at
    have hsize : old.size = 0 := by
      apply Nat.eq_zero_of_not_pos
      intro hpos
      have hlt := hexhaustive.untouched_lt hlexer hp hpos
      rw [List.getElem?_eq_none_iff] at hnext
      omega
    rw [hexhaustive.tokens_nil hlexer hsize]
    rfl

/-- After an edit behind the first `p` units the expression lexer, with or without documentation,
reads again what a new lexer reads from the whole text. Unless the text was empty there is a token
to resume at. -/
theorem tokens_edit (h : lexer = .expression ∨ lexer = .documented) {old new : Array UInt16}
    {p : Nat} (hp : p ≤ old.size) (hunits : old.extract 0 p = new.extract 0 p) :
    (0 < old.size → (untouched p (lexer.tokens old 0 old.size 0)).length
      < (lexer.tokens old 0 old.size 0).length) ∧
    lexer.tokens new 0 new.size 0 = lexer.relex (lexer.tokens old 0 old.size 0) p new := by
  rcases h with rfl | rfl
  · refine ⟨fun hpos => ?_, ?_⟩
    · exact expression_exhaustive.untouched_lt Tree.expression.progressive hp hpos
    · refine Expression.account_local.tokens_eq_relex Tree.expression.progressive
        expression_exhaustive ⟨.plain, rfl⟩ ?_ hp hunits
      intro cs rd hread
      exact (Rule.reader_eq_some hread).2.2.1
  · refine ⟨fun hpos => ?_, ?_⟩
    · exact documented_exhaustive.untouched_lt Tree.documented.progressive hp hpos
    · refine Combined.documented_local.tokens_eq_relex Tree.documented.progressive
        documented_exhaustive (Combined.documentedParts.valid_language ⟨.plain, rfl⟩) ?_ hp hunits
      intro cs rd hread
      obtain ⟨r, hr, rfl⟩ := Combined.Parts.readLanguage_eq_some hread
      rw [Combined.handOver_state]
      exact (Rule.reader_eq_some hr).2.2.1

/-- In `(:~a`, a line break and `bcd:)` the closing `:)` is overwritten by `(:`, which leaves the
first line alone. -/
theorem tokens_edit_in_comment :
    restart 8 (Lexer.documented.tokens
      #[0x28, 0x3A, 0x7E, 0x61, 0x0A, 0x62, 0x63, 0x64, 0x3A, 0x29] 0 10 0) = (4, 0x10000000) ∧
    Lexer.documented.tokens #[0x28, 0x3A, 0x7E, 0x61, 0x0A, 0x62, 0x63, 0x64, 0x28, 0x3A] 0 10 0
      = Lexer.documented.relex (Lexer.documented.tokens
          #[0x28, 0x3A, 0x7E, 0x61, 0x0A, 0x62, 0x63, 0x64, 0x3A, 0x29] 0 10 0) 8
        #[0x28, 0x3A, 0x7E, 0x61, 0x0A, 0x62, 0x63, 0x64, 0x28, 0x3A] := by
  refine ⟨by decide +kernel, ?_⟩
  have hunits : (#[0x28, 0x3A, 0x7E, 0x61, 0x0A, 0x62, 0x63, 0x64, 0x3A, 0x29] :
      Array UInt16).extract 0 8
      = (#[0x28, 0x3A, 0x7E, 0x61, 0x0A, 0x62, 0x63, 0x64, 0x28, 0x3A] :
        Array UInt16).extract 0 8 := by decide
  exact (tokens_edit (.inr rfl) (by decide) hunits).2

end Lexer

end XQuery
