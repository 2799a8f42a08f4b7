import XQuery.Proofs.Lexer.Tiling

/-!
# Lexers without memory

A reader knows a state and the code points ahead and nothing else. What it
reads is a token, the state reported for it, and the state in which it goes
on. An account of a lexer is a reader together with a proof that the lexer
reads what the reader reads, whatever its memory holds: the stack of states of
a scanner, or the memories of the lexers that a combined lexer consists of.
-/

namespace XQuery

open Utf16 (width)

/-- What a reader finds at a place. -/
structure Lexeme where
  kind : Kind
  /-- The length of the token in code points. -/
  length : Nat
  /-- The state that is reported for the token. -/
  state : Nat
  /-- The state in which the next token is read. -/
  next : Nat

/-- The token that is read at an offset from the code points ahead. -/
def Lexeme.token (rd : Lexeme) (offset : Nat) (cs : List CodePoint) : Token :=
  { kind := rd.kind, start := offset, stop := offset + width (cs.take rd.length),
    state := rd.state }

/-- What is read in a state from the code points ahead; nothing once there is no token left. -/
abbrev Reader := Nat → List CodePoint → Option Lexeme

namespace Reader

/-- Reading token after token from an offset, a state and the code points ahead. -/
inductive Runs (read : Reader) : Nat → Nat → List CodePoint → List Token → Prop
  | done {offset state : Nat} {cs : List CodePoint} : read state cs = none →
      Runs read offset state cs []
  | more {offset state : Nat} {cs : List CodePoint} {rd : Lexeme} {ts : List Token} :
      read state cs = some rd →
      Runs read (offset + width (cs.take rd.length)) rd.next (cs.drop rd.length) ts →
      Runs read offset state cs (rd.token offset cs :: ts)

theorem Runs.unique {read : Reader} {offset state : Nat} {cs : List CodePoint}
    {ts us : List Token} (h : read.Runs offset state cs ts) (h' : read.Runs offset state cs us) :
    ts = us := by
  induction h generalizing us with
  | done hnone =>
    cases h' with
    | done => rfl
    | more hsome => rw [hnone] at hsome; cases hsome
  | more hsome _ ih =>
    cases h' with
    | done hnone => rw [hnone] at hsome; cases hsome
    | more hsome' hrest =>
      rw [hsome] at hsome'
      cases hsome'
      rw [ih hrest]

theorem Runs.eq_nil {read : Reader} {offset state : Nat} {cs : List CodePoint} {ts : List Token}
    (h : read.Runs offset state cs ts) (hread : read state cs = none) : ts = [] :=
  h.unique (.done hread)

theorem Runs.eq_cons {read : Reader} {offset state : Nat} {cs : List CodePoint} {ts : List Token}
    {rd : Lexeme} (h : read.Runs offset state cs ts) (hread : read state cs = some rd) :
    ∃ us, ts = rd.token offset cs :: us ∧
      read.Runs (offset + width (cs.take rd.length)) rd.next (cs.drop rd.length) us := by
  cases h with
  | done hnone => rw [hread] at hnone; cases hnone
  | more hsome hrest =>
    rw [hread] at hsome
    cases hsome
    exact ⟨_, rfl, hrest⟩

/-- Two states that read the same here run alike. -/
theorem Runs.congr {read : Reader} {offset state state' : Nat} {cs : List CodePoint}
    {ts : List Token} (h : read.Runs offset state cs ts) (heq : read state' cs = read state cs) :
    read.Runs offset state' cs ts := by
  cases h with
  | done hnone => exact .done (heq.trans hnone)
  | more hsome hrest => exact .more (heq.trans hsome) hrest

/-- What is known of the tokens read so far and of where they lead, if every token keeps it, says
something of every token of a run. -/
theorem Runs.forall_split {read : Reader} (P : List Token → Token → Prop)
    (Known : List Token → Nat → Nat → List CodePoint → Prop)
    (hstep : ∀ {before offset state cs rd}, Known before offset state cs →
      read state cs = some rd → P before (rd.token offset cs) ∧
        Known (before ++ [rd.token offset cs]) (offset + width (cs.take rd.length)) rd.next
          (cs.drop rd.length))
    {before ts : List Token} {offset state : Nat} {cs : List CodePoint}
    (h : read.Runs offset state cs ts) (hknown : Known before offset state cs)
    {run after : List Token} {t : Token} (ht : ts = run ++ t :: after) : P (before ++ run) t := by
  -- the induction is on the run; what has been read grows by one token at each step
  induction h generalizing before run with
  | done => simp at ht
  | more hread _ ih =>
    obtain ⟨hfirst, hrest⟩ := hstep hknown hread
    cases run with
    | nil =>
      cases ht
      rw [List.append_nil]
      exact hfirst
    | cons u run =>
      cases ht
      have hrun := ih hrest rfl
      rw [List.append_assoc] at hrun
      exact hrun

end Reader

namespace Lexer

/-- The memory shows what was read from the cursor `c`; `Stands` says in which state it goes on. -/
def Shows (lexer : Lexer) (Stands : lexer.Memory → Nat → Prop) (m : lexer.Memory) (c : Cursor) :
    Option Lexeme → Prop
  | none => lexer.kind m = none ∧ c.Reads 0 (lexer.cursor m)
  | some rd => lexer.kind m = some rd.kind ∧ lexer.state m = rd.state ∧
      c.Reads rd.length (lexer.cursor m) ∧ Stands m rd.next

/-- Taking over where another lexer found nothing shows what is read from the same place. -/
theorem Shows.resume {lexer : Lexer} {Stands : lexer.Memory → Nat → Prop} {m : lexer.Memory}
    {c d : Cursor} {rd : Option Lexeme} (hd : c.Reads 0 d)
    (h : lexer.Shows Stands m d.resume rd) : lexer.Shows Stands m c rd := by
  cases rd with
  | none => exact ⟨h.1, hd.resume h.2⟩
  | some rd => exact ⟨h.1, h.2.1, hd.resume h.2.2.1, h.2.2.2⟩

/-- A reader that a lexer follows. -/
structure Account (lexer : Lexer) where
  read : Reader
  /-- The states that the account is about. -/
  Valid : Nat → Prop
  /-- The memories that can be started. -/
  Ready : lexer.Memory → Prop
  /-- The memories that go on in a state. -/
  Stands : lexer.Memory → Nat → Prop
  ready : lexer.Invariant Ready
  start : ∀ {m c state}, Ready m → Valid state →
    lexer.Shows Stands (lexer.start m c state) c (read state c.ahead)
  advance : ∀ {m state}, Stands m state → Valid state →
    lexer.Shows Stands (lexer.advance m) (lexer.cursor m) (read state (lexer.cursor m).ahead)
  valid_state : ∀ {state cs rd}, Valid state → read state cs = some rd → Valid rd.state
  valid_next : ∀ {state cs rd}, Valid state → read state cs = some rd → Valid rd.next
  /-- The reported state reads the same token again. -/
  read_state : ∀ {state cs rd}, Valid state → read state cs = some rd →
    read rd.state cs = some rd

variable {lexer : Lexer}

namespace Account

/-- Draining a lexer is a run of its reader. -/
theorem runs (a : lexer.Account) {m m' : lexer.Memory} {ts : List Token}
    (h : lexer.Drains m ts m') {c : Cursor} {state : Nat} (hstate : a.Valid state)
    (hm : lexer.Shows a.Stands m c (a.read state c.ahead)) :
    a.read.Runs c.stop state c.ahead ts := by
  -- before each token the memory shows what the reader reads at the cursor behind the last one
  induction h generalizing c state with
  | done hnone =>
    cases hread : a.read state c.ahead with
    | none => exact .done hread
    | some rd =>
      rw [hread] at hm
      have hkind := hm.1
      rw [token?_eq_none.mp hnone] at hkind
      cases hkind
  | @more m m' t ts hsome _ ih =>
    obtain ⟨hkind, hts, hstart, hstop⟩ := token?_eq_some hsome
    cases hread : a.read state c.ahead with
    | none =>
      rw [hread] at hm
      rw [hm.1] at hkind
      cases hkind
    | some rd =>
      rw [hread] at hm
      obtain ⟨hkind', hts', hreads, hstands⟩ := hm
      have hnext := a.valid_next hstate hread
      have hrest := ih hnext (a.advance hstands hnext)
      rw [hreads.stop, hreads.ahead] at hrest
      have htoken : t = rd.token c.stop c.ahead := by
        obtain ⟨kind, start, stop, tokenState⟩ := t
        simp only at hkind hts hstart hstop
        rw [hkind] at hkind'
        cases hkind'
        simp only [Lexeme.token, Token.mk.injEq, true_and]
        exact ⟨by rw [← hstart, hreads.start], by rw [← hstop, hreads.stop], by rw [← hts, hts']⟩
      rw [htoken]
      exact .more hread hrest

/-- The tokens of a region are a run of the reader from the start of the region. -/
theorem tokens_runs (a : lexer.Account) (hlexer : lexer.Progressive) {state : Nat}
    (hstate : a.Valid state) (units : Array UInt16) (first last : Nat) :
    a.read.Runs (Cursor.ofRegion units first last).stop state
      (Cursor.ofRegion units first last).ahead (lexer.tokens units first last state) :=
  a.runs (drain_drains hlexer _) hstate (a.start a.ready.fresh hstate)

end Account

end Lexer

/-! ## Scanners -/

/-- The state on top after the move, where below the state lies nothing but the default state. -/
def StackMove.next : StackMove → Nat → Nat
  | keep, state => state
  | push s, _ => s
  | pop, _ => 0
  | replace s, _ => s

/-- A rule as a reader. -/
def Rule.reader (rule : Rule) : Reader := fun state cs =>
  (rule state cs).kind.map fun kind =>
    { kind, length := (rule state cs).length, state, next := (rule state cs).move.next state }

theorem Rule.reader_eq_some {rule : Rule} {state : Nat} {cs : List CodePoint} {rd : Lexeme}
    (h : rule.reader state cs = some rd) :
    (rule state cs).kind = some rd.kind ∧ (rule state cs).length = rd.length ∧
      rd.state = state ∧ rd.next = (rule state cs).move.next state := by
  simp only [Rule.reader, Option.map_eq_some_iff] at h
  obtain ⟨kind, hkind, rfl⟩ := h
  exact ⟨hkind, rfl, rfl, rfl⟩

/-- The rule stays inside a set of states, of which only the default state is left by a push. -/
structure Rule.Closed (rule : Rule) (Valid : Nat → Prop) : Prop where
  push : ∀ {state cs s}, Valid state → (rule state cs).move = .push s → state = 0
  next : ∀ {state cs}, Valid state → Valid ((rule state cs).move.next state)

/-- The scanner goes on in the state, and what it has stacked below is the default state. -/
structure Scanner.Stands (s : Scanner) (state : Nat) : Prop where
  default : s.defaultState = 0
  top : s.nextState = state
  below : ∀ x ∈ s.stack.tail, x = 0

theorem Scanner.start_stands {s : Scanner} (hs : s.defaultState = 0) (c : Cursor) (state : Nat) :
    (s.start c state).Stands state := by
  refine ⟨hs, ?_, ?_⟩
  · simp only [start, nextState]
    split <;> rfl
  · intro x hx
    simp only [start, hs] at hx
    split at hx
    · cases hx
    · simpa using hx

/-- Popping uncovers the default state, and nothing is pushed on any other state. -/
theorem Scanner.Stands.advance {rule : Rule} {Valid : Nat → Prop} (hrule : rule.Closed Valid)
    {s : Scanner} {state : Nat} (h : s.Stands state) (hstate : Valid state) :
    (s.advance rule).Stands ((rule state s.cursor.ahead).move.next state) := by
  have htop : s.nextState = state := h.top
  have hstack : (s.advance rule).stack = (rule state s.cursor.ahead).move.apply s.stack := by
    rw [← htop]
    rfl
  have hpush : ∀ t, (rule state s.cursor.ahead).move = .push t → state = 0 :=
    fun _ hmove => hrule.push hstate hmove
  have hbelow := h.below
  refine ⟨h.default, ?_, ?_⟩
  · rw [nextState, hstack, show (s.advance rule).defaultState = 0 from h.default]
    rw [nextState, h.default] at htop
    generalize (rule state s.cursor.ahead).move = move
    cases move with
    | keep => exact htop
    | push t => rfl
    | replace t => rfl
    | pop =>
      -- what comes up lay below the top, or the stack is empty and stands for the default state
      simp only [StackMove.apply, StackMove.next]
      cases htail : s.stack.tail with
      | nil => rfl
      | cons x xs => exact hbelow x (by simp [htail])
  · rw [hstack]
    generalize (rule state s.cursor.ahead).move = move at hpush
    intro x hx
    cases move with
    | keep => exact hbelow x hx
    | pop => exact hbelow x (List.mem_of_mem_tail hx)
    | replace t => exact hbelow x hx
    | push t =>
      -- the state that was on top is now below, so that it has to be the default state
      have hzero : s.stack.headD 0 = 0 := by
        rw [nextState, h.default] at htop
        rw [htop, hpush t rfl]
      cases hs : s.stack with
      | nil => simp [StackMove.apply, hs] at hx
      | cons y ys =>
        rw [hs] at hzero hbelow
        simp only [StackMove.apply, hs, List.tail_cons, List.mem_cons] at hx
        rcases hx with rfl | hx
        · exact hzero
        · exact hbelow x hx

/-- One token of a scanner is one reading of its rule. -/
theorem Scanner.Stands.shows {rule : Rule} {Valid : Nat → Prop} (hprogress : rule.Progressive)
    (hrule : rule.Closed Valid) {s : Scanner} {state : Nat} (h : s.Stands state)
    (hstate : Valid state) :
    (Lexer.ofRule rule).Shows Scanner.Stands (s.advance rule) s.cursor
      (rule.reader state s.cursor.ahead) := by
  have hreads := s.advance_reads rule
  have htoken : (s.advance rule).token = (rule state s.cursor.ahead).kind := by
    rw [← h.top]
    rfl
  have hnext := h.advance hrule hstate
  rw [h.top] at hreads
  cases hkind : (rule state s.cursor.ahead).kind with
  | none =>
    rw [hkind] at htoken
    rcases hprogress state s.cursor.ahead with htakes | hends
    · have hsome := htakes.isSome
      rw [hkind] at hsome
      cases hsome
    · rw [hends.length] at hreads
      simp only [Rule.reader, hkind, Option.map_none]
      exact ⟨htoken, hreads⟩
  | some kind =>
    rw [hkind] at htoken
    simp only [Rule.reader, hkind, Option.map_some]
    exact ⟨htoken, h.top, hreads, hnext⟩

/-- The account of a lexer that reads by one rule. -/
def Lexer.Account.ofRule {rule : Rule} {Valid : Nat → Prop} (hprogress : rule.Progressive)
    (hrule : rule.Closed Valid) : (Lexer.ofRule rule).Account where
  read := rule.reader
  Valid := Valid
  Ready s := s.defaultState = 0
  Stands := Scanner.Stands
  ready := Lexer.invariant_ofRule rule
  start hs hstate := (Scanner.start_stands hs _ _).shows hprogress hrule hstate
  advance h hstate := h.shows hprogress hrule hstate
  valid_state hstate h := by
    rw [(Rule.reader_eq_some h).2.2.1]
    exact hstate
  valid_next hstate h := by
    rw [(Rule.reader_eq_some h).2.2.2]
    exact hrule.next hstate
  read_state _ h := by
    rw [(Rule.reader_eq_some h).2.2.1]
    exact h

/-! ## Combined lexers -/

namespace Combined

variable {c : Combined}

/-- After a token for which a sub-lexer is registered the next token is read by that sub-lexer. -/
def handOver (c : Combined) (rd : Lexeme) : Lexeme :=
  match c.find? (·.token == rd.kind) with
  | some i => { rd with next := (c.sub i).id + (c.sub i).child }
  | none => rd

/-- What is read where no sub-lexer is active. -/
def readLanguage (c : Combined) (language : Reader) : Reader := fun state cs =>
  (language state cs).map c.handOver

/-- What is read where a sub-lexer is active: if it has no token, the language lexer reads on. -/
def readSub (c : Combined) (language : Reader) (subs : c.Index → Reader) (i : c.Index) : Reader :=
  fun state cs =>
    match subs i state cs with
    | some rd => some { rd with state := (c.sub i).id + rd.state, next := (c.sub i).id + rd.next }
    | none => c.readLanguage language (c.sub i).parent cs

/-- The sub-lexer that a combined state names. -/
def owner (c : Combined) (state : Nat) : Option c.Index :=
  c.find? (·.id == state - state % idUnit)

/-- The readers of the parts as one reader of combined states. -/
def reader (c : Combined) (language : Reader) (subs : c.Index → Reader) : Reader :=
  fun state cs =>
    match c.owner state with
    | some i => c.readSub language subs i (state % idUnit) cs
    | none => c.readLanguage language (state % idUnit) cs

theorem handOver_state (rd : Lexeme) : (c.handOver rd).state = rd.state := by
  unfold handOver
  split <;> rfl

theorem handOver_kind (rd : Lexeme) : (c.handOver rd).kind = rd.kind := by
  unfold handOver
  split <;> rfl

theorem handOver_length (rd : Lexeme) : (c.handOver rd).length = rd.length := by
  unfold handOver
  split <;> rfl

theorem Registered.sub_id_inj (h : c.Registered) {i j : c.Index}
    (hij : (c.sub i).id = (c.sub j).id) : i = j := by
  have hne := List.pairwise_iff_getElem.mp h.distinct
  rcases Nat.lt_trichotomy i.val j.val with hlt | heq | hlt
  · exact absurd hij (hne i j i.isLt j.isLt hlt)
  · exact Fin.ext heq
  · exact absurd hij.symm (hne j i j.isLt i.isLt hlt)

theorem Registered.id_add_mod (h : c.Registered) (i : c.Index) {state : Nat}
    (hstate : state < idUnit) : ((c.sub i).id + state) % idUnit = state := by
  have hmem : c.sub i ∈ c.subLexers := List.get_mem c.subLexers i
  rw [Nat.add_mod, h.id_mod _ hmem, Nat.zero_add, Nat.mod_mod, Nat.mod_eq_of_lt hstate]

theorem Registered.owner_id_add (h : c.Registered) (i : c.Index) {state : Nat}
    (hstate : state < idUnit) : c.owner ((c.sub i).id + state) = some i := by
  rw [owner, h.id_add_mod i hstate, Nat.add_sub_cancel]
  cases hfind : c.find? (·.id == (c.sub i).id) with
  | none =>
    have hnone := List.find?_eq_none.mp hfind i (List.mem_finRange i)
    simp at hnone
  | some j =>
    have hj := List.find?_some hfind
    rw [h.sub_id_inj (beq_iff_eq.mp hj)]

theorem owner_eq_some {state : Nat} {i : c.Index} (h : c.owner state = some i) :
    (c.sub i).id + state % idUnit = state := by
  have hid : ((c.sub i).id == state - state % idUnit) = true := by
    simpa using List.find?_some h
  have hle := Nat.mod_le state idUnit
  rw [beq_iff_eq.mp hid]
  omega

theorem Registered.owner_eq_none (h : c.Registered) {state : Nat} (hstate : state < idUnit) :
    c.owner state = none := by
  rw [owner, Nat.mod_eq_of_lt hstate, Nat.sub_self]
  refine List.find?_eq_none.mpr fun i _ => ?_
  have hne : (c.sub i).id ≠ 0 := h.id_ne_zero _ (List.get_mem c.subLexers i)
  simpa using hne

theorem Registered.reader_sub (h : c.Registered) (language : Reader) (subs : c.Index → Reader)
    (i : c.Index) {state : Nat} (hstate : state < idUnit) (cs : List CodePoint) :
    c.reader language subs ((c.sub i).id + state) cs = c.readSub language subs i state cs := by
  simp only [reader, h.owner_id_add i hstate, h.id_add_mod i hstate]

theorem Registered.reader_language (h : c.Registered) (language : Reader)
    (subs : c.Index → Reader) {state : Nat} (hstate : state < idUnit) (cs : List CodePoint) :
    c.reader language subs state cs = c.readLanguage language state cs := by
  simp only [reader, h.owner_eq_none hstate, Nat.mod_eq_of_lt hstate]

/-- Accounts of the parts of a combined lexer whose states fit below the ids. -/
structure Parts (c : Combined) where
  registered : c.Registered
  language : c.language.Account
  subs : (i : c.Index) → (c.sub i).lexer.Account
  language_lt : ∀ {state}, language.Valid state → state < idUnit
  subs_lt : ∀ {i state}, (subs i).Valid state → state < idUnit
  parent : ∀ i, language.Valid (c.sub i).parent
  child : ∀ i, (subs i).Valid (c.sub i).child

namespace Parts

/-- The reader of the combined lexer. -/
def read (p : c.Parts) : Reader := c.reader p.language.read fun i => (p.subs i).read

/-- The lexer that a combined state names can be handed the rest of the state. -/
def Valid (p : c.Parts) (state : Nat) : Prop :=
  match c.owner state with
  | some i => (p.subs i).Valid (state % idUnit)
  | none => p.language.Valid (state % idUnit)

/-- Every lexer can be started, also one that was left in the middle of a text. -/
def Ready (p : c.Parts) : c.Memory → Prop := c.Each p.language.Ready fun i => (p.subs i).Ready

theorem ready (p : c.Parts) : c.lexer.Invariant p.Ready :=
  invariant_each p.language.ready fun i => (p.subs i).ready

/-- Which lexer reads the next token, and in which state. -/
inductive Stands (p : c.Parts) (m : c.Memory) : Nat → Prop
  | language {k : Kind} {state : Nat} : p.Ready m → m.active = none →
      p.language.Stands m.language state → p.language.Valid state →
      c.language.kind m.language = some k → c.find? (·.token == k) = none → Stands p m state
  | handOver {k : Kind} {i : c.Index} : p.Ready m → m.active = none →
      c.language.kind m.language = some k → c.find? (·.token == k) = some i →
      Stands p m ((c.sub i).id + (c.sub i).child)
  | sub {i : c.Index} {state : Nat} : p.Ready m → m.active = some i →
      (p.subs i).Stands (m.subs i) state → (p.subs i).Valid state →
      Stands p m ((c.sub i).id + state)

theorem valid_sub (p : c.Parts) {i : c.Index} {state : Nat} (h : (p.subs i).Valid state) :
    p.Valid ((c.sub i).id + state) := by
  have hlt := p.subs_lt h
  simpa only [Valid, p.registered.owner_id_add i hlt, p.registered.id_add_mod i hlt] using h

theorem valid_language (p : c.Parts) {state : Nat} (h : p.language.Valid state) :
    p.Valid state := by
  have hlt := p.language_lt h
  simpa only [Valid, p.registered.owner_eq_none hlt, Nat.mod_eq_of_lt hlt] using h

theorem valid_handOver (p : c.Parts) {rd : Lexeme} (h : p.language.Valid rd.next) :
    p.Valid (c.handOver rd).next := by
  unfold handOver
  split
  · next i _ => exact p.valid_sub (p.child i)
  · exact p.valid_language h

/-- What the language lexer shows, the combined lexer shows while no sub-lexer is active. -/
theorem language_shows (p : c.Parts) {m : c.Memory} (hm : p.Ready m) (hactive : m.active = none)
    {position : Cursor} {state : Nat} (hstate : p.language.Valid state)
    (h : c.language.Shows p.language.Stands m.language position
      (p.language.read state position.ahead)) :
    c.lexer.Shows p.Stands m position (c.readLanguage p.language.read state position.ahead) := by
  obtain ⟨language, subs, active⟩ := m
  subst hactive
  cases hread : p.language.read state position.ahead with
  | none =>
    rw [hread] at h
    simp only [readLanguage, hread, Option.map_none]
    exact h
  | some rd =>
    rw [hread] at h
    obtain ⟨hkind, htokenState, hreads, hstands⟩ := h
    have hlt := p.language_lt (p.language.valid_state hstate hread)
    simp only [readLanguage, hread, Option.map_some]
    refine ⟨?_, ?_, ?_, ?_⟩
    · rw [handOver_kind]
      exact hkind
    · rw [handOver_state]
      show c.language.state language % idUnit = rd.state
      rw [htokenState, Nat.mod_eq_of_lt hlt]
    · rw [handOver_length]
      exact hreads
    · unfold handOver
      split
      · next i hi => exact .handOver hm rfl hkind hi
      · next hi => exact .language hm rfl hstands (p.language.valid_next hstate hread) hkind hi

/-- Settling resumes the language lexer in the parent state exactly if the sub-lexer shows no
token. -/
theorem settle_shows (p : c.Parts) {m : c.Memory} {i : c.Index} (hm : p.Ready m)
    (hactive : m.active = some i) {position : Cursor} {state : Nat}
    (hstate : (p.subs i).Valid state)
    (h : (c.sub i).lexer.Shows (p.subs i).Stands (m.subs i) position
      ((p.subs i).read state position.ahead)) :
    c.lexer.Shows p.Stands (c.settle m) position
      (p.read ((c.sub i).id + state) position.ahead) := by
  rw [read, p.registered.reader_sub _ _ i (p.subs_lt hstate)]
  cases hread : (p.subs i).read state position.ahead with
  | some rd =>
    rw [hread] at h
    obtain ⟨hkind, htokenState, hreads, hstands⟩ := h
    have hlt := p.subs_lt ((p.subs i).valid_state hstate hread)
    have hnext := (p.subs i).valid_next hstate hread
    rw [settle_of_some hactive hkind]
    simp only [readSub, hread]
    obtain ⟨language, subs, active⟩ := m
    subst hactive
    refine ⟨hkind, ?_, hreads, .sub hm rfl hstands hnext⟩
    show (c.sub i).id + (c.sub i).lexer.state (subs i) % idUnit = (c.sub i).id + rd.state
    rw [htokenState, Nat.mod_eq_of_lt hlt]
  | none =>
    rw [hread] at h
    obtain ⟨hkind, hreads⟩ := h
    rw [settle_of_none hactive hkind]
    simp only [readSub, hread]
    -- the language lexer goes on from where the sub-lexer found nothing
    have hahead : ((c.sub i).lexer.cursor (m.subs i)).resume.ahead = position.ahead :=
      hreads.ahead
    have hlanguage := p.language.start (c := ((c.sub i).lexer.cursor (m.subs i)).resume)
      hm.language (p.parent i)
    have hready := p.language.ready.start ((c.sub i).lexer.cursor (m.subs i)).resume
      (c.sub i).parent hm.language
    have hshows := p.language_shows (m := ⟨_, m.subs, none⟩) ⟨hready, hm.subs⟩ rfl (p.parent i)
      hlanguage
    rw [hahead] at hshows
    exact hshows.resume hreads

theorem enter_shows (p : c.Parts) {m : c.Memory} (hm : p.Ready m) {i : c.Index} {state : Nat}
    (hstate : (p.subs i).Valid state) (position : Cursor) :
    c.lexer.Shows p.Stands (c.enter m i position state) position
      (p.read ((c.sub i).id + state) position.ahead) := by
  have hsub := hm.setSub ((p.subs i).ready.start position state (hm.subs i))
  refine p.settle_shows ?_ rfl hstate ?_
  · exact ⟨hsub.language, hsub.subs⟩
  · simp only [Memory.setSub_self]
    exact (p.subs i).start (hm.subs i) hstate

theorem start_shows (p : c.Parts) {m : c.Memory} (hm : p.Ready m) {position : Cursor} {state : Nat}
    (hstate : p.Valid state) :
    c.lexer.Shows p.Stands (c.start m position state) position (p.read state position.ahead) := by
  unfold Valid at hstate
  have hstart : c.start m position state = match c.owner state with
      | some i => c.enter m i position (state % idUnit)
      | none => { m with
          language := c.language.start m.language position (state % idUnit), active := none } := rfl
  cases howner : c.owner state with
  | some i =>
    rw [howner] at hstate hstart
    have henter := p.enter_shows hm hstate position
    rw [owner_eq_some howner] at henter
    rw [hstart]
    exact henter
  | none =>
    rw [howner] at hstate hstart
    rw [hstart, read, reader, howner]
    refine p.language_shows ?_ rfl hstate (p.language.start hm.language hstate)
    exact ⟨p.language.ready.start _ _ hm.language, hm.subs⟩

theorem advance_shows (p : c.Parts) {m : c.Memory} {state : Nat} (h : p.Stands m state) :
    c.lexer.Shows p.Stands (c.advance m) (c.cursor m) (p.read state (c.cursor m).ahead) := by
  obtain ⟨language, subs, active⟩ := m
  cases h with
  | @language k state hm hactive hstands hstate hkind hfind =>
    cases hactive
    rw [read, p.registered.reader_language _ _ (p.language_lt hstate)]
    simp only [advance, hkind, Option.bind_some, hfind]
    refine p.language_shows ?_ rfl hstate (p.language.advance hstands hstate)
    exact ⟨p.language.ready.advance hm.language, hm.subs⟩
  | @handOver k i hm hactive hkind hfind =>
    -- the sub-lexer starts behind the token of the language lexer
    cases hactive
    simp only [advance, hkind, Option.bind_some, hfind]
    exact (p.enter_shows hm (p.child i) _).resume (Cursor.reads_skip (c.language.cursor language) 0)
  | @sub i state hm hactive hstands hstate =>
    cases hactive
    refine p.settle_shows (hm.setSub ((p.subs i).ready.advance (hm.subs i))) rfl hstate ?_
    simp only [Memory.setSub_self]
    exact (p.subs i).advance hstands hstate

theorem readLanguage_eq_some {language : Reader} {state : Nat} {cs : List CodePoint} {rd : Lexeme}
    (h : c.readLanguage language state cs = some rd) :
    ∃ inner, language state cs = some inner ∧ rd = c.handOver inner := by
  obtain ⟨inner, hinner, rfl⟩ := Option.map_eq_some_iff.mp h
  exact ⟨inner, hinner, rfl⟩

/-- What a valid state reads is what a sub-lexer reads in its own state, or what the language
lexer reads in a state of its own. -/
theorem read_cases (p : c.Parts) {state : Nat} {cs : List CodePoint} {rd : Lexeme}
    (hstate : p.Valid state) (h : p.read state cs = some rd) :
    (∃ i inner r, (p.subs i).Valid inner ∧ (p.subs i).read inner cs = some r ∧
      rd = { r with state := (c.sub i).id + r.state, next := (c.sub i).id + r.next }) ∨
    (∃ inner r, p.language.Valid inner ∧ p.language.read inner cs = some r ∧
      rd = c.handOver r) := by
  unfold Valid at hstate
  unfold read reader at h
  cases howner : c.owner state with
  | some i =>
    rw [howner] at hstate h
    simp only [readSub] at h
    cases hread : (p.subs i).read (state % idUnit) cs with
    | some r =>
      rw [hread] at h
      cases h
      exact .inl ⟨i, _, r, hstate, hread, rfl⟩
    | none =>
      rw [hread] at h
      obtain ⟨r, hr, rfl⟩ := readLanguage_eq_some h
      exact .inr ⟨_, r, p.parent i, hr, rfl⟩
  | none =>
    rw [howner] at hstate h
    obtain ⟨r, hr, rfl⟩ := readLanguage_eq_some h
    exact .inr ⟨_, r, hstate, hr, rfl⟩

/-- The account of a combined lexer. -/
def account (p : c.Parts) : c.lexer.Account where
  read := p.read
  Valid := p.Valid
  Ready := p.Ready
  Stands := p.Stands
  ready := p.ready
  start hm hstate := p.start_shows hm hstate
  advance h _ := p.advance_shows h
  valid_state hstate h := by
    rcases p.read_cases hstate h with ⟨i, inner, r, hinner, hr, rfl⟩ | ⟨inner, r, hinner, hr, rfl⟩
    · exact p.valid_sub ((p.subs i).valid_state hinner hr)
    · rw [handOver_state]
      exact p.valid_language (p.language.valid_state hinner hr)
  valid_next hstate h := by
    rcases p.read_cases hstate h with ⟨i, inner, r, hinner, hr, rfl⟩ | ⟨inner, r, hinner, hr, rfl⟩
    · exact p.valid_sub ((p.subs i).valid_next hinner hr)
    · exact p.valid_handOver (p.language.valid_next hinner hr)
  read_state hstate h := by
    rcases p.read_cases hstate h with ⟨i, inner, r, hinner, hr, rfl⟩ | ⟨inner, r, hinner, hr, rfl⟩
    · have hlt := p.subs_lt ((p.subs i).valid_state hinner hr)
      rw [read, p.registered.reader_sub _ _ i hlt]
      simp only [readSub, (p.subs i).read_state hinner hr]
    · have hlt := p.language_lt (p.language.valid_state hinner hr)
      rw [handOver_state, read, p.registered.reader_language _ _ hlt]
      simp only [readLanguage, p.language.read_state hinner hr, Option.map_some]

end Parts

end Combined

end XQuery
