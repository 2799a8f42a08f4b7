import XQuery.Proofs.Lexer.States

/-!
# Resumption

The state of a token is all that a lexer needs to know: a new lexer started at
the token in its state reads the token and everything after it again. This
holds of the two lexers of the library and of combined lexers over them, as
long as an expression lexer is only handed states that it declares.
-/

namespace XQuery

open Utf16 (width)

/-- The account of the expression lexer. -/
def Expression.account : Lexer.expression.Account :=
  .ofRule Expression.rule_progressive Expression.rule_closed

/-- The account of the documentation lexer in any state. -/
def Documentation.account : Lexer.documentation.Account :=
  .ofRule Documentation.rule_progressive Documentation.rule_closed_all

/-- The account of the documentation lexer as a part of a combined lexer. -/
def Documentation.partAccount : Lexer.documentation.Account :=
  .ofRule Documentation.rule_progressive Documentation.rule_closed

namespace Lexer

variable {lexer : Lexer}

/-- Every token of a run is the first one of a run in its own state. -/
theorem Account.runs_drop (a : lexer.Account) {offset state : Nat} {cs : List CodePoint}
    {ts : List Token} (h : a.read.Runs offset state cs ts) (hstate : a.Valid state) {i : Nat}
    {t : Token} (ht : ts[i]? = some t) :
    ∃ n, t.start = offset + width (cs.take n) ∧ a.Valid t.state ∧
      a.read.Runs t.start t.state (cs.drop n) (ts.drop i) := by
  induction h generalizing i with
  | done => simp at ht
  | @more offset state cs rd ts hread hrest ih =>
    cases i with
    | zero =>
      cases ht
      refine ⟨0, by simp [Lexeme.token], a.valid_state hstate hread, ?_⟩
      exact (Reader.Runs.more hread hrest).congr
        ((a.read_state hstate hread).trans hread.symm)
    | succ i =>
      obtain ⟨n, hstart, hvalid, hruns⟩ := ih (a.valid_next hstate hread) ht
      refine ⟨rd.length + n, ?_, hvalid, ?_⟩
      · rw [hstart, List.take_add, Utf16.width_append, Nat.add_assoc]
      · rw [← List.drop_drop]
        exact hruns

/-- A run from inside a region is what a new lexer reads from there. -/
theorem Account.tokens_eq_of_runs (a : lexer.Account) (hlexer : lexer.Progressive)
    {units : Array UInt16} {first last n offset state : Nat} {ts : List Token}
    (hstate : a.Valid state)
    (hoffset : offset = (Cursor.ofRegion units first last).stop
      + width ((Cursor.ofRegion units first last).ahead.take n))
    (h : a.read.Runs offset state ((Cursor.ofRegion units first last).ahead.drop n) ts) :
    lexer.tokens units offset last state = ts := by
  obtain ⟨hstop, hahead⟩ := Cursor.ofRegion_add_width units first last n
  have hruns := a.tokens_runs hlexer hstate units offset last
  rw [← hoffset] at hstop hahead
  rw [hstop, hahead] at hruns
  exact hruns.unique h

/-- A lexer with an account can be resumed at every token. -/
theorem Account.tokens_drop (a : lexer.Account) (hlexer : lexer.Progressive) {state : Nat}
    (hstate : a.Valid state) (units : Array UInt16) (first last : Nat) {i : Nat} {t : Token}
    (ht : (lexer.tokens units first last state)[i]? = some t) :
    lexer.tokens units t.start last t.state = (lexer.tokens units first last state).drop i := by
  obtain ⟨n, hstart, hvalid, hruns⟩ :=
    a.runs_drop (a.tokens_runs hlexer hstate units first last) hstate ht
  exact a.tokens_eq_of_runs hlexer hvalid hstart hruns

/-- The lexers without sub-lexers. -/
inductive Leaf : Lexer → Prop
  | expression : Leaf .expression
  | documentation : Leaf .documentation

/-- The state may be handed to the lexer: the expression lexer takes those it declares. -/
def Accepts (lexer : Lexer) (state : Nat) : Prop :=
  lexer = .expression → Expression.Declared state

/-- The two lexers tell a digit from text. -/
theorem documentation_ne_expression : Lexer.documentation ≠ .expression := by
  intro h
  have htokens := congrArg (fun lexer => lexer.tokens #[0x31] 0 1 0) h
  exact absurd htokens (by decide +kernel)

theorem accepts_documentation (state : Nat) : Lexer.documentation.Accepts state :=
  fun h => absurd h documentation_ne_expression

end Lexer

/-- The state may be handed to the combined lexer: what it leaves over for the lexer that it names
may be handed to that one. -/
def Combined.Accepts (c : Combined) (state : Nat) : Prop :=
  match c.owner state with
  | some i => (c.sub i).lexer.Accepts (state % idUnit)
  | none => c.language.Accepts (state % idUnit)

namespace Lexer

/-- Lexers with at most one level of sub-lexers, each with the states in which it may start. Every
state that reaches an expression lexer, also by way of a registration, is one it declares. -/
inductive Flat : Lexer → Nat → Prop
  | leaf {lexer : Lexer} {state : Nat} : Leaf lexer → lexer.Accepts state → Flat lexer state
  | combined {language : Lexer} {subs : List SubLexer} {c : Combined} {state : Nat} :
      Leaf language →
      (∀ s ∈ subs, Leaf s.lexer ∧ language.Accepts (s.parent % idUnit) ∧
        s.lexer.Accepts (s.child % idUnit)) →
      Combined.build language subs = .ok c → c.Accepts state → Flat c.lexer state

variable {lexer : Lexer}

theorem Leaf.tree (h : Leaf lexer) : Tree lexer := by
  cases h with
  | expression => exact .expression
  | documentation => exact .documentation

theorem Leaf.exists_account (h : Leaf lexer) :
    ∃ a : lexer.Account, ∀ state, lexer.Accepts state → a.Valid state := by
  cases h with
  | expression => exact ⟨Expression.account, fun state h => h rfl⟩
  | documentation => exact ⟨Documentation.account, fun state _ => trivial⟩

theorem Leaf.exists_partAccount (h : Leaf lexer) :
    ∃ a : lexer.Account, (∀ state, a.Valid state → state < idUnit) ∧
      ∀ state, state < idUnit → lexer.Accepts state → a.Valid state := by
  cases h with
  | expression =>
    exact ⟨Expression.account, fun state h => Expression.Declared.lt h, fun state _ h => h rfl⟩
  | documentation => exact ⟨Documentation.partAccount, fun state h => h, fun state h _ => h⟩

theorem Flat.tree {state : Nat} (h : Flat lexer state) : Tree lexer := by
  cases h with
  | leaf hleaf => exact hleaf.tree
  | combined hlanguage hsubs hbuild =>
    exact .combined hlanguage.tree (fun s hs => (hsubs s hs).1.tree) hbuild

theorem Flat.exists_account {state : Nat} (h : Flat lexer state) :
    ∃ a : lexer.Account, a.Valid state := by
  cases h with
  | leaf hleaf hstate =>
    obtain ⟨a, ha⟩ := hleaf.exists_account
    exact ⟨a, ha state hstate⟩
  | @combined language subs c state hlanguage hsubs hbuild hstate =>
    obtain ⟨hregistered, rfl, _⟩ := Combined.build_eq_ok hbuild
    obtain ⟨a, ha, hvalid⟩ := hlanguage.exists_partAccount
    have hsub : ∀ i : c.Index, ∃ b : (c.sub i).lexer.Account,
        ((∀ state, b.Valid state → state < idUnit) ∧
          ∀ state, state < idUnit → (c.sub i).lexer.Accepts state → b.Valid state) ∧
        a.Valid (c.sub i).parent ∧ b.Valid (c.sub i).child := by
      intro i
      obtain ⟨s, hs, heq⟩ := Combined.build_sub hbuild i
      obtain ⟨hleaf, hparent, hchild⟩ := hsubs s hs
      obtain ⟨b, hb, hbvalid⟩ := hleaf.exists_partAccount
      have hlt : ∀ n, n % idUnit < idUnit := fun n => Nat.mod_lt n Combined.idUnit_pos
      rw [heq]
      exact ⟨b, ⟨hb, hbvalid⟩, hvalid _ (hlt _) hparent, hbvalid _ (hlt _) hchild⟩
    -- the accounts of the sub-lexers are known to exist one by one
    obtain ⟨accounts, haccounts⟩ := Classical.axiomOfChoice hsub
    have hlt := Nat.mod_lt state Combined.idUnit_pos
    let p : c.Parts := {
      registered := hregistered
      language := a
      subs := accounts
      language_lt := ha _
      subs_lt := (haccounts _).1.1 _
      parent := fun i => (haccounts i).2.1
      child := fun i => (haccounts i).2.2 }
    refine ⟨p.account, ?_⟩
    show p.Valid state
    unfold Combined.Parts.Valid
    unfold Combined.Accepts at hstate
    cases howner : c.owner state with
    | some i =>
      rw [howner] at hstate
      exact (haccounts i).1.2 _ hlt hstate
    | none =>
      rw [howner] at hstate
      exact hvalid _ hlt hstate

/-- A new lexer of the same construction, started at a token of a run in the state reported for
that token, reads this token and all tokens after it. -/
theorem tokens_resume {state : Nat} (h : Flat lexer state) (units : Array UInt16)
    (first last : Nat) {i : Nat} {t : Token}
    (ht : (lexer.tokens units first last state)[i]? = some t) :
    lexer.tokens units t.start last t.state = (lexer.tokens units first last state).drop i := by
  obtain ⟨a, ha⟩ := h.exists_account
  exact a.tokens_drop h.tree.progressive ha units first last ht

theorem flat_documented : Flat .documented 0 := by
  have hsubs : ∀ s ∈ [documentationSub], Leaf s.lexer ∧
      Lexer.expression.Accepts (s.parent % idUnit) ∧ s.lexer.Accepts (s.child % idUnit) := by
    intro s hs
    cases List.mem_singleton.mp hs
    exact ⟨.documentation, fun _ => ⟨.comment, rfl⟩, accepts_documentation _⟩
  exact .combined .expression hsubs Combined.build_documented fun _ => ⟨.plain, rfl⟩

/-- In `(:~(:`, a line break and `:):)`, the line after the break starts in a nested comment. -/
theorem tokens_resume_nested_comment :
    (Lexer.documented.tokens
        #[0x28, 0x3A, 0x7E, 0x28, 0x3A, 0x0A, 0x3A, 0x29, 0x3A, 0x29] 0 10 0)[4]?
      = some ⟨.docContents, 6, 8, 0x10000101⟩ ∧
    Lexer.documented.tokens
        #[0x28, 0x3A, 0x7E, 0x28, 0x3A, 0x0A, 0x3A, 0x29, 0x3A, 0x29] 6 10 0x10000101
      = (Lexer.documented.tokens
        #[0x28, 0x3A, 0x7E, 0x28, 0x3A, 0x0A, 0x3A, 0x29, 0x3A, 0x29] 0 10 0).drop 4 := by
  have htoken : (Lexer.documented.tokens
      #[0x28, 0x3A, 0x7E, 0x28, 0x3A, 0x0A, 0x3A, 0x29, 0x3A, 0x29] 0 10 0)[4]?
      = some ⟨.docContents, 6, 8, 0x10000101⟩ := by decide +kernel
  exact ⟨htoken, tokens_resume flat_documented _ 0 10 htoken⟩

end Lexer

end XQuery
