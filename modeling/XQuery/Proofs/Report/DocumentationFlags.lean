import XQuery.Proofs.Lexer.LexerIds
import XQuery.Proofs.Report.Losslessness

/-!
# Documentation flags

A listing marks the tokens that the documentation lexer has read, by a bit of
their states. These are the tokens in the bodies of documentation comments and
no others (`documentation_flags`).
-/

namespace XQuery

open Documentation (isBody)

/-- The bits of a combined state that name a lexer. -/
def lexerMask : Nat := 0xF0000000

theorem and_lexerMask (state : Nat) : state &&& lexerMask = idUnit * (state / idUnit &&& 0xF) := by
  have hdiv : (state &&& lexerMask) / idUnit = state / idUnit &&& 0xF :=
    Nat.and_div_two_pow (n := 28)
  have hmod : (state &&& lexerMask) % idUnit = state % idUnit &&& 0 :=
    Nat.and_mod_two_pow (n := 28)
  have hsplit := Nat.div_add_mod (state &&& lexerMask) idUnit
  rw [hdiv, hmod, Nat.and_zero, Nat.add_zero] at hsplit
  exact hsplit.symm

/-- The states of the expression lexer are those of its modes. -/
theorem Lexer.expression_state_declared {units : Array UInt16} {first last : Nat} {t : Token}
    (ht : t ∈ Lexer.expression.tokens units first last 0) : Expression.Declared t.state := by
  have hstate : Expression.Declared 0 := ⟨.plain, rfl⟩
  have hruns := Expression.account.tokens_runs Lexer.Tree.expression.progressive hstate units
    first last
  obtain ⟨i, hi⟩ := List.getElem?_of_mem ht
  obtain ⟨_, _, hvalid, _⟩ := Expression.account.runs_drop hruns hstate hi
  exact hvalid

theorem isDocumentation_of_div {e : TokenEntry} {b : Bool}
    (h : e.token.state / idUnit = b.toNat) : e.isDocumentation = b := by
  have hdiv : e.token.state / documentationId = b.toNat := h
  rw [TokenEntry.isDocumentation, hdiv]
  cases b <;> rfl

theorem token_mem_listedTokens {source : String} {documentation skipTrivia : Bool}
    {e : TokenEntry} (h : e ∈ tokenize source documentation skipTrivia) :
    e.token ∈ listedTokens source documentation := by
  rw [tokenize_eq] at h
  obtain ⟨t, ht, rfl⟩ := List.mem_map.mp h
  exact (List.mem_filter.mp ht).1

/-- The flag of an entry says whether its token is one of the body of a documentation comment. -/
theorem isDocumentation_eq_isBody {source : String} {skipTrivia : Bool} {e : TokenEntry}
    (h : e ∈ tokenize source true skipTrivia) : e.isDocumentation = isBody e.token.kind :=
  isDocumentation_of_div (Lexer.documented_state_div _ _ _ _ _ (token_mem_listedTokens h))

theorem isDocumentation_eq_false {source : String} {skipTrivia : Bool} {e : TokenEntry}
    (h : e ∈ tokenize source false skipTrivia) : e.isDocumentation = false :=
  isDocumentation_of_div
    (Nat.div_eq_of_lt (Lexer.expression_state_declared (token_mem_listedTokens h)).lt)

/-- The bodies of documentation comments are known by their place, too. -/
theorem isBody_eq_documentationOpen {source : String} {before after : List TokenEntry}
    {e : TokenEntry} (h : tokenize source true false = before ++ e :: after) :
    isBody e.token.kind
      = (documentationOpen (before.map (·.token)) && e.token.kind != .commentEndTag) := by
  have htokens : (tokenize source true false).map (·.token) = listedTokens source true := by
    rw [tokenize_all, List.map_map]
    exact List.map_id _
  rw [h, List.map_append, List.map_cons] at htokens
  exact Lexer.documented_isBody _ _ _ htokens.symm

/-- The kind of a token and the id in its state always agree, for every region and every initial
state, and so do the kind and the flag in a listing: it is set exactly for the tokens between the
marker of a documentation comment and its end tag, and never if documentation is not read. -/
theorem documentation_flags :
    (∀ units first last state, ∀ t ∈ Lexer.documented.tokens units first last state,
      t.state &&& lexerMask = if isBody t.kind then documentationId else 0) ∧
    (∀ source skipTrivia, ∀ e ∈ tokenize source true skipTrivia,
      e.isDocumentation = isBody e.token.kind) ∧
    (∀ source before e after, tokenize source true false = before ++ e :: after →
      e.isDocumentation
        = (documentationOpen (before.map (·.token)) && e.token.kind != .commentEndTag)) ∧
    ∀ source skipTrivia, ∀ e ∈ tokenize source false skipTrivia, e.isDocumentation = false := by
  refine ⟨?_, ?_, ?_, ?_⟩
  · intro units first last state t ht
    rw [and_lexerMask, Lexer.documented_state_div units first last state t ht]
    cases isBody t.kind <;> rfl
  · exact fun _ _ _ => isDocumentation_eq_isBody
  · intro source before e after h
    have hmem : e ∈ tokenize source true false := by
      rw [h]
      exact List.mem_append_right _ List.mem_cons_self
    rw [isDocumentation_eq_isBody hmem, isBody_eq_documentationOpen h]
  · exact fun _ _ _ => isDocumentation_eq_false

example : (tokenize "(:~ a:)1" true false).map (·.isDocumentation)
    = [false, false, true, true, false, false] := by decide +kernel

end XQuery
