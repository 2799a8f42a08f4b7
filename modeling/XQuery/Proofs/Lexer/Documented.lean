import XQuery.Proofs.Lexer.Resumption

/-!
# The reader of documented expressions

What the expression lexer with documentation reads, said without combined
lexers: it reads like the expression lexer up to the marker of a documentation
comment, like the documentation lexer from there on, and like the expression
lexer inside a comment where the documentation lexer ends.
-/

namespace XQuery

namespace Combined

/-- The accounts that the documented lexer is made of. -/
def documentedParts : Combined.documented.Parts where
  registered := (build_eq_ok build_documented).1
  language := Expression.account
  subs := fun | ⟨0, _⟩ => Documentation.partAccount
  language_lt h := Expression.Declared.lt h
  subs_lt := fun {i} => match i with | ⟨0, _⟩ => fun h => h
  parent := fun | ⟨0, _⟩ => ⟨.comment, rfl⟩
  child := fun | ⟨0, _⟩ => (by decide : Documentation.Mode.lineStart.code < idUnit)

theorem find?_documented (k : Kind) :
    Combined.documented.find? (·.token == k)
      = if k = .docCommentMarker then some ⟨0, Nat.one_pos⟩ else none := by
  show List.find? _ [(⟨0, Nat.one_pos⟩ : Combined.documented.Index)] = _
  by_cases hk : k = .docCommentMarker
  · rw [if_pos hk, hk]
    rfl
  · have hne : (Kind.docCommentMarker == k) = false := beq_eq_false_iff_ne.mpr (Ne.symm hk)
    rw [if_neg hk, List.find?_cons_of_neg (Bool.not_eq_true _ ▸ hne), List.find?_nil]

theorem handOver_documented (rd : Lexeme) :
    Combined.documented.handOver rd = if rd.kind = .docCommentMarker
      then { rd with next := documentationId + Documentation.pack .lineStart 0 } else rd := by
  rw [handOver, find?_documented]
  by_cases hkind : rd.kind = .docCommentMarker
  · simp only [if_pos hkind]
    rfl
  · simp only [if_neg hkind]

/-- The reader of the documented lexer. -/
def documentedReader : Reader := documentedParts.read

theorem documentedReader_expression {state : Nat} (h : state < idUnit) (cs : List CodePoint) :
    documentedReader state cs
      = (Expression.rule.reader state cs).map Combined.documented.handOver :=
  documentedParts.registered.reader_language _ _ h cs

theorem documentedReader_body {state : Nat} (h : state < idUnit) (cs : List CodePoint) :
    documentedReader (documentationId + state) cs
      = match Documentation.rule.reader state cs with
        | some rd => some { rd with
            state := documentationId + rd.state, next := documentationId + rd.next }
        | none => documentedReader Expression.Mode.comment.code cs := by
  rw [documentedReader_expression Expression.Mode.comment.code_lt]
  exact documentedParts.registered.reader_sub _ _ ⟨0, Nat.one_pos⟩ h cs

open Expression (Declared)

/-- From the default state on the documented lexer reads what its reader reads. -/
theorem documentedReader_runs (units : Array UInt16) (first last : Nat) :
    documentedReader.Runs (Cursor.ofRegion units first last).stop 0
      (Cursor.ofRegion units first last).ahead (Lexer.documented.tokens units first last 0) :=
  documentedParts.account.tokens_runs Lexer.Tree.documented.progressive
    (documentedParts.valid_language ⟨.plain, rfl⟩) units first last

/-- In a state of the expression lexer the documented lexer reads what the expression lexer reads;
only the marker of a documentation comment leads elsewhere. -/
theorem documentedReader_declared {state : Nat} {cs : List CodePoint} {rd : Lexeme}
    (hstate : Declared state) (h : documentedReader state cs = some rd) :
    rd.state = state ∧ (Expression.rule state cs).kind = some rd.kind ∧
      (rd.kind = .docCommentMarker ∧ rd.next = documentationId + Documentation.pack .lineStart 0 ∨
        rd.kind ≠ .docCommentMarker ∧ Declared rd.next) := by
  rw [documentedReader_expression hstate.lt] at h
  obtain ⟨r, hr, rfl⟩ := Option.map_eq_some_iff.mp h
  obtain ⟨hkind, _, hrstate, _⟩ := Rule.reader_eq_some hr
  refine ⟨?_, ?_, ?_⟩
  · rw [handOver_state, hrstate]
  · rw [handOver_kind]
    exact hkind
  · rw [handOver_kind, handOver_documented]
    by_cases hmarker : r.kind = .docCommentMarker
    · rw [if_pos hmarker]
      exact .inl ⟨hmarker, rfl⟩
    · rw [if_neg hmarker]
      exact .inr ⟨hmarker, Expression.account.valid_next hstate hr⟩

/-- In the body of a documentation comment the documented lexer reads a documentation token, or goes
on inside the comment where there is none. -/
theorem documentedReader_inside {inner : Nat} {cs : List CodePoint} {rd : Lexeme}
    (hinner : inner < idUnit) (h : documentedReader (documentationId + inner) cs = some rd) :
    (∃ r, Documentation.rule.reader inner cs = some r ∧ r.next < idUnit ∧ rd = { r with
        state := documentationId + inner, next := documentationId + r.next }) ∨
      Documentation.rule.reader inner cs = none ∧
        documentedReader Expression.Mode.comment.code cs = some rd := by
  rw [documentedReader_body hinner] at h
  cases hread : Documentation.rule.reader inner cs with
  | none =>
    rw [hread] at h
    exact .inr ⟨rfl, h⟩
  | some r =>
    rw [hread] at h
    cases h
    refine .inl ⟨r, rfl, Documentation.partAccount.valid_next hinner hread, ?_⟩
    rw [(Rule.reader_eq_some hread).2.2.1]

end Combined

end XQuery
