import XQuery.Proofs.Lexer.Progress

/-!
# Kinds of token by mode

Each mode of the two lexers has its own kinds of token. Plain text yields
everything but the insides of strings, comments and pragmas; the documentation
lexer yields documentation tokens and never the marker in front of them.
-/

namespace XQuery

namespace Expression

/-- The kinds of token that a mode yields. -/
def Mode.yields : Mode → Kind → Bool
  | plain, .escapedCharacter | plain, .stringLiteralContents | plain, .stringLiteralEnd
  | plain, .predefinedEntityReference | plain, .characterReference
  | plain, .partialEntityReference | plain, .emptyEntityReference | plain, .bracedUriLiteralEnd
  | plain, .comment | plain, .partialComment | plain, .pragmaContents => false
  | plain, k => !k.isDoc
  | quoted, k | apostrophed, k => k ∈ [.escapedCharacter, .stringLiteralEnd,
      .stringLiteralContents, .predefinedEntityReference, .characterReference,
      .partialEntityReference, .emptyEntityReference]
  | bracedUri, k => k ∈ [.bracedUriLiteralEnd, .stringLiteralContents,
      .predefinedEntityReference, .characterReference, .partialEntityReference,
      .emptyEntityReference]
  | comment, k => k ∈ [.comment, .partialComment, .commentEndTag]
  | docMarker, k => k ∈ [.docCommentMarker, .comment, .partialComment, .commentEndTag]
  | pragmaStart, k | pragmaName, k => k ∈ [.whiteSpace, .ncName, .qnameSeparator, .badCharacter,
      .pragmaEnd]
  | pragmaContents, k => k ∈ [.pragmaContents, .pragmaEnd]

theorem operator_kind {P : Kind → Prop} {alone : Kind} {pairs : List (Char × Kind)}
    (halone : P alone) (hpairs : ∀ p ∈ pairs, P p.2) {cs : List CodePoint} {k : Kind}
    (h : (operator alone pairs cs).kind = some k) : P k := by
  unfold operator at h
  split at h
  · next ch kind hfind =>
      cases h
      exact hpairs _ (List.mem_of_find?_eq_some hfind)
  · cases h
    exact halone

theorem exponent_kind {kind k : Kind} {length : Nat} {cs : List CodePoint}
    (h : (exponent kind length cs).kind = some k) :
    k = kind ∨ k = .doubleLiteral ∨ k = .partialDoubleLiteralExponent := by
  unfold exponent at h
  split at h
  · cases h
    exact .inl rfl
  · split at h
    · simp only at h
      split at h
      · cases h
        exact .inr (.inr rfl)
      · split at h
        · cases h
          exact .inr (.inl rfl)
        · cases h
          exact .inl rfl
        · cases h
          exact .inr (.inr rfl)
    · cases h
      exact .inl rfl

theorem number_kinds {k : Kind} {cs : List CodePoint} (h : (number cs).kind = some k) :
    k = .integerLiteral ∨ k = .decimalLiteral ∨ k = .doubleLiteral ∨
      k = .partialDoubleLiteralExponent := by
  have hexponent : ∃ kind length cs, (exponent kind length cs).kind = some k ∧
      (kind = .integerLiteral ∨ kind = .decimalLiteral) := by
    unfold number at h
    simp only at h
    split at h
    · split at h
      · exact ⟨_, _, _, h, .inr rfl⟩
      · exact ⟨_, _, _, h, .inl rfl⟩
    · exact ⟨_, _, _, h, .inl rfl⟩
  obtain ⟨kind, length, cs, hk, hkind⟩ := hexponent
  rcases exponent_kind hk with rfl | rfl | rfl
  · rcases hkind with rfl | rfl
    · exact .inl rfl
    · exact .inr (.inl rfl)
  · exact .inr (.inr (.inl rfl))
  · exact .inr (.inr (.inr rfl))

theorem number_kind {k : Kind} {cs : List CodePoint} (h : (number cs).kind = some k) :
    Mode.plain.yields k := by
  rcases number_kinds h with rfl | rfl | rfl | rfl <;> rfl

theorem dot_kinds {k : Kind} {cs : List CodePoint} (h : (dot cs).kind = some k) :
    k = .parentSelector ∨ k = .contextItem ∨ k = .decimalLiteral ∨ k = .doubleLiteral ∨
      k = .partialDoubleLiteralExponent := by
  unfold dot at h
  split at h
  · cases h
    exact .inl rfl
  · split at h
    · cases h
      exact .inr (.inl rfl)
    · exact .inr (.inr (exponent_kind h))

theorem dot_kind {k : Kind} {cs : List CodePoint} (h : (dot cs).kind = some k) :
    Mode.plain.yields k := by
  rcases dot_kinds h with rfl | rfl | rfl | rfl | rfl <;> rfl

theorem name_kind {c : CodePoint} {k : Kind} {cs : List CodePoint}
    (h : (name c cs).kind = some k) : Mode.plain.yields k := by
  unfold name at h
  split at h
  · cases h
    rfl
  · simp only [Step.token_kind, Option.some.injEq] at h
    subst h
    unfold nameKind
    split <;> rfl

theorem parenthesis_kinds {k : Kind} {cs : List CodePoint} (h : (parenthesis cs).kind = some k) :
    k = .commentStartTag ∨ k = .pragmaBegin ∨ k = .parenthesisOpen := by
  unfold parenthesis at h
  split at h
  · cases h
    exact .inl rfl
  · split at h
    · cases h
      exact .inr (.inl rfl)
    · cases h
      exact .inr (.inr rfl)

theorem parenthesis_kind {k : Kind} {cs : List CodePoint} (h : (parenthesis cs).kind = some k) :
    Mode.plain.yields k := by
  rcases parenthesis_kinds h with rfl | rfl | rfl <;> rfl

theorem plain_kind {k : Kind} {cs : List CodePoint} (h : (plain cs).kind = some k) :
    Mode.plain.yields k := by
  cases cs with
  | nil => cases h
  | cons c cs =>
    simp only [plain] at h
    cases hc : CharClass.of c with
    | dot => rw [hc] at h; exact dot_kind h
    | digit => rw [hc] at h; exact number_kind h
    | nameStartChar => rw [hc] at h; exact name_kind h
    | parenthesisOpen => rw [hc] at h; exact parenthesis_kind h
    | colon | hash | exclamationMark | equal | lessThan | greaterThan | verticalBar
    | forwardSlash =>
      rw [hc] at h
      exact operator_kind (P := fun k => Mode.plain.yields k) rfl (by decide) h
    | endOfBuffer => rw [hc] at h; cases h
    | _ =>
      rw [hc] at h
      cases h
      rfl

theorem closeReference_kind {closed k : Kind} {length : Nat} {cs : List CodePoint}
    (h : (closeReference closed length cs).kind = some k) :
    k = closed ∨ k = .partialEntityReference := by
  unfold closeReference at h
  split at h
  · cases h
    exact .inl rfl
  · cases h
    exact .inr rfl

theorem reference_kind {k : Kind} {cs : List CodePoint} (h : (reference cs).kind = some k) :
    k = .predefinedEntityReference ∨ k = .characterReference ∨ k = .partialEntityReference ∨
      k = .emptyEntityReference := by
  unfold reference at h
  split at h
  · cases h
    exact .inr (.inr (.inr rfl))
  · split at h
    · rcases closeReference_kind h with rfl | rfl
      · exact .inl rfl
      · exact .inr (.inr (.inl rfl))
    · split at h
      all_goals
        rcases closeReference_kind h with rfl | rfl
        · exact .inr (.inl rfl)
        · exact .inr (.inr (.inl rfl))
    · cases h
      exact .inr (.inr (.inr rfl))
    · cases h
      exact .inr (.inr (.inr rfl))

theorem string_kind {quote : Char} {k : Kind} {cs : List CodePoint}
    (h : (string quote cs).kind = some k) : Mode.quoted.yields k := by
  unfold string at h
  split at h
  · cases h
  · split at h
    · split at h
      · cases h
        rfl
      · cases h
        rfl
    · split at h
      · rcases reference_kind h with rfl | rfl | rfl | rfl <;> rfl
      · cases h
        rfl

theorem bracedUri_kind {k : Kind} {cs : List CodePoint} (h : (bracedUri cs).kind = some k) :
    Mode.bracedUri.yields k := by
  unfold bracedUri at h
  split at h
  · cases h
  · split at h
    · cases h
      rfl
    · split at h
      · rcases reference_kind h with rfl | rfl | rfl | rfl <;> rfl
      · cases h
        rfl

theorem comment_kind {k : Kind} {cs : List CodePoint} (h : (comment cs).kind = some k) :
    Mode.comment.yields k := by
  unfold comment at h
  split at h
  · cases h
  · split at h
    · cases h
      rfl
    · split at h
      · cases h
        rfl
      · cases h
        rfl

theorem docMarker_kind {k : Kind} {cs : List CodePoint} (h : (docMarker cs).kind = some k) :
    Mode.docMarker.yields k := by
  have hcomment : ∀ {k}, Mode.comment.yields k → Mode.docMarker.yields k := by
    simp +contextual [Mode.yields]
  unfold docMarker at h
  split at h
  · cases h
    rfl
  · simp only at h
    split at h
    · exact hcomment (comment_kind h)
    · exact hcomment (comment_kind h)

theorem pragmaNamePart_kind {c : CodePoint} {k : Kind} {cs : List CodePoint}
    (h : (pragmaNamePart c cs).kind = some k) : Mode.pragmaName.yields k := by
  unfold pragmaNamePart at h
  split at h <;>
  · cases h
    rfl

theorem pragmaStart_kind {k : Kind} {cs : List CodePoint} (h : (pragmaStart cs).kind = some k) :
    Mode.pragmaStart.yields k := by
  unfold pragmaStart at h
  split at h
  · cases h
    rfl
  · split at h
    · cases h
    · split at h
      · cases h
        rfl
      · exact pragmaNamePart_kind h

theorem pragmaName_kind {k : Kind} {cs : List CodePoint} (h : (pragmaName cs).kind = some k) :
    Mode.pragmaName.yields k := by
  unfold pragmaName at h
  split at h
  · cases h
    rfl
  · split at h
    · cases h
    · split at h
      · cases h
        rfl
      · exact pragmaNamePart_kind h

theorem pragmaContents_kind {k : Kind} {cs : List CodePoint}
    (h : (pragmaContents cs).kind = some k) : Mode.pragmaContents.yields k := by
  unfold pragmaContents at h
  split at h
  · cases h
    rfl
  · split at h
    · cases h
    · cases h
      rfl

theorem scan_kind {mode : Mode} {k : Kind} {cs : List CodePoint}
    (h : (scan mode cs).kind = some k) : mode.yields k := by
  cases mode with
  | plain => exact plain_kind h
  | quoted => exact string_kind h
  | apostrophed => exact string_kind h
  | comment => exact comment_kind h
  | pragmaStart => exact pragmaStart_kind h
  | pragmaName => exact pragmaName_kind h
  | pragmaContents => exact pragmaContents_kind h
  | bracedUri => exact bracedUri_kind h
  | docMarker => exact docMarker_kind h

/-- The marker of a documentation comment is read in one way only. -/
theorem scan_kind_docCommentMarker {mode : Mode} {cs : List CodePoint}
    (h : (scan mode cs).kind = some .docCommentMarker) :
    mode = .docMarker ∧ (scan mode cs).move = .replace Mode.comment.code := by
  have hmode : mode = .docMarker := by
    have hyields := scan_kind h
    -- no other mode yields the marker
    cases mode with
    | docMarker => rfl
    | _ => cases hyields
  subst hmode
  refine ⟨rfl, ?_⟩
  simp only [scan, docMarker] at h ⊢
  split at h
  · next hnext =>
      rw [if_pos hnext]
      rfl
  · next hnext =>
      have hcomment : (comment cs).kind = some .docCommentMarker := by
        split at h
        · exact h
        · exact h
      cases comment_kind hcomment

end Expression

namespace Documentation

/-- The kinds of token in the body of a documentation comment. -/
def isBody (k : Kind) : Bool := k.isDoc && k != .docCommentMarker

/-- No mode of the expression lexer yields a token of a body. -/
theorem isBody_of_yields {mode : Expression.Mode} {k : Kind} (h : mode.yields k) :
    isBody k = false := by
  cases hbody : isBody k with
  | false => rfl
  | true =>
    cases k with
    | docContents | docTrim | docTagMarker | docTag | docTaggedKeyword | docWhiteSpace
    | docVariableIndicator | docNCName => cases mode <;> cases h
    | _ => cases hbody

theorem contents_kind {depth : Nat} {k : Kind} {cs : List CodePoint}
    (h : (contents depth cs).kind = some k) : isBody k := by
  unfold contents at h
  split at h
  · split at h
    · cases h
      rfl
    · cases h
      rfl
  · cases h
    rfl

theorem scan_kind {mode : Mode} {depth : Nat} {k : Kind} {cs : List CodePoint}
    (h : (scan mode depth cs).kind = some k) : isBody k := by
  cases mode with
  | contents => exact contents_kind h
  | lineStart =>
    simp only [scan, lineStart] at h
    split at h
    · split at h
      · cases h
        rfl
      · split at h
        · cases h
          rfl
        · split at h
          · cases h
            rfl
          · cases h
            rfl
    · cases h
      rfl
  | tag =>
    simp only [scan, tag] at h
    split at h
    · split at h
      · simp only [Step.moving_kind, Step.token_kind, Option.some.injEq] at h
        subst h
        split <;> rfl
      · exact contents_kind h
    · exact contents_kind h
  | paramStart =>
    simp only [scan, paramStart] at h
    split at h
    · split at h
      · cases h
        rfl
      · split at h
        · cases h
          rfl
        · exact contents_kind h
    · exact contents_kind h
  | paramName =>
    simp only [scan, paramName] at h
    split at h
    · split at h
      · cases h
        rfl
      · exact contents_kind h
    · exact contents_kind h

end Documentation

end XQuery
