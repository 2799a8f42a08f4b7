import XQuery.Proofs.Lexer.Reader

/-!
# States of the lexers

What the rules do to the stack of states. The expression lexer pushes a mode
only in plain text; inside strings, comments and pragmas it stays, moves on to
another mode in place, or goes back. The documentation lexer never pushes or
pops, and its states stay below the ids of combined states.
-/

namespace XQuery

namespace Expression

theorem Mode.ofCode_code (mode : Mode) : Mode.ofCode mode.code = mode := by
  cases mode <;> rfl

theorem Mode.code_lt (mode : Mode) : mode.code < idUnit := by
  cases mode <;> decide

theorem operator_move (alone : Kind) (pairs : List (Char × Kind)) (cs : List CodePoint) :
    (operator alone pairs cs).move = .keep := by
  unfold operator
  split <;> rfl

theorem exponent_move (kind : Kind) (length : Nat) (cs : List CodePoint) :
    (exponent kind length cs).move = .keep := by
  unfold exponent
  split
  · rfl
  · split
    · simp only
      split
      · rfl
      · split <;> rfl
    · rfl

theorem number_move (cs : List CodePoint) : (number cs).move = .keep := by
  unfold number
  simp only
  split
  · split
    · exact exponent_move _ _ _
    · exact exponent_move _ _ _
  · exact exponent_move _ _ _

theorem dot_move (cs : List CodePoint) : (dot cs).move = .keep := by
  unfold dot
  split
  · rfl
  · split
    · rfl
    · exact exponent_move _ _ _

theorem name_move (c : CodePoint) (cs : List CodePoint) :
    (name c cs).move = .keep ∨ (name c cs).move = .push Mode.bracedUri.code := by
  unfold name
  split
  · exact .inr rfl
  · exact .inl rfl

theorem parenthesis_move (cs : List CodePoint) :
    (parenthesis cs).move = .keep ∨ ∃ mode : Mode, (parenthesis cs).move = .push mode.code := by
  unfold parenthesis
  split
  · exact .inr ⟨_, rfl⟩
  · split
    · exact .inr ⟨.pragmaStart, rfl⟩
    · exact .inl rfl

theorem plain_move (cs : List CodePoint) :
    (plain cs).move = .keep ∨ ∃ mode : Mode, (plain cs).move = .push mode.code := by
  cases cs with
  | nil => exact .inl rfl
  | cons c cs =>
    simp only [plain]
    cases CharClass.of c with
    | dot => exact .inl (dot_move cs)
    | digit => exact .inl (number_move cs)
    | nameStartChar => exact (name_move c cs).imp_right fun h => ⟨.bracedUri, h⟩
    | parenthesisOpen => exact parenthesis_move cs
    | quote => exact .inr ⟨.quoted, rfl⟩
    | apostrophe => exact .inr ⟨.apostrophed, rfl⟩
    | colon | hash | exclamationMark | equal | lessThan | greaterThan | verticalBar
    | forwardSlash => exact .inl (operator_move _ _ cs)
    | _ => exact .inl rfl

theorem closeReference_move (closed : Kind) (length : Nat) (cs : List CodePoint) :
    (closeReference closed length cs).move = .keep := by
  unfold closeReference
  split <;> rfl

theorem reference_move (cs : List CodePoint) : (reference cs).move = .keep := by
  unfold reference
  split
  · rfl
  · split
    · exact closeReference_move _ _ _
    · split
      · exact closeReference_move _ _ _
      · exact closeReference_move _ _ _
    · rfl
    · rfl

theorem string_move (quote : Char) (cs : List CodePoint) :
    (string quote cs).move = .keep ∨ (string quote cs).move = .pop := by
  unfold string
  split
  · exact .inl rfl
  · split
    · split
      · exact .inl rfl
      · exact .inr rfl
    · split
      · exact .inl (reference_move _)
      · exact .inl rfl

theorem bracedUri_move (cs : List CodePoint) :
    (bracedUri cs).move = .keep ∨ (bracedUri cs).move = .pop := by
  unfold bracedUri
  split
  · exact .inl rfl
  · split
    · exact .inr rfl
    · split
      · exact .inl (reference_move _)
      · exact .inl rfl

theorem comment_move (cs : List CodePoint) :
    (comment cs).move = .keep ∨ (comment cs).move = .pop := by
  unfold comment
  split
  · exact .inl rfl
  · split
    · exact .inr rfl
    · split <;> exact .inl rfl

theorem docMarker_move (cs : List CodePoint) :
    (docMarker cs).move = .pop ∨ (docMarker cs).move = .replace Mode.comment.code := by
  unfold docMarker
  split
  · exact .inr rfl
  · simp only
    split
    · next hpop => exact .inl hpop
    · exact .inr rfl

theorem pragmaNamePart_move (c : CodePoint) (cs : List CodePoint) :
    (pragmaNamePart c cs).move = .keep := by
  unfold pragmaNamePart
  split <;> rfl

theorem pragmaStart_move (cs : List CodePoint) :
    (pragmaStart cs).move = .keep ∨ (pragmaStart cs).move = .pop ∨
      (pragmaStart cs).move = .replace Mode.pragmaName.code := by
  unfold pragmaStart
  split
  · exact .inr (.inl rfl)
  · split
    · exact .inl rfl
    · split
      · exact .inl rfl
      · exact .inr (.inr rfl)

theorem pragmaName_move (cs : List CodePoint) :
    (pragmaName cs).move = .keep ∨ (pragmaName cs).move = .pop ∨
      (pragmaName cs).move = .replace Mode.pragmaContents.code := by
  unfold pragmaName
  split
  · exact .inr (.inl rfl)
  · split
    · exact .inl rfl
    · split
      · exact .inr (.inr rfl)
      · exact .inl (pragmaNamePart_move _ _)

theorem pragmaContents_move (cs : List CodePoint) :
    (pragmaContents cs).move = .keep ∨ (pragmaContents cs).move = .pop := by
  unfold pragmaContents
  split
  · exact .inr rfl
  · split <;> exact .inl rfl

/-- Outside plain text the stack never grows. -/
theorem scan_move {mode : Mode} (hmode : mode ≠ .plain) (cs : List CodePoint) :
    (scan mode cs).move = .keep ∨ (scan mode cs).move = .pop ∨
      ∃ mode' : Mode, (scan mode cs).move = .replace mode'.code := by
  cases mode with
  | plain => exact absurd rfl hmode
  | quoted | apostrophed => exact (string_move _ cs).imp_right .inl
  | comment => exact (comment_move cs).imp_right .inl
  | bracedUri => exact (bracedUri_move cs).imp_right .inl
  | pragmaContents => exact (pragmaContents_move cs).imp_right .inl
  | pragmaStart => exact (pragmaStart_move cs).imp_right (.imp_right fun h => ⟨_, h⟩)
  | pragmaName => exact (pragmaName_move cs).imp_right (.imp_right fun h => ⟨_, h⟩)
  | docMarker => exact .inr ((docMarker_move cs).imp_right fun h => ⟨_, h⟩)

/-- The states that the expression lexer declares: those of its modes. -/
def Declared (state : Nat) : Prop := ∃ mode : Mode, mode.code = state

theorem Declared.lt {state : Nat} (h : Declared state) : state < idUnit := by
  obtain ⟨mode, rfl⟩ := h
  exact mode.code_lt

theorem rule_closed : Rule.Closed rule Declared where
  push := by
    rintro state cs s ⟨mode, rfl⟩ hpush
    rw [rule, Mode.ofCode_code] at hpush
    by_cases hmode : mode = .plain
    · rw [hmode]
      rfl
    · rcases scan_move hmode cs with h | h | ⟨mode', h⟩
      all_goals
        rw [h] at hpush
        cases hpush
  next := by
    rintro state cs ⟨mode, rfl⟩
    rw [rule, Mode.ofCode_code]
    by_cases hmode : mode = .plain
    · rw [hmode]
      rcases plain_move cs with h | ⟨mode', h⟩
      · exact ⟨.plain, by rw [scan, h]; rfl⟩
      · exact ⟨mode', by rw [scan, h]; rfl⟩
    · rcases scan_move hmode cs with h | h | ⟨mode', h⟩
      · exact ⟨mode, by rw [h]; rfl⟩
      · exact ⟨.plain, by rw [h]; rfl⟩
      · exact ⟨mode', by rw [h]; rfl⟩

end Expression

namespace Documentation

theorem Mode.ofCode_code (mode : Mode) : Mode.ofCode mode.code = mode := by
  cases mode <;> rfl

theorem Mode.code_lt (mode : Mode) : mode.code < depthUnit := by
  cases mode <;> decide

theorem pack_mod (mode : Mode) (depth : Nat) : pack mode depth % depthUnit = mode.code := by
  rw [pack, Nat.add_mul_mod_self_right, Nat.mod_eq_of_lt mode.code_lt]

theorem pack_div (mode : Mode) (depth : Nat) : pack mode depth / depthUnit = depth := by
  rw [pack, Nat.add_mul_div_right _ _ (by decide), Nat.div_eq_of_lt mode.code_lt, Nat.zero_add]

theorem rule_pack (mode : Mode) (depth : Nat) (cs : List CodePoint) :
    rule (pack mode depth) cs
      = if atTerminator depth cs then .exhausted else scan mode depth cs := by
  rw [rule, pack_mod, pack_div, Mode.ofCode_code]

/-- The depth grows up to the greatest depth and never passes it on its own account. -/
theorem lineText_depth_le (depth : Nat) (cs : List CodePoint) :
    (lineText depth cs).2 ≤ max depth maxDepth := by
  fun_induction lineText depth cs with
  | case1 => exact Nat.le_max_left _ _
  | case2 => exact Nat.le_max_left _ _
  | case3 => exact Nat.le_max_left _ _
  | case4 => exact Nat.le_max_left _ _
  | case5 depth c d cs _ _ length depth' htext ih =>
    -- one level deeper, but not past the greatest depth
    rw [htext] at ih
    simp only at ih ⊢
    omega
  | case6 => exact Nat.zero_le _
  | case7 c d cs _ _ _ depth length depth' htext ih =>
    rw [htext] at ih
    simp only at ih ⊢
    omega
  | case8 depth c d cs _ _ _ length depth' htext ih =>
    rw [htext] at ih
    exact ih

/-- The move leaves the mode and the depth alone or changes both in place. -/
def InPlace (depth : Nat) (move : StackMove) : Prop :=
  move = .keep ∨ ∃ mode depth', move = .replace (pack mode depth') ∧ depth' ≤ max depth maxDepth

theorem InPlace.replace (mode : Mode) (depth : Nat) :
    InPlace depth (.replace (pack mode depth)) :=
  .inr ⟨mode, depth, rfl, Nat.le_max_left _ _⟩

theorem line_move (depth : Nat) (cs : List CodePoint) : InPlace depth (line depth cs).move :=
  .inr ⟨.contents, _, rfl, lineText_depth_le depth cs⟩

theorem contents_move (depth : Nat) (cs : List CodePoint) :
    InPlace depth (contents depth cs).move := by
  unfold contents
  split
  · split
    · exact .replace _ _
    · exact line_move depth _
  · exact line_move depth _

theorem scan_move (mode : Mode) (depth : Nat) (cs : List CodePoint) :
    InPlace depth (scan mode depth cs).move := by
  cases cs with
  | nil =>
    cases mode with
    | lineStart => exact line_move depth _
    | contents | tag | paramStart | paramName => exact contents_move depth _
  | cons c cs =>
    cases mode with
    | contents => exact contents_move depth _
    | lineStart =>
      simp only [scan, lineStart]
      split
      · exact .replace _ _
      · split
        · exact .inl rfl
        · split
          · exact .replace _ _
          · exact line_move depth _
    | tag =>
      simp only [scan, tag]
      split
      · exact .replace _ _
      · exact contents_move depth _
    | paramStart =>
      simp only [scan, paramStart]
      split
      · exact .inl rfl
      · split
        · exact .replace _ _
        · exact contents_move depth _
    | paramName =>
      simp only [scan, paramName]
      split
      · exact .replace _ _
      · exact contents_move depth _

theorem rule_move (state : Nat) (cs : List CodePoint) :
    InPlace (state / depthUnit) (rule state cs).move := by
  simp only [rule]
  split
  · exact .inl rfl
  · exact scan_move _ _ _

theorem rule_move_ne_push (state : Nat) (cs : List CodePoint) (s : Nat) :
    (rule state cs).move ≠ .push s := by
  rcases rule_move state cs with h | ⟨mode, depth, h, _⟩
  all_goals
    rw [h]
    exact nofun

theorem rule_closed_all : Rule.Closed rule fun _ => True where
  push _ h := absurd h (rule_move_ne_push _ _ _)
  next _ := trivial

/-- Below the ids there is room for the greatest depth. -/
theorem pack_lt (mode : Mode) {depth : Nat} (h : depth ≤ max (idUnit / depthUnit - 1) maxDepth) :
    pack mode depth < idUnit := by
  have hcode := mode.code_lt
  simp only [pack, depthUnit, idUnit, maxDepth] at *
  omega

theorem rule_closed : Rule.Closed rule (· < idUnit) where
  push _ h := absurd h (rule_move_ne_push _ _ _)
  next := by
    intro state cs hstate
    rcases rule_move state cs with h | ⟨mode, depth, h, hdepth⟩
    · rw [h]
      exact hstate
    · rw [h]
      refine pack_lt mode (Nat.le_trans hdepth ?_)
      simp only [depthUnit, idUnit, maxDepth] at *
      omega

end Documentation

end XQuery
