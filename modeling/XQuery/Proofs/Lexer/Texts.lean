import XQuery.Proofs.Lexer.Resumption
import XQuery.Proofs.Text.Utf16

/-!
# Tokens of a string

A string is read character by character, whatever units write it. It is a
single token exactly if the first token takes all of its characters.
-/

namespace XQuery

/-! ## Characters -/

/-- Blanks, digits and the characters of names come first, and all else is punctuation. -/
theorem of_cases (n : CodePoint) :
    (CharClass.isDigit n = true ∧ CharClass.of n = .digit) ∨
      CharClass.of n ∈ [.whitespace, .nameStartChar, .nameChar] ∨
      CharClass.of n = CharClass.punctuation n := by
  unfold CharClass.of
  split
  · exact .inr (.inl (by simp))
  · split
    · next hdigit => exact .inl ⟨hdigit, rfl⟩
    · split
      · exact .inr (.inl (by simp))
      · split
        · exact .inr (.inl (by simp))
        · exact .inr (.inr rfl)

/-- A class of punctuation is that of the table. -/
theorem punctuation_eq_of {n : CodePoint} {k : CharClass} (h : CharClass.of n = k)
    (hk : k ∉ [.digit, .whitespace, .nameStartChar, .nameChar]) :
    CharClass.punctuation n = k := by
  rcases of_cases n with ⟨_, hclass⟩ | hclass | hclass
  · simp [← h, hclass] at hk
  · rw [h] at hclass
    exact absurd (List.mem_cons_of_mem _ hclass) hk
  · exact hclass.symm.trans h

/-- The code points that the table of punctuation has. -/
def punctuationPoints : List CodePoint :=
  [0x21, 0x22, 0x23, 0x24, 0x25, 0x26, 0x27, 0x28, 0x29, 0x2A, 0x2B, 0x2C, 0x2D, 0x2E, 0x2F, 0x3A,
   0x3B, 0x3C, 0x3D, 0x3E, 0x3F, 0x40, 0x5B, 0x5C, 0x5D, 0x5E, 0x60, 0x7B, 0x7C, 0x7D, 0x7E]

theorem mem_punctuationPoints {n : CodePoint} (h : CharClass.punctuation n ≠ .invalid) :
    n ∈ punctuationPoints := by
  unfold CharClass.punctuation at h
  split at h
  all_goals first | exact absurd rfl h | decide

theorem punctuation_inj : ∀ n ∈ punctuationPoints, ∀ m ∈ punctuationPoints,
    CharClass.punctuation n = CharClass.punctuation m → n = m := by
  decide +kernel

/-- Each class of punctuation has one code point. -/
theorem point_of_class {n : CodePoint} (m : CodePoint) (h : CharClass.of n = CharClass.of m)
    (hm : CharClass.of m ∉ [.digit, .whitespace, .nameStartChar, .nameChar])
    (hvalid : CharClass.of m ≠ .invalid) : n = m := by
  have hn := punctuation_eq_of h hm
  have hm := punctuation_eq_of rfl hm
  refine punctuation_inj _ ?_ _ ?_ (hn.trans hm.symm)
  · exact mem_punctuationPoints (hn ▸ hvalid)
  · exact mem_punctuationPoints (hm ▸ hvalid)

theorem eq_of_class {c : Char} (ch : Char) (h : CharClass.of c.toNat = CharClass.of ch.toNat)
    (hch : CharClass.of ch.toNat ∉ [.digit, .whitespace, .nameStartChar, .nameChar])
    (hvalid : CharClass.of ch.toNat ≠ .invalid) : c = ch :=
  Char.toNat_inj.mp (point_of_class ch.toNat h hch hvalid)

namespace Expression

theorem toNat_beq (c d : Char) : (c.toNat == d.toNat) = (c == d) := by
  rw [Bool.eq_iff_iff, beq_iff_eq, beq_iff_eq, Char.toNat_inj]

theorem next_map (ch : Char) (cs : List Char) :
    next ch (cs.map Char.toNat) = (cs.head? == some ch) := by
  cases cs with
  | nil => rfl
  | cons c cs => exact toNat_beq c ch

theorem drop_map_append (before after : List Char) :
    ((before ++ after).map Char.toNat).drop before.length = after.map Char.toNat := by
  rw [List.map_append, List.drop_left' (List.length_map _)]

/-- All characters in front of a text that satisfy a condition are taken, if the text goes on with
another one. -/
theorem takeWhile_run {p : CodePoint → Bool} {run rest : List Char}
    (hrun : ∀ c ∈ run, p c.toNat = true) (hrest : ∀ c ∈ rest.head?, p c.toNat = false) :
    (((run ++ rest).map Char.toNat).takeWhile p).length = run.length := by
  have hnil : rest.takeWhile (p ∘ Char.toNat) = [] := by
    cases rest with
    | nil => rfl
    | cons c rest => rw [List.takeWhile_cons_of_neg]; simp [hrest c rfl]
  rw [List.takeWhile_map, List.length_map,
    List.takeWhile_append_of_pos (p := p ∘ Char.toNat) hrun, hnil, List.append_nil]

theorem count_run {p : CharClass → Bool} {run rest : List Char}
    (hrun : ∀ c ∈ run, p (CharClass.of c.toNat) = true)
    (hrest : ∀ c ∈ rest.head?, p (CharClass.of c.toNat) = false) :
    count p ((run ++ rest).map Char.toNat) = run.length :=
  takeWhile_run hrun hrest

/-! ## Kinds -/

/-- The kinds of the tokens of a string. -/
def kinds (s : String) : List Kind :=
  (Lexer.expression.tokens (Utf16.encode s).toArray 0 (Utf16.encode s).toArray.size 0).map
    Token.kind

/-- The tokens of a string are a run over its characters from plain text on. -/
theorem runs_string (s : String) :
    rule.reader.Runs 0 Mode.plain.code (s.toList.map Char.toNat)
      (Lexer.expression.tokens (Utf16.encode s).toArray 0 (Utf16.encode s).toArray.size 0) := by
  have hruns := account.tokens_runs Lexer.Tree.expression.progressive ⟨.plain, rfl⟩
    (Utf16.encode s).toArray 0 (Utf16.encode s).toArray.size
  rw [Cursor.ofRegion_stop_all, Cursor.ofRegion_ahead_all] at hruns
  rw [← Utf16.decode_encode]
  exact hruns

theorem reader_nil (state : Nat) : rule.reader state [] = none := by
  rw [Rule.reader, rule, (scan_nil_ends _).kind, Option.map_none]

/-- Nothing is left behind a run that is over. -/
theorem runs_nil {offset state : Nat} {cs : List CodePoint}
    (h : rule.reader.Runs offset state cs []) : cs = [] := by
  cases h with
  | done hnone => exact rule_exhaustive state cs (Option.map_eq_none_iff.mp hnone)

theorem plain_length_le (cs : List CodePoint) : (plain cs).length ≤ cs.length := by
  cases cs with
  | nil => exact Nat.le_refl 0
  | cons c cs => exact (plain_takes c cs).length_le

theorem kinds_eq_singleton {s : String} {k : Kind} :
    kinds s = [k] ↔ (plain (s.toList.map Char.toNat)).kind = some k ∧
      (plain (s.toList.map Char.toNat)).length = s.toList.length := by
  have hruns := runs_string s
  have hle := plain_length_le (s.toList.map Char.toNat)
  rw [List.length_map] at hle
  constructor
  · intro hkinds
    unfold kinds at hkinds
    generalize Lexer.expression.tokens _ 0 _ 0 = ts at hruns hkinds
    cases hruns with
    | done => cases hkinds
    | @more _ _ _ rd ts hsome hrest =>
      obtain ⟨hkind, hlength, -, -⟩ := Rule.reader_eq_some hsome
      simp only [List.map_cons, List.cons.injEq, List.map_eq_nil_iff] at hkinds
      obtain ⟨rfl, rfl⟩ := hkinds
      have hdrop := congrArg List.length (runs_nil hrest)
      rw [List.length_drop, List.length_map, List.length_nil, ← hlength] at hdrop
      exact ⟨hkind, Nat.le_antisymm hle (Nat.le_of_sub_eq_zero hdrop)⟩
  · rintro ⟨hkind, hlength⟩
    have hread : rule.reader Mode.plain.code (s.toList.map Char.toNat)
        = some ⟨k, s.toList.length, Mode.plain.code,
          (plain (s.toList.map Char.toNat)).move.next Mode.plain.code⟩ := by
      show (plain (s.toList.map Char.toNat)).kind.map _ = _
      rw [hkind, ← hlength]
      rfl
    have hdrop : (s.toList.map Char.toNat).drop s.toList.length = [] :=
      List.drop_eq_nil_of_le (by simp)
    rw [kinds, hruns.unique (.more hread (.done (by rw [hdrop, reader_nil])))]
    rfl

end Expression

end XQuery
