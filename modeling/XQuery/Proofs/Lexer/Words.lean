import XQuery.Proofs.Lexer.Texts
import XQuery.Proofs.Report.Losslessness

/-!
# The words of a text

A word is a token without its place: a kind and the characters that it covers.
The words of a text are the one way to read it from plain text on
(`Expression.words_eq`), so that what is said of the tokens of a text is said of
its characters.
-/

namespace XQuery

/-- The kind of a token and the text that it covers. -/
structure Word where
  kind : Kind
  text : String
deriving DecidableEq

/-- The words of a text. -/
def words (s : String) : List Word :=
  (tokenize s false false).map fun e => ⟨e.token.kind, e.text⟩

/-- The word of a token. -/
def Token.word (source : String) (t : Token) : Word := ⟨t.kind, coveredText source t⟩

theorem words_eq_map (s : String) : words s = (listedTokens s false).map (Token.word s) := by
  rw [words, tokenize_all, List.map_map]
  rfl

namespace Expression

/-! ## Reading words -/

/-- The text is read as these words from a state on: the rule reads the first one, and the others
are read from what is left. -/
inductive ReadAs : Nat → List Char → List Word → Prop
  | nil (state : Nat) : ReadAs state [] []
  | cons {state : Nat} {cs rest : List Char} {w : Word} {ws : List Word} :
      cs = w.text.toList ++ rest → (rule state (cs.map Char.toNat)).kind = some w.kind →
      (rule state (cs.map Char.toNat)).length = w.text.toList.length →
      ReadAs ((rule state (cs.map Char.toNat)).move.next state) rest ws → ReadAs state cs (w :: ws)

theorem reader_length_le {state : Nat} {cs : List CodePoint} {rd : Lexeme}
    (h : rule.reader state cs = some rd) : rd.length ≤ cs.length := by
  obtain ⟨hkind, hlength, -, -⟩ := Rule.reader_eq_some h
  rw [← hlength]
  cases cs with
  | nil =>
    rw [reader_nil] at h
    cases h
  | cons c cs => exact (scan_takes _ c cs).length_le

/-- A word for each token of a run over the rest of a text. -/
theorem readAs_of_runs {source : String} {offset state : Nat} {ps : List CodePoint}
    {ts : List Token} (h : rule.reader.Runs offset state ps ts) {cs : List Char}
    (hps : ps = cs.map Char.toNat)
    (hslice : Cursor.slice (Utf16.encode source).toArray offset (Utf16.encode source).toArray.size
      = ps) :
    ReadAs state cs (ts.map (Token.word source)) := by
  induction h generalizing cs with
  | @done offset state ps hnone =>
    have hnil : ps = [] := rule_exhaustive state ps (Option.map_eq_none_iff.mp hnone)
    rw [hps, List.map_eq_nil_iff] at hnil
    rw [hnil]
    exact .nil state
  | @more offset state ps rd ts hsome hrest ih =>
    have hle := reader_length_le hsome
    have htext : (rd.token offset ps).word source
        = ⟨rd.kind, String.ofList (cs.take rd.length)⟩ := by
      have hcut := Cursor.slice_width (Utf16.encode source).toArray offset
        (Utf16.encode source).toArray.size rd.length
      rw [hslice] at hcut
      show Word.mk _ (String.ofList ((Cursor.slice _ offset (offset + _)).map Utf16.toChar)) = _
      rw [hcut, hps, ← List.map_take, Utf16.map_toChar_toNat]
      rfl
    have hdrop : ps.drop rd.length = (cs.drop rd.length).map Char.toNat := by
      rw [hps, List.map_drop]
    have hwords := ih hdrop (by rw [← hslice, Cursor.slice_add_width])
    obtain ⟨hkind, hlength, -, hnext⟩ := Rule.reader_eq_some hsome
    rw [hps] at hkind hlength hnext
    rw [hnext] at hwords
    rw [List.map_cons, htext]
    refine .cons ?_ hkind ?_ hwords
    · rw [String.toList_ofList, List.take_append_drop]
    · rw [hps, List.length_map] at hle
      rw [hlength, String.toList_ofList, List.length_take, Nat.min_eq_left hle]

theorem readAs_words (s : String) : ReadAs Mode.plain.code s.toList (words s) := by
  rw [words_eq_map]
  refine readAs_of_runs (runs_string s) rfl ?_
  rw [Cursor.slice, Array.extract_size]
  exact Utf16.decode_encode s

/-- Nothing is read at the end. -/
theorem ReadAs.ne_nil {state : Nat} {cs : List Char} {w : Word} {ws : List Word}
    (h : ReadAs state cs (w :: ws)) : cs ≠ [] := by
  rintro rfl
  cases h with
  | cons _ hkind =>
    rw [List.map_nil, rule, (scan_nil_ends _).kind] at hkind
    cases hkind

/-- A text is read in one way only. -/
theorem ReadAs.unique {state : Nat} {cs : List Char} {ws vs : List Word}
    (h : ReadAs state cs ws) (h' : ReadAs state cs vs) : ws = vs := by
  induction h generalizing vs with
  | nil =>
    cases vs with
    | nil => rfl
    | cons v vs => exact absurd rfl h'.ne_nil
  | @cons state cs rest w ws hcs hkind hlength hrest ih =>
    have hne := (ReadAs.cons hcs hkind hlength hrest).ne_nil
    cases h' with
    | nil => exact absurd rfl hne
    | @cons _ _ rest' v vs hcs' hkind' hlength' hrest' =>
      -- the rule fixes the kind and the length, and so the text and what is left
      obtain ⟨htext, rfl⟩ := List.append_inj (hcs.symm.trans hcs') (hlength.symm.trans hlength')
      have hword : w = v := by
        cases w
        cases v
        rw [Word.mk.injEq]
        exact ⟨Option.some.inj (hkind.symm.trans hkind'), String.toList_inj.mp htext⟩
      rw [hword, ih hrest']

/-- The first word and the words behind it. -/
theorem readAs_cons {mode : Mode} {cs : List Char} {w : Word} {ws : List Word} :
    ReadAs mode.code cs (w :: ws) ↔ ∃ rest, cs = w.text.toList ++ rest ∧
      (scan mode (cs.map Char.toNat)).kind = some w.kind ∧
      (scan mode (cs.map Char.toNat)).length = w.text.toList.length ∧
      ReadAs ((scan mode (cs.map Char.toNat)).move.next mode.code) rest ws := by
  have hrule : rule mode.code (cs.map Char.toNat) = scan mode (cs.map Char.toNat) := by
    rw [rule, Mode.ofCode_code]
  constructor
  · intro h
    cases h with
    | cons hcs hkind hlength hrest =>
      rw [hrule] at hkind hlength hrest
      exact ⟨_, hcs, hkind, hlength, hrest⟩
  · rintro ⟨rest, hcs, hkind, hlength, hrest⟩
    rw [← hrule] at hkind hlength hrest
    exact .cons hcs hkind hlength hrest

/-- The first word covers what the rule reads. -/
theorem ReadAs.first {mode : Mode} {cs rest : List Char} {w : Word} {ws : List Word}
    (h : ReadAs mode.code cs (w :: ws)) (run : List Char) (hcs : cs = run ++ rest) {step : Step}
    (hstep : scan mode (cs.map Char.toNat) = step) (hlength : step.length = run.length) :
    w.text.toList = run ∧ ReadAs (step.move.next mode.code) rest ws := by
  obtain ⟨rest', hcs', -, hlength', hrest⟩ := readAs_cons.mp h
  rw [hstep] at hlength' hrest
  obtain ⟨htext, rfl⟩ := List.append_inj (hcs'.symm.trans hcs) (hlength'.symm.trans hlength)
  exact ⟨htext, hrest⟩

theorem words_eq {s : String} {ws : List Word} :
    words s = ws ↔ ReadAs Mode.plain.code s.toList ws := by
  constructor
  · rintro rfl
    exact readAs_words s
  · intro h
    exact (readAs_words s).unique h

theorem kinds_eq (s : String) : kinds s = (words s).map Word.kind := by
  rw [words_eq_map, List.map_map]
  rfl

end Expression

end XQuery
