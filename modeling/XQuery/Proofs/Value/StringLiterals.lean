import XQuery.Proofs.Name.Tokens
import XQuery.Proofs.Value.NumericLiterals

/-!
# String literals

A string literal is a text between two delimiters in which every delimiter is
written twice (`Delimiter.quoted`). The lexer takes a literal apart into text,
doubled delimiters and references of any form; none of these words has a single
delimiter in it (`Literal.Inside`), so that the closing one is where the literal
ends. Without references the value of a literal is the text that it quotes, and
nothing but a literal has a value (`Literal.string_eq_ok_iff_quoted`).
-/

namespace XQuery

/-- The characters that enclose a string literal. -/
inductive Delimiter where
  | quote
  | apostrophe
deriving DecidableEq

namespace Delimiter

def char : Delimiter → Char
  | quote => '"'
  | apostrophe => '\''

/-- The text with every delimiter in it written twice. -/
def doubled (d : Delimiter) (cs : List Char) : List Char :=
  cs.flatMap fun c => if c = d.char then [c, c] else [c]

/-- The literal that writes a text. -/
def quoted (d : Delimiter) (s : String) : String :=
  String.ofList (d.char :: (d.doubled s.toList ++ [d.char]))

/-- The mode in which the inside of a literal is read. -/
def mode : Delimiter → Expression.Mode
  | quote => .quoted
  | apostrophe => .apostrophed

theorem scan_mode (d : Delimiter) : Expression.scan d.mode = Expression.string d.char := by
  cases d <;> rfl

theorem char_ne_amp (d : Delimiter) : d.char ≠ '&' := by
  cases d <;> decide

theorem char_inj {d d' : Delimiter} (h : d.char = d'.char) : d = d' := by
  cases d <;> cases d' <;> first | rfl | cases h

theorem toList_quoted (d : Delimiter) (s : String) :
    (d.quoted s).toList = d.char :: (d.doubled s.toList ++ [d.char]) := String.toList_ofList

@[simp] theorem doubled_nil (d : Delimiter) : d.doubled [] = [] := rfl

@[simp] theorem doubled_delimiter (d : Delimiter) (cs : List Char) :
    d.doubled (d.char :: cs) = d.char :: d.char :: d.doubled cs := by
  simp [doubled]

theorem doubled_cons {d : Delimiter} {c : Char} (hc : c ≠ d.char) (cs : List Char) :
    d.doubled (c :: cs) = c :: d.doubled cs := by
  simp [doubled, hc]

@[simp] theorem doubled_append (d : Delimiter) (cs ds : List Char) :
    d.doubled (cs ++ ds) = d.doubled cs ++ d.doubled ds := by
  simp [doubled]

theorem doubled_eq_self {d : Delimiter} {cs : List Char} (h : d.char ∉ cs) :
    d.doubled cs = cs := by
  induction cs with
  | nil => rfl
  | cons c cs ih =>
    obtain ⟨hc, hcs⟩ := List.ne_and_not_mem_of_not_mem_cons h
    rw [doubled_cons hc.symm, ih hcs]

/-- What a quoted text begins with in doubled form, the text begins with. -/
theorem doubled_cancel {d : Delimiter} {xs rest cs : List Char}
    (h : d.doubled xs ++ rest = d.doubled cs ++ [d.char]) :
    ∃ behind, cs = xs ++ behind ∧ rest = d.doubled behind ++ [d.char] := by
  induction xs generalizing cs with
  | nil => exact ⟨cs, rfl, h⟩
  | cons x xs ih =>
    by_cases hx : x = d.char
    · subst hx
      cases cs with
      | nil => simp at h
      | cons c cs =>
        by_cases hc : c = d.char
        · subst hc
          simp only [doubled_delimiter, List.cons_append, List.cons.injEq, true_and] at h
          obtain ⟨behind, rfl, hrest⟩ := ih h
          exact ⟨behind, rfl, hrest⟩
        · simp only [doubled_delimiter, doubled_cons hc, List.cons_append, List.cons.injEq] at h
          exact absurd h.1.symm hc
    · cases cs with
      | nil =>
        simp only [doubled_cons hx, List.cons_append, doubled_nil, List.nil_append,
          List.cons.injEq] at h
        exact absurd h.1 hx
      | cons c cs =>
        by_cases hc : c = d.char
        · subst hc
          simp only [doubled_delimiter, doubled_cons hx, List.cons_append, List.cons.injEq] at h
          exact absurd h.1 hx
        · simp only [doubled_cons hx, doubled_cons hc, List.cons_append, List.cons.injEq] at h
          obtain ⟨rfl, htail⟩ := h
          obtain ⟨behind, rfl, hrest⟩ := ih htail
          exact ⟨behind, rfl, hrest⟩

/-- A single delimiter in a quoted text is the closing one. -/
theorem eq_nil_of_single {d : Delimiter} {cs rest : List Char}
    (h : d.doubled cs ++ [d.char] = d.char :: rest) (hrest : rest.head? ≠ some d.char) :
    cs = [] ∧ rest = [] := by
  cases cs with
  | nil =>
    cases h
    exact ⟨rfl, rfl⟩
  | cons c cs =>
    by_cases hc : c = d.char
    · subst hc
      simp only [doubled_delimiter, List.cons_append, List.cons.injEq, true_and] at h
      rw [← h] at hrest
      exact absurd rfl hrest
    · simp only [doubled_cons hc, List.cons_append, List.cons.injEq] at h
      exact absurd h.1 hc

end Delimiter

namespace Expression

/-! ## The start of a literal -/

theorem plain_opening (d : Delimiter) (rest : List Char) :
    plain ((d.char :: rest).map Char.toNat)
      = (Step.token .stringLiteralStart 1).moving (.push d.mode.code) := by
  cases d <;> rfl

theorem exists_opening {cs : List Char}
    (h : (plain (cs.map Char.toNat)).kind = some .stringLiteralStart) :
    ∃ (d : Delimiter) (rest : List Char), cs = d.char :: rest := by
  cases cs with
  | nil => cases h
  | cons c cs =>
    simp only [List.map_cons, plain] at h
    cases hc : CharClass.of c.toNat with
    | quote => exact ⟨.quote, cs, by rw [eq_of_class '"' hc (by decide) (by decide)]; rfl⟩
    | apostrophe =>
      exact ⟨.apostrophe, cs, by rw [eq_of_class '\'' hc (by decide) (by decide)]; rfl⟩
    | dot =>
      rw [hc] at h
      rcases dot_kinds h with hk | hk | hk | hk | hk <;> cases hk
    | digit =>
      rw [hc] at h
      rcases number_kinds h with hk | hk | hk | hk <;> cases hk
    | parenthesisOpen =>
      rw [hc] at h
      rcases parenthesis_kinds h with hk | hk | hk <;> cases hk
    | nameStartChar =>
      rw [hc] at h
      cases (braced_of_not_isName (by decide) h).1
    | colon | hash | exclamationMark | equal | lessThan | greaterThan | verticalBar
    | forwardSlash =>
      rw [hc] at h
      exact absurd rfl (operator_kind (P := fun k => k ≠ .stringLiteralStart)
        (by decide) (by decide) h)
    | _ =>
      rw [hc] at h
      cases h

theorem ReadAs.openingDelimiter {cs : List Char} {opening : Word}
    (hopening : opening.kind = .stringLiteralStart) {ws : List Word}
    (h : ReadAs Mode.plain.code cs (opening :: ws)) :
    ∃ (d : Delimiter) (rest : List Char), cs = d.char :: rest ∧ ReadAs d.mode.code rest ws := by
  obtain ⟨_, _, hkind, _⟩ := readAs_cons.mp h
  rw [hopening] at hkind
  obtain ⟨d, rest, rfl⟩ := exists_opening hkind
  obtain ⟨-, hrest⟩ := h.first [d.char] rfl (plain_opening d rest) rfl
  exact ⟨d, rest, rfl, hrest⟩

/-! ## The inside of a literal -/

theorem string_delimiter (ch : Char) (cs : List Char) :
    string ch ((ch :: cs).map Char.toNat)
      = if cs.head? = some ch then .token .escapedCharacter 2
        else (Step.token .stringLiteralEnd 1).moving .pop := by
  simp only [List.map_cons, string, beq_self_eq_true, if_true, next_map, beq_iff_eq]

theorem string_reference {ch : Char} (hch : ch ≠ '&') (cs : List Char) :
    string ch (('&' :: cs).map Char.toNat) = reference (cs.map Char.toNat) := by
  rw [List.map_cons, string, toNat_beq, if_neg (by simpa using hch.symm), toNat_beq,
    if_pos (by rfl)]

theorem string_text {c ch : Char} (hch : c ≠ ch) (hamp : c ≠ '&') (cs : List Char) :
    string ch ((c :: cs).map Char.toNat)
      = .token .stringLiteralContents (1 + contents ch (cs.map Char.toNat)) := by
  rw [List.map_cons, string, toNat_beq, if_neg (by simpa using hch), toNat_beq,
    if_neg (by simpa using hamp)]

theorem reference_eq_token {k : Kind} {cs : List CodePoint}
    (h : (reference cs).kind = some k) : reference cs = .token k (reference cs).length := by
  have hmove := reference_move cs
  cases hstep : reference cs with
  | mk kind length move =>
    rw [hstep] at h hmove
    cases h
    cases hmove
    rfl

end Expression

namespace Literal

open Expression

/-- A word inside a literal and the text behind it: a doubled delimiter, a reference, or all of the
text in front of a reference or a delimiter. -/
inductive Inside (d : Delimiter) (w : Word) (rest : List Char) : Prop
  | escaped : w.kind = .escapedCharacter → w.text.toList = [d.char, d.char] → Inside d w rest
  | reference {cs : List Char} : w.text.toList = '&' :: cs → d.char ∉ w.text.toList →
      reference ((cs ++ rest).map Char.toNat) = .token w.kind w.text.toList.length →
      Inside d w rest
  | contents : w.kind = .stringLiteralContents → w.text.toList ≠ [] →
      (∀ c ∈ w.text.toList, c ≠ d.char ∧ c ≠ '&') →
      (∀ c ∈ rest.head?, c = d.char ∨ c = '&') → Inside d w rest

/-- The word that closes a literal and the text behind it. -/
structure Closes (d : Delimiter) (w : Word) (rest : List Char) : Prop where
  kind : w.kind = .stringLiteralEnd
  text : w.text.toList = [d.char]
  single : rest.head? ≠ some d.char

theorem delimiter_not_mem_reference (d : Delimiter) (cs : List CodePoint) :
    d.char.toNat ∉ ('&'.toNat :: cs).take (reference cs).length := by
  cases d
  all_goals exact not_mem_reference (by decide) (by decide) (by decide) cs

/-- At a delimiter a literal goes on if it is doubled and is closed otherwise. -/
theorem readAs_delimiter {d : Delimiter} {tail : List Char} {w : Word} {ws : List Word}
    (h : ReadAs d.mode.code (d.char :: tail) (w :: ws)) :
    ∃ rest, d.char :: tail = w.text.toList ++ rest ∧
      ((Inside d w rest ∧ ReadAs d.mode.code rest ws) ∨
        (Closes d w rest ∧ ReadAs Mode.plain.code rest ws)) := by
  obtain ⟨_, _, hkind, _⟩ := readAs_cons.mp h
  have hstep := string_delimiter d.char tail
  rw [← d.scan_mode] at hstep
  rw [hstep] at hkind
  split at hkind
  · next hhead =>
      rw [if_pos hhead] at hstep
      obtain ⟨rest, rfl⟩ := List.head?_eq_some_iff.mp hhead
      obtain ⟨htext, hrest⟩ := h.first [d.char, d.char] rfl hstep rfl
      exact ⟨rest, by rw [htext]; rfl, .inl ⟨.escaped (Option.some.inj hkind).symm htext, hrest⟩⟩
  · next hhead =>
      rw [if_neg hhead] at hstep
      obtain ⟨htext, hrest⟩ := h.first [d.char] rfl hstep rfl
      exact ⟨tail, by rw [htext]; rfl,
        .inr ⟨⟨(Option.some.inj hkind).symm, htext, hhead⟩, hrest⟩⟩

/-- At an ampersand a reference is read, which ends in front of the next delimiter. -/
theorem readAs_reference {d : Delimiter} {tail : List Char} {w : Word} {ws : List Word}
    (h : ReadAs d.mode.code ('&' :: tail) (w :: ws)) :
    ∃ rest, '&' :: tail = w.text.toList ++ rest ∧ Inside d w rest ∧
      ReadAs d.mode.code rest ws := by
  obtain ⟨rest, hcs, hkind, hlength, hrest⟩ := readAs_cons.mp h
  rw [d.scan_mode, string_reference d.char_ne_amp] at hkind hlength hrest
  have hstep := reference_eq_token hkind
  rw [hlength] at hstep
  rw [hstep] at hrest
  refine ⟨rest, hcs, ?_, hrest⟩
  have hmem := delimiter_not_mem_reference d (tail.map Char.toNat)
  rw [hlength, ← List.map_cons, hcs, ← List.map_take, List.take_left] at hmem
  have hpos := (reference_takes (tail.map Char.toNat)).length_pos
  rw [hlength] at hpos
  obtain ⟨c, text, hw⟩ := List.exists_cons_of_ne_nil (List.ne_nil_of_length_pos hpos)
  rw [hw, List.cons_append] at hcs
  obtain ⟨rfl, rfl⟩ := List.cons.inj hcs
  exact .reference hw (fun hd => hmem (List.mem_map_of_mem hd)) hstep

/-- Every other character is read together with all that follow up to a reference or a
delimiter. -/
theorem readAs_text {d : Delimiter} {c : Char} (hdelimiter : c ≠ d.char) (hamp : c ≠ '&')
    {tail : List Char} {w : Word} {ws : List Word}
    (h : ReadAs d.mode.code (c :: tail) (w :: ws)) :
    ∃ rest, c :: tail = w.text.toList ++ rest ∧ Inside d w rest ∧
      ReadAs d.mode.code rest ws := by
  obtain ⟨run, rest, rfl, hrun, hrest⟩ :=
    Text.exists_run (fun c => c != d.char && c != '&') tail
  have hcount : contents d.char ((run ++ rest).map Char.toNat) = run.length := by
    refine takeWhile_run ?_ ?_
    · intro a ha
      simpa only [bne, toNat_beq] using hrun a ha
    · intro a ha
      simpa only [bne, toNat_beq] using hrest a ha
  have hstep : scan d.mode ((c :: (run ++ rest)).map Char.toNat)
      = .token .stringLiteralContents (c :: run).length := by
    rw [d.scan_mode, string_text hdelimiter hamp, hcount, List.length_cons, Nat.add_comm]
  obtain ⟨htext, hread⟩ := h.first (c :: run) rfl hstep rfl
  obtain ⟨_, _, hkind, _⟩ := readAs_cons.mp h
  rw [hstep] at hkind
  refine ⟨rest, by rw [htext]; rfl, .contents (Option.some.inj hkind).symm ?_ ?_ ?_, hread⟩
  · rw [htext]
    exact List.cons_ne_nil c run
  · rw [htext]
    refine List.forall_mem_cons.mpr ⟨⟨hdelimiter, hamp⟩, fun a ha => ?_⟩
    simpa using hrun a ha
  · intro a ha
    simpa only [Bool.and_eq_false_iff, bne_eq_false_iff_eq] using hrest a ha

/-- A literal is read word by word up to its closing delimiter. -/
theorem readAs_mode {d : Delimiter} {cs : List Char} {w : Word} {ws : List Word}
    (h : ReadAs d.mode.code cs (w :: ws)) :
    ∃ rest, cs = w.text.toList ++ rest ∧
      ((Inside d w rest ∧ ReadAs d.mode.code rest ws) ∨
        (Closes d w rest ∧ ReadAs Mode.plain.code rest ws)) := by
  obtain ⟨c, tail, rfl⟩ := List.exists_cons_of_ne_nil h.ne_nil
  by_cases hdelimiter : c = d.char
  · subst hdelimiter
    exact readAs_delimiter h
  · by_cases hamp : c = '&'
    · subst hamp
      obtain ⟨rest, hcs, hinside⟩ := readAs_reference h
      exact ⟨rest, hcs, .inl hinside⟩
    · obtain ⟨rest, hcs, hinside⟩ := readAs_text hdelimiter hamp h
      exact ⟨rest, hcs, .inl hinside⟩

/-! ## The value of the words -/

/-- The value of the words inside the literal `raw`. -/
def wordsValue (raw : String) (rules : StringRules) (ws : List Word) : Except Fault String :=
  (ws.mapM fun w => piece raw rules w.kind w.text).map String.join

variable {raw : String} {rules : StringRules}

theorem wordsValue_cons (w : Word) (ws : List Word) :
    wordsValue raw rules (w :: ws) = (piece raw rules w.kind w.text).bind fun x =>
      (wordsValue raw rules ws).map (x ++ ·) := by
  simp only [wordsValue, List.mapM_cons]
  cases piece raw rules w.kind w.text with
  | error fault => rfl
  | ok x =>
    cases ws.mapM fun w => piece raw rules w.kind w.text with
    | error fault => rfl
    | ok xs => exact congrArg Except.ok String.join_cons

theorem wordsValue_cons_eq_ok {w : Word} {ws : List Word} {v : String} :
    wordsValue raw rules (w :: ws) = .ok v ↔
      ∃ x y, piece raw rules w.kind w.text = .ok x ∧ wordsValue raw rules ws = .ok y ∧
        v = x ++ y := by
  rw [wordsValue_cons]
  cases piece raw rules w.kind w.text with
  | error fault => simp [Except.bind]
  | ok x =>
    cases wordsValue raw rules ws with
    | error fault => simp [Except.bind, Except.map]
    | ok y => simp [Except.bind, Except.map, eq_comm]

/-- The first word without a value decides what is wrong with all of them. -/
theorem exists_of_wordsValue_error {ws : List Word} {fault : Fault}
    (h : wordsValue raw rules ws = .error fault) :
    ∃ before w behind x, ws = before ++ w :: behind ∧ wordsValue raw rules before = .ok x ∧
      piece raw rules w.kind w.text = .error fault := by
  induction ws with
  | nil => cases h
  | cons w ws ih =>
    rw [wordsValue_cons] at h
    cases hpiece : piece raw rules w.kind w.text with
    | error fault' =>
      rw [hpiece] at h
      cases h
      exact ⟨[], w, ws, "", rfl, rfl, hpiece⟩
    | ok x =>
      rw [hpiece] at h
      cases hws : wordsValue raw rules ws with
      | ok y =>
        rw [hws] at h
        cases h
      | error fault' =>
        rw [hws] at h
        cases h
        obtain ⟨before, v, behind, y, rfl, hbefore, hv⟩ := ih hws
        exact ⟨w :: before, v, behind, x ++ y, rfl,
          wordsValue_cons_eq_ok.mpr ⟨x, y, hpiece, hbefore, rfl⟩, hv⟩

/-! ## Literals as words -/

theorem innerTokens?_eq_some {ts inner : List Token} :
    innerTokens? ts = some inner ↔ ∃ first last, ts = first :: (inner ++ [last]) ∧
      first.kind = .stringLiteralStart ∧ last.kind = .stringLiteralEnd := by
  cases ts with
  | nil => simp [innerTokens?]
  | cons first rest =>
    rcases List.eq_nil_or_concat rest with rfl | ⟨front, last, rfl⟩
    · simp [innerTokens?]
    · simp only [List.concat_eq_append, innerTokens?, List.getLast?_concat, List.dropLast_concat,
        Option.ite_none_right_eq_some, Option.some.injEq, List.cons.injEq]
      constructor
      · rintro ⟨hkinds, rfl⟩
        exact ⟨first, last, ⟨rfl, rfl⟩, hkinds⟩
      · rintro ⟨_, _, ⟨rfl, hfront⟩, hkinds⟩
        obtain ⟨rfl, hlast⟩ := List.append_inj' hfront rfl
        cases hlast
        exact ⟨hkinds, rfl⟩

theorem string_eq (raw : String) (rules : StringRules) :
    string raw rules = match innerTokens? (listedTokens raw false) with
      | none => .error (.incompleteString raw)
      | some ts => wordsValue raw rules (ts.map (Token.word raw)) := by
  unfold string listedTokens
  rw [if_neg Bool.false_ne_true]
  simp only
  generalize Lexer.expression.tokens _ _ _ _ = ts
  cases innerTokens? ts with
  | none => rfl
  | some ts =>
    show _ = wordsValue raw rules (ts.map (Token.word raw))
    rw [wordsValue, List.mapM_map]
    rfl

/-- The words of a literal are an opening one, those inside and a closing one. -/
theorem string_of_words {opening closing : Word} {inner : List Word}
    (h : words raw = opening :: (inner ++ [closing]))
    (hopening : opening.kind = .stringLiteralStart)
    (hclosing : closing.kind = .stringLiteralEnd) (rules : StringRules) :
    string raw rules = wordsValue raw rules inner := by
  rw [words_eq_map, List.map_eq_cons_iff] at h
  obtain ⟨first, ts, hts, rfl, hmap⟩ := h
  obtain ⟨inside, rest, rfl, rfl, hrest⟩ := List.map_eq_append_iff.mp hmap
  obtain ⟨last, rfl, rfl⟩ := List.map_eq_singleton_iff.mp hrest
  rw [string_eq, innerTokens?_eq_some.mpr ⟨first, last, hts, hopening, hclosing⟩]

/-- What is not a literal with words inside is refused. -/
theorem string_cases (raw : String) :
    (∃ opening inner closing, words raw = opening :: (inner ++ [closing]) ∧
      opening.kind = .stringLiteralStart ∧ closing.kind = .stringLiteralEnd) ∨
    ∀ rules, string raw rules = .error (.incompleteString raw) := by
  cases hinner : innerTokens? (listedTokens raw false) with
  | none =>
    refine .inr fun rules => ?_
    rw [string_eq, hinner]
  | some ts =>
    obtain ⟨first, last, hts, hfirst, hlast⟩ := innerTokens?_eq_some.mp hinner
    refine .inl ⟨first.word raw, ts.map (Token.word raw), last.word raw, ?_, hfirst, hlast⟩
    rw [words_eq_map, hts, List.map_cons, List.map_append, List.map_singleton]

/-- The words between the delimiters of a text that could be a literal. -/
theorem exists_inner {v : String} (h : string raw rules = .ok v) :
    ∃ (d : Delimiter) (body : List Char) (inner : List Word) (closing : Word),
      raw.toList = d.char :: body ∧ closing.kind = .stringLiteralEnd ∧
      ReadAs d.mode.code body (inner ++ [closing]) ∧
      ∀ rules, string raw rules = wordsValue raw rules inner := by
  rcases string_cases raw with ⟨opening, inner, closing, hwords, hopening, hclosing⟩ | hnone
  · obtain ⟨d, body, hraw, hread⟩ := (words_eq.mp hwords).openingDelimiter hopening
    exact ⟨d, body, inner, closing, hraw, hclosing, hread,
      string_of_words hwords hopening hclosing⟩
  · rw [hnone] at h
    cases h

/-! ## Literals without references -/

/-- A word inside a literal is written as its value with the delimiters doubled. -/
theorem Inside.piece_xpath {d : Delimiter} {w : Word} {rest : List Char} (h : Inside d w rest)
    (raw : String) :
    ∃ x : String, piece raw .xpath w.kind w.text = .ok x ∧
      d.doubled x.toList = w.text.toList := by
  cases h with
  | escaped hkind htext =>
    refine ⟨String.ofList (w.text.toList.take 1), by rw [hkind]; rfl, ?_⟩
    simp [htext]
  | reference htext hdelimiter hstep =>
    refine ⟨w.text, ?_, Delimiter.doubled_eq_self hdelimiter⟩
    have hkind := congrArg Step.kind hstep
    rcases reference_kind hkind with hk | hk | hk | hk
    all_goals rw [hk]; rfl
  | contents hkind _ hplain =>
    refine ⟨w.text, by rw [hkind]; rfl, Delimiter.doubled_eq_self fun hmem => ?_⟩
    exact (hplain _ hmem).1 rfl

theorem Inside.kind_ne {d : Delimiter} {w : Word} {rest : List Char} (h : Inside d w rest) :
    w.kind ≠ .stringLiteralEnd := by
  intro hend
  obtain ⟨x, hx, -⟩ := h.piece_xpath ""
  rw [hend] at hx
  cases hx

theorem Closes.piece_error {d : Delimiter} {w : Word} {rest : List Char} (h : Closes d w rest) :
    piece raw rules w.kind w.text = .error (.incompleteString raw) := by
  rw [h.kind]
  cases rules <;> rfl

/-- Words that have values and a closing one behind them are a quoted text. -/
theorem eq_doubled_of_readAs {d : Delimiter} {body : List Char} {inner : List Word} {closing : Word}
    (h : ReadAs d.mode.code body (inner ++ [closing]))
    (hclosing : closing.kind = .stringLiteralEnd) {v : String}
    (hv : wordsValue raw .xpath inner = .ok v) : body = d.doubled v.toList ++ [d.char] := by
  induction inner generalizing body v with
  | nil =>
    obtain ⟨rest, rfl, ⟨hinside, _⟩ | ⟨hcloses, hrest⟩⟩ := readAs_mode h
    · exact absurd hclosing hinside.kind_ne
    · cases hrest
      cases hv
      rw [hcloses.text]
      rfl
  | cons w inner ih =>
    obtain ⟨x, y, hx, hy, rfl⟩ := wordsValue_cons_eq_ok.mp hv
    obtain ⟨rest, rfl, ⟨hinside, hrest⟩ | ⟨hcloses, _⟩⟩ := readAs_mode h
    · obtain ⟨x', hx', hdoubled⟩ := hinside.piece_xpath raw
      cases hx.symm.trans hx'
      rw [ih hrest hy, String.toList_append, d.doubled_append, hdoubled, List.append_assoc]
    · rw [hcloses.piece_error] at hx
      cases hx

/-- A quoted text is read as words that have its value and a closing one. -/
theorem exists_inner_of_doubled {d : Delimiter} {cs : List Char} {ws : List Word}
    (h : ReadAs d.mode.code (d.doubled cs ++ [d.char]) ws) (raw : String) :
    ∃ inner closing, ws = inner ++ [closing] ∧ closing.kind = .stringLiteralEnd ∧
      wordsValue raw .xpath inner = .ok (String.ofList cs) := by
  induction ws generalizing cs with
  | nil =>
    generalize htext : d.doubled cs ++ [d.char] = text at h
    cases h
    simp at htext
  | cons w ws ih =>
    obtain ⟨rest, hcs, ⟨hinside, hrest⟩ | ⟨hcloses, hrest⟩⟩ := readAs_mode h
    · obtain ⟨x, hx, hdoubled⟩ := hinside.piece_xpath raw
      rw [← hdoubled] at hcs
      obtain ⟨behind, rfl, rfl⟩ := Delimiter.doubled_cancel hcs.symm
      obtain ⟨inner, closing, rfl, hclosing, hvalue⟩ := ih hrest
      refine ⟨w :: inner, closing, rfl, hclosing, ?_⟩
      refine wordsValue_cons_eq_ok.mpr ⟨x, _, hx, hvalue, ?_⟩
      rw [String.ofList_append, String.ofList_toList]
    · rw [hcloses.text] at hcs
      obtain ⟨rfl, rfl⟩ := Delimiter.eq_nil_of_single hcs hcloses.single
      cases ws with
      | nil => exact ⟨[], w, rfl, hcloses.kind, rfl⟩
      | cons => exact absurd rfl hrest.ne_nil

/-- The words of a text that starts with a delimiter. -/
theorem words_opening {d : Delimiter} {body : List Char} (h : raw.toList = d.char :: body) :
    ∃ opening ws, words raw = opening :: ws ∧ opening.kind = .stringLiteralStart ∧
      ReadAs d.mode.code body ws := by
  have hread := readAs_words raw
  rw [h] at hread
  have hstep : scan .plain ((d.char :: body).map Char.toNat) = _ := plain_opening d body
  cases hwords : words raw with
  | nil =>
    rw [hwords] at hread
    cases hread
  | cons opening ws =>
    rw [hwords] at hread
    obtain ⟨_, _, hkind, _⟩ := readAs_cons.mp hread
    obtain ⟨-, hbody⟩ := hread.first [d.char] rfl hstep rfl
    rw [hstep] at hkind
    exact ⟨opening, ws, rfl, (Option.some.inj hkind).symm, hbody⟩

theorem string_xpath_eq_ok {raw v : String} :
    string raw .xpath = .ok v ↔ ∃ d : Delimiter, raw = d.quoted v := by
  constructor
  · intro h
    obtain ⟨d, body, inner, closing, hraw, hclosing, hread, hstring⟩ := exists_inner h
    rw [hstring] at h
    refine ⟨d, ?_⟩
    rw [← String.toList_inj, d.toList_quoted, hraw, eq_doubled_of_readAs hread hclosing h]
  · rintro ⟨d, rfl⟩
    obtain ⟨opening, ws, hwords, hopening, hbody⟩ := words_opening (d.toList_quoted v)
    obtain ⟨inner, closing, rfl, hclosing, hvalue⟩ := exists_inner_of_doubled hbody (d.quoted v)
    rw [string_of_words hwords hopening hclosing, hvalue, String.ofList_toList]

theorem piece_xpath_error {k : Kind} {text : String} {fault : Fault}
    (h : piece raw .xpath k text = .error fault) : fault = .incompleteString raw := by
  cases k
  all_goals first | (cases h; rfl) | cases h

/-- Without references exactly the texts between delimiters that are doubled inside are literals,
each with the text that it quotes as its value. Everything else is malformed. -/
theorem string_eq_ok_iff_quoted (raw : String) :
    (∀ v, string raw .xpath = .ok v ↔ ∃ d : Delimiter, raw = d.quoted v) ∧
      ((∀ (d : Delimiter) (v : String), raw ≠ d.quoted v) →
        Raises (string raw .xpath) .malformed) := by
  refine ⟨fun _ => string_xpath_eq_ok, fun hnone => ?_⟩
  cases hstring : string raw .xpath with
  | ok v =>
    obtain ⟨d, rfl⟩ := string_xpath_eq_ok.mp hstring
    exact absurd rfl (hnone d v)
  | error fault =>
    refine ⟨fault, rfl, ?_⟩
    rcases string_cases raw with ⟨opening, inner, closing, hwords, hopening, hclosing⟩ | hrefused
    · rw [string_of_words hwords hopening hclosing] at hstring
      obtain ⟨_, w, _, _, _, _, hpiece⟩ := exists_of_wordsValue_error hstring
      rw [piece_xpath_error hpiece]
      rfl
    · rw [hrefused] at hstring
      cases hstring
      rfl

/-- A reference is kept and does not hide the doubled delimiter behind it, and the other delimiter
does not close the literal. -/
theorem string_eq_ok_iff_quoted_mixed :
    string "'&''𝄞\"'" .xpath = .ok "&'𝄞\"" ∧ Raises (string "'&''𝄞\"" .xpath) .malformed := by
  refine ⟨((string_eq_ok_iff_quoted _).1 _).mpr ⟨.apostrophe, by decide +kernel⟩,
    (string_eq_ok_iff_quoted _).2 ?_⟩
  intro d v h
  have hchars := congrArg String.toList h
  rw [d.toList_quoted] at hchars
  have hlast := congrArg List.getLast? hchars
  rw [← List.cons_append, List.getLast?_concat] at hlast
  cases d with
  | quote => cases (List.cons.inj hchars).1
  | apostrophe => cases hlast

end Literal

end XQuery
