import XQuery.Proofs.Lexer.Segments
import XQuery.Proofs.Lexer.Words
import XQuery.Proofs.Name.RoundTrip

/-!
# Names and their tokens

Names are read twice: the lexer cuts a text into tokens, and `QName.parse` cuts
it at its colon or at its closing brace. The lexer takes a name as long as
possible, gives `Q` up to a braced URI only in front of an opening brace, and
lets no reference in the URI run over the closing brace. The two agree on which
texts are names and on the parts of each (`QName.parse_iff_spelled`), and the
table of reserved words, which is searched by halving, is complete.
-/

namespace XQuery

/-- The kinds of the tokens that are names. -/
def Kind.isName : Kind → Bool
  | ncName | keyword _ => true
  | _ => false

/-- The texts of words put together. -/
def joined (ws : List Word) : String := String.join (ws.map Word.text)

theorem toList_joined (ws : List Word) :
    (joined ws).toList = ws.flatMap fun w => w.text.toList := by
  rw [joined, String.toList_join, List.flatMap_map]

namespace Expression

/-! ## Names -/

theorem isName_nameKind (cs : List CodePoint) : (nameKind cs).isName := by
  unfold nameKind
  split
  · rfl
  · rfl

/-- The kinds of the tokens that a name starts with or is joined by. -/
def isNamePart (k : Kind) : Bool :=
  k.isName || k == .qnameSeparator || k == .bracedUriLiteralStart

theorem starts_of_isNamePart {k : Kind} (hk : isNamePart k) {c : CodePoint}
    {cs : List CodePoint} (h : (plain (c :: cs)).kind = some k) :
    (CharClass.of c = .nameStartChar ∧ plain (c :: cs) = name c cs) ∨
      (CharClass.of c = .colon ∧ plain (c :: cs) = operator .qnameSeparator
        [(':', .axisSeparator), ('=', .assign), (')', .commentEndTag)] cs) := by
  simp only [plain] at h ⊢
  cases hc : CharClass.of c with
  | nameStartChar => exact .inl ⟨rfl, rfl⟩
  | colon => exact .inr ⟨rfl, rfl⟩
  | dot =>
    rw [hc] at h
    rcases dot_kinds h with rfl | rfl | rfl | rfl | rfl <;> cases hk
  | digit =>
    rw [hc] at h
    rcases number_kinds h with rfl | rfl | rfl | rfl <;> cases hk
  | parenthesisOpen =>
    rw [hc] at h
    rcases parenthesis_kinds h with rfl | rfl | rfl <;> cases hk
  | hash | exclamationMark | equal | lessThan | greaterThan | verticalBar | forwardSlash =>
    rw [hc] at h
    exact absurd hk (operator_kind (P := fun k => ¬isNamePart k) (by decide) (by decide) h)
  | endOfBuffer => rw [hc] at h; cases h
  | _ =>
    rw [hc] at h
    cases h
    cases hk

/-- What starts like a name is a name as long as possible, if it is not `Q` in front of a brace. -/
theorem name_run (c : Char) {run rest : List Char} (hrun : ∀ d ∈ run, isNameChar d = true)
    (hrest : ∀ d ∈ rest.head?, isNameChar d = false) :
    name c.toNat ((run ++ rest).map Char.toNat)
      = if c = 'Q' ∧ (run ++ rest).head? = some '\x7b' then
          (Step.token .bracedUriLiteralStart 2).moving (.push Mode.bracedUri.code)
        else .token (nameKind ((c :: run).map Char.toNat)) (c :: run).length := by
  have hlength : nameChars ((run ++ rest).map Char.toNat) = run.length := count_run hrun hrest
  have htake : ((run ++ rest).map Char.toNat).take run.length = run.map Char.toNat := by
    rw [List.map_append, List.take_left' (List.length_map _)]
  simp only [name, next_map, toNat_beq, Bool.and_eq_true, beq_iff_eq, hlength, htake,
    List.map_cons, List.length_cons, Nat.add_comm 1]

theorem plain_name {name rest : List Char} (hname : isNCName name = true)
    (hrest : ∀ c ∈ rest.head?, isNameChar c = false)
    (hbrace : name = ['Q'] → rest.head? ≠ some '\x7b') :
    plain ((name ++ rest).map Char.toNat)
      = .token (nameKind (name.map Char.toNat)) name.length := by
  cases name with
  | nil => cases hname
  | cons c run =>
    simp only [isNCName, isNameStartChar, CharClass.isNameStart, Bool.and_eq_true, beq_iff_eq,
      List.all_eq_true] at hname
    -- a brace would be the first character of the name's rest, or stand behind the name `Q`
    have hnot : ¬(c = 'Q' ∧ (run ++ rest).head? = some '\x7b') := by
      rintro ⟨rfl, hhead⟩
      cases run with
      | nil => exact hbrace rfl hhead
      | cons d run =>
        cases hhead
        have hd := hname.2 _ List.mem_cons_self
        revert hd
        decide
    rw [List.cons_append, List.map_cons, plain, hname.1]
    exact (name_run c hname.2 hrest).trans (if_neg hnot)

/-- A token that is a name covers a name. -/
theorem exists_name {k : Kind} (hk : k.isName) {cs : List Char}
    (h : (plain (cs.map Char.toNat)).kind = some k) :
    ∃ name rest, cs = name ++ rest ∧ isNCName name = true ∧
      plain (cs.map Char.toNat) = .token (nameKind (name.map Char.toNat)) name.length := by
  cases cs with
  | nil => cases h
  | cons c cs =>
    rw [List.map_cons] at h ⊢
    rcases starts_of_isNamePart (by simp [isNamePart, hk]) h with ⟨hc, hplain⟩ | ⟨_, hplain⟩
    · obtain ⟨run, rest, rfl, hrun, hrest⟩ := Text.exists_run isNameChar cs
      rw [hplain, name_run c hrun hrest] at h ⊢
      split at h
      · cases h
        cases hk
      · next hnot =>
          refine ⟨c :: run, rest, rfl, ?_, if_neg hnot⟩
          simpa [isNCName, isNameStartChar, CharClass.isNameStart, hc] using hrun
    · rw [hplain] at h
      exact absurd hk (operator_kind (P := fun k => ¬k.isName) (by decide) (by decide) h)

/-- Where a name could start and none is read, a braced URI starts. -/
theorem braced_of_not_isName {k : Kind} (hk : ¬k.isName) {c : Char} {cs : List Char}
    (h : (name c.toNat (cs.map Char.toNat)).kind = some k) :
    k = .bracedUriLiteralStart ∧ c = 'Q' ∧ cs.head? = some '\x7b' := by
  unfold name at h
  split at h
  · next hbrace =>
      cases h
      simpa only [next_map, toNat_beq, Bool.and_eq_true, beq_iff_eq, true_and] using hbrace
  · cases h
    exact absurd (isName_nameKind _) hk

theorem plain_separator {name : List Char} (hname : isNCName name = true) :
    plain ((':' :: name).map Char.toNat) = .token .qnameSeparator 1 := by
  have hnext : ∀ ch : Char, isNameChar ch = false → next ch (name.map Char.toNat) = false := by
    intro ch hch
    rw [next_map, beq_eq_false_iff_ne]
    intro hhead
    exact QName.not_mem_of_isNCName hname hch (List.mem_of_head? hhead)
  have hcolon : CharClass.of ':'.toNat = .colon := by decide
  simp only [List.map_cons, plain, hcolon, operator, List.find?_cons, hnext ':' (by decide),
    hnext '=' (by decide), hnext ')' (by decide), List.find?_nil]

theorem exists_separator {cs : List Char}
    (h : (plain (cs.map Char.toNat)).kind = some .qnameSeparator) :
    ∃ rest, cs = ':' :: rest ∧ plain (cs.map Char.toNat) = .token .qnameSeparator 1 := by
  cases cs with
  | nil => cases h
  | cons c cs =>
    rw [List.map_cons] at h ⊢
    rcases starts_of_isNamePart rfl h with ⟨_, hplain⟩ | ⟨hc, hplain⟩
    · rw [hplain] at h
      cases (braced_of_not_isName (by decide) h).1
    · rw [hplain] at h ⊢
      refine ⟨cs, by rw [eq_of_class ':' hc (by decide) (by decide)], ?_⟩
      unfold operator at h ⊢
      split at h
      · next hfind =>
          have hmem := List.mem_of_find?_eq_some hfind
          cases h
          simp at hmem
      · rfl

/-- The word of a name. -/
def nameWord (name : String) : Word := ⟨nameKind (name.toList.map Char.toNat), name⟩

theorem isName_nameWord (name : String) : (nameWord name).kind.isName := isName_nameKind _

theorem readAs_name {name : String} (hname : isNCName name.toList = true) {rest : List Char}
    (hrest : ∀ c ∈ rest.head?, isNameChar c = false ∧ c ≠ '\x7b') {ws : List Word}
    (h : ReadAs Mode.plain.code rest ws) :
    ReadAs Mode.plain.code (name.toList ++ rest) (nameWord name :: ws) := by
  have hplain : scan .plain ((name.toList ++ rest).map Char.toNat)
      = .token (nameWord name).kind name.toList.length := by
    refine plain_name hname (fun c hc => (hrest c hc).1) ?_
    intro _ hbrace
    exact (hrest _ hbrace).2 rfl
  refine readAs_cons.mpr ⟨rest, rfl, ?_, ?_, ?_⟩
  · rw [hplain, Step.token_kind]
  · rw [hplain, Step.token_length]
    rfl
  · rw [hplain]
    exact h

/-- The text of a word that is a name is a name. -/
theorem ReadAs.name {cs : List Char} {w : Word} (hw : w.kind.isName) {ws : List Word}
    (h : ReadAs Mode.plain.code cs (w :: ws)) :
    isNCName w.text.toList = true ∧
      ∃ rest, cs = w.text.toList ++ rest ∧ ReadAs Mode.plain.code rest ws := by
  obtain ⟨_, _, hkind, _⟩ := readAs_cons.mp h
  obtain ⟨name, rest, hcs, hname, hplain⟩ := exists_name hw hkind
  obtain ⟨htext, hrest⟩ := h.first name hcs hplain rfl
  rw [htext]
  exact ⟨hname, rest, hcs, hrest⟩

theorem ReadAs.separator {cs : List Char} {separator : Word}
    (hseparator : separator.kind = .qnameSeparator) {ws : List Word}
    (h : ReadAs Mode.plain.code cs (separator :: ws)) :
    ∃ rest, cs = ':' :: rest ∧ ReadAs Mode.plain.code rest ws := by
  obtain ⟨_, _, hkind, _⟩ := readAs_cons.mp h
  rw [hseparator] at hkind
  obtain ⟨rest, hcs, hplain⟩ := exists_separator hkind
  obtain ⟨-, hrest⟩ := h.first [':'] hcs hplain rfl
  exact ⟨rest, hcs, hrest⟩

/-- A name is one word. -/
theorem words_name {name : String} (hname : isNCName name.toList = true) :
    words name = [nameWord name] := by
  rw [words_eq, ← List.append_nil name.toList]
  exact readAs_name hname (by simp) (.nil _)

/-- The colon in front of a name is a word of its own. -/
theorem readAs_separator {name : String} (hname : isNCName name.toList = true) :
    ReadAs Mode.plain.code (':' :: name.toList) [⟨.qnameSeparator, ":"⟩, nameWord name] := by
  have hplain : scan .plain ((':' :: name.toList).map Char.toNat)
      = .token .qnameSeparator 1 := plain_separator hname
  refine readAs_cons.mpr ⟨name.toList, rfl, ?_, ?_, ?_⟩
  · rw [hplain, Step.token_kind]
  · rw [hplain, Step.token_length]
    rfl
  · rw [hplain]
    exact words_eq.mp (words_name hname)

/-- A text is a name exactly if it is one word and the word is a name. -/
theorem isNCName_iff_kinds (s : String) :
    isNCName s.toList = true ↔ ∃ k, k.isName ∧ kinds s = [k] := by
  constructor
  · intro hname
    refine ⟨(nameWord s).kind, isName_nameWord s, ?_⟩
    rw [kinds_eq, words_name hname, List.map_singleton]
  · rintro ⟨k, hk, hkinds⟩
    rw [kinds_eq, List.map_eq_singleton_iff] at hkinds
    obtain ⟨w, hwords, rfl⟩ := hkinds
    obtain ⟨hname, rest, hcs, hrest⟩ := (words_eq.mp hwords).name hk
    cases hrest
    rw [hcs, List.append_nil]
    exact hname

/-! ## Braced URIs -/

theorem plain_braced (rest : List Char) :
    plain (('Q' :: '\x7b' :: rest).map Char.toNat)
      = (Step.token .bracedUriLiteralStart 2).moving (.push Mode.bracedUri.code) := rfl

theorem exists_braced {cs : List Char}
    (h : (plain (cs.map Char.toNat)).kind = some .bracedUriLiteralStart) :
    ∃ rest, cs = 'Q' :: '\x7b' :: rest := by
  cases cs with
  | nil => cases h
  | cons c cs =>
    rw [List.map_cons] at h
    rcases starts_of_isNamePart rfl h with ⟨_, hplain⟩ | ⟨_, hplain⟩
    · rw [hplain] at h
      obtain ⟨-, rfl, hhead⟩ := braced_of_not_isName (by decide) h
      obtain ⟨rest, rfl⟩ := List.head?_eq_some_iff.mp hhead
      exact ⟨rest, rfl⟩
    · rw [hplain] at h
      exact absurd rfl (operator_kind (P := fun k => k ≠ .bracedUriLiteralStart)
        (by decide) (by decide) h)

theorem not_mem_take_takeWhile {p : CodePoint → Bool} {q : CodePoint} (hp : p q = false)
    (cs : List CodePoint) : q ∉ cs.take (cs.takeWhile p).length := by
  rw [← List.prefix_iff_eq_take.mp (List.takeWhile_prefix p)]
  intro hq
  rw [List.all_eq_true.mp List.all_takeWhile q hq] at hp
  cases hp

/-- A character that does not belong to a reference is not in it. -/
theorem not_mem_closeReference {p : CodePoint → Bool} {q : CodePoint} (hp : p q = false)
    (hq : q ≠ ';'.toNat) (closed : Kind) {head : List CodePoint} (hhead : q ∉ head)
    (tail : List CodePoint) :
    q ∉ (head ++ tail).take (closeReference closed (head.length + (tail.takeWhile p).length)
      (tail.drop (tail.takeWhile p).length)).length := by
  have hrun := not_mem_take_takeWhile hp tail
  generalize (tail.takeWhile p).length = n at hrun
  unfold closeReference
  split
  · next hnext =>
      obtain ⟨rest, hrest⟩ : ∃ rest, tail.drop n = ';'.toNat :: rest := by
        cases hdrop : tail.drop n with
        | nil => rw [hdrop] at hnext; cases hnext
        | cons c rest => rw [hdrop] at hnext; exact ⟨rest, by rw [beq_iff_eq.mp hnext]⟩
      rw [Step.token_length, Nat.add_assoc, List.take_length_add_append, List.take_add, hrest,
        List.take_one, List.head?_cons]
      simp only [List.mem_append, Option.toList_some, List.mem_singleton, not_or]
      exact ⟨hhead, hrun, hq⟩
  · rw [Step.token_length, List.take_length_add_append]
    simp only [List.mem_append, not_or]
    exact ⟨hhead, hrun⟩

theorem ne_of_class {q c : CodePoint} {k : CharClass} (h : CharClass.of c = k)
    (hk : CharClass.of q ≠ k) : q ≠ c := by
  rintro rfl
  exact hk h

/-- A reference is read up to a character at most that continues no name and is no mark of a
reference. -/
theorem not_mem_reference {q : CodePoint} (hname : (CharClass.of q).isName = false)
    (hhex : isHexDigit q = false) (hmark : CharClass.of q ∉ [.ampersand, .hash, .semicolon])
    (cs : List CodePoint) : q ∉ ('&'.toNat :: cs).take (reference cs).length := by
  have hnot : ∀ {k : CharClass}, k ∈ [.ampersand, .hash, .semicolon] ∨ k.isName = true →
      CharClass.of q ≠ k := by
    rintro k hk rfl
    rcases hk with hk | hk
    · exact hmark hk
    · rw [hname] at hk
      cases hk
  have hamp : q ≠ '&'.toNat := ne_of_class (by decide) (hnot (k := .ampersand) (by decide))
  have hsemicolon : q ≠ ';'.toNat :=
    ne_of_class (by decide) (hnot (k := .semicolon) (by decide))
  have hpair : ∀ {c : CodePoint}, q ≠ c → q ∉ ['&'.toNat, c] := by
    intro c hc
    simp only [List.mem_cons, List.not_mem_nil, or_false, not_or]
    exact ⟨hamp, hc⟩
  unfold reference
  split
  · simpa using hamp
  · next c cs =>
      split
      · next hc =>
          exact not_mem_closeReference (p := fun c => CharClass.isName (CharClass.of c))
            hname hsemicolon _ (hpair (ne_of_class hc (hnot (by decide)))) cs
      · next hc =>
          have hhash := ne_of_class hc (hnot (by decide))
          split
          · next hx =>
              cases cs with
              | nil => cases hx
              | cons x cs =>
                have hhead : q ∉ ['&'.toNat, c] ++ [x] := by
                  rw [List.mem_append, not_or, beq_iff_eq.mp hx, List.mem_singleton]
                  exact ⟨hpair hhash, ne_of_class (by decide) (hnot (k := .nameStartChar)
                    (by decide))⟩
                exact not_mem_closeReference (p := isHexDigit) hhex hsemicolon _ hhead cs
          · exact not_mem_closeReference (p := fun c => CharClass.of c == .digit)
              (beq_eq_false_iff_ne.mpr (hnot (by decide))) hsemicolon _ (hpair hhash) cs
      · next hc => exact hpair (ne_of_class hc (hnot (by decide)))
      · exact (by simpa using hamp : q ∉ ['&'.toNat])

/-- Only the closing token of a braced URI has a closing brace in it. -/
theorem brace_not_mem_bracedUri {k : Kind} (hk : k ≠ .bracedUriLiteralEnd) {cs : List CodePoint}
    (h : (bracedUri cs).kind = some k) : '\x7d'.toNat ∉ cs.take (bracedUri cs).length := by
  cases cs with
  | nil => cases h
  | cons c cs =>
    rcases bracedUri_cases c cs with ⟨_, heq⟩ | ⟨hamp, heq⟩ | ⟨hbrace, _, heq⟩
    · rw [heq] at h
      cases h
      exact absurd rfl hk
    · rw [heq, hamp]
      exact not_mem_reference (by decide) (by decide) (by decide) cs
    · rw [heq, Step.token_length, contents, Nat.add_comm, List.take_succ_cons]
      have hrun := not_mem_take_takeWhile
        (p := fun c => c != '\x7d'.toNat && c != '&'.toNat) (q := '\x7d'.toNat) (by decide) cs
      simp only [List.mem_cons, not_or]
      exact ⟨Ne.symm hbrace, hrun⟩

theorem bracedUri_stays {k : Kind} (hk : k ≠ .bracedUriLiteralEnd) {cs : List CodePoint}
    (h : (bracedUri cs).kind = some k) :
    (bracedUri cs).move.next Mode.bracedUri.code = Mode.bracedUri.code := by
  cases cs with
  | nil => cases h
  | cons c cs => rw [bracedUri_next h, if_neg hk]

theorem exists_closing {cs : List Char}
    (h : (bracedUri (cs.map Char.toNat)).kind = some .bracedUriLiteralEnd) :
    ∃ rest, cs = '\x7d' :: rest ∧ bracedUri (cs.map Char.toNat)
      = (Step.token .bracedUriLiteralEnd 1).moving .pop := by
  cases cs with
  | nil => cases h
  | cons c cs =>
    rw [List.map_cons] at h ⊢
    rcases bracedUri_cases c.toNat (cs.map Char.toNat) with ⟨hc, heq⟩ | ⟨_, heq⟩ | ⟨_, _, heq⟩
    · exact ⟨cs, by rw [Char.toNat_inj.mp hc], heq⟩
    · rw [heq] at h
      rcases reference_kind h with hk | hk | hk | hk <;> cases hk
    · rw [heq] at h
      cases h

theorem ReadAs.opening {cs : List Char} {opening : Word}
    (hopening : opening.kind = .bracedUriLiteralStart) {ws : List Word}
    (h : ReadAs Mode.plain.code cs (opening :: ws)) :
    ∃ rest, cs = 'Q' :: '\x7b' :: rest ∧ ReadAs Mode.bracedUri.code rest ws := by
  obtain ⟨_, _, hkind, _⟩ := readAs_cons.mp h
  rw [hopening] at hkind
  obtain ⟨rest, rfl⟩ := exists_braced hkind
  obtain ⟨-, hrest⟩ := h.first ['Q', '\x7b'] rfl (plain_braced rest) rfl
  exact ⟨rest, rfl, hrest⟩

/-- The text of the words up to the closing token is all there is in front of the first closing
brace. -/
theorem ReadAs.closed {cs : List Char} {inner : List Word} {closing : Word} {ws : List Word}
    (h : ReadAs Mode.bracedUri.code cs (inner ++ closing :: ws))
    (hinner : ∀ w ∈ inner, w.kind ≠ .bracedUriLiteralEnd)
    (hclosing : closing.kind = .bracedUriLiteralEnd) :
    ∃ rest, cs = (joined inner).toList ++ '\x7d' :: rest ∧ '\x7d' ∉ (joined inner).toList ∧
      ReadAs Mode.plain.code rest ws := by
  induction inner generalizing cs with
  | nil =>
    obtain ⟨_, _, hkind, _⟩ := readAs_cons.mp h
    rw [hclosing] at hkind
    obtain ⟨rest, hcs, hstep⟩ := exists_closing hkind
    obtain ⟨-, hrest⟩ := h.first ['\x7d'] hcs hstep rfl
    exact ⟨rest, hcs, by simp [toList_joined], hrest⟩
  | cons w inner ih =>
    obtain ⟨hw, hinner⟩ := List.forall_mem_cons.mp hinner
    obtain ⟨rest, rfl, hkind, hlength, hrest⟩ := readAs_cons.mp h
    rw [show scan .bracedUri _ = bracedUri _ from rfl] at hkind hlength hrest
    rw [bracedUri_stays hw hkind] at hrest
    obtain ⟨rest, rfl, hbrace, hrest⟩ := ih hrest hinner
    have hfirst := brace_not_mem_bracedUri hw hkind
    rw [hlength, ← List.map_take, List.take_left] at hfirst
    refine ⟨rest, by simp [toList_joined], ?_, hrest⟩
    rw [toList_joined] at hbrace ⊢
    rw [List.flatMap_cons, List.mem_append, not_or]
    exact ⟨fun hmem => hfirst (List.mem_map_of_mem hmem), hbrace⟩

theorem bracedUri_piece {k : Kind} {cs : List CodePoint} (h : (bracedUri cs).kind = some k)
    (hk : k ≠ .bracedUriLiteralEnd) : k = .stringLiteralContents ∨ k.isReference := by
  rcases bracedUri_yields (bracedUri_kind h) hk with hk | hk | ⟨hk, _⟩
  · exact .inl hk
  · exact .inr hk
  · cases hk

/-- The first token of a braced URI that goes on: text or a reference in front of the brace. -/
theorem exists_piece {c : Char} {uri rest : List Char} (huri : '\x7d' ∉ c :: uri) :
    ∃ k, (bracedUri ((c :: uri ++ '\x7d' :: rest).map Char.toNat)).kind = some k ∧
      k ≠ .bracedUriLiteralEnd ∧
      0 < (bracedUri ((c :: uri ++ '\x7d' :: rest).map Char.toNat)).length ∧
      (bracedUri ((c :: uri ++ '\x7d' :: rest).map Char.toNat)).length ≤ (c :: uri).length := by
  have htakes := bracedUri_takes c.toNat ((uri ++ '\x7d' :: rest).map Char.toNat)
  obtain ⟨k, hkind⟩ := Option.isSome_iff_exists.mp htakes.isSome
  have hk : k ≠ .bracedUriLiteralEnd := by
    rintro rfl
    rw [← List.map_cons] at hkind
    obtain ⟨_, hcs, _⟩ := exists_closing hkind
    cases hcs
    exact huri List.mem_cons_self
  refine ⟨k, hkind, hk, htakes.length_pos, ?_⟩
  -- a longer token would have the brace in it
  refine Nat.le_of_not_lt fun hlong => brace_not_mem_bracedUri hk hkind ?_
  obtain ⟨m, hm⟩ := Nat.exists_eq_add_of_lt hlong
  show _ ∈ ((c :: uri ++ '\x7d' :: rest).map Char.toNat).take
    (bracedUri ((c :: uri ++ '\x7d' :: rest).map Char.toNat)).length
  rw [hm, Nat.add_assoc, ← List.map_take, List.take_length_add_append, List.take_succ_cons]
  exact List.mem_map_of_mem (by simp)

/-- The text in front of the first closing brace is read as text and references. -/
theorem exists_readAs_closed {uri rest : List Char} (huri : '\x7d' ∉ uri) {ws : List Word}
    (h : ReadAs Mode.plain.code rest ws) :
    ∃ inner, (∀ w ∈ inner, w.kind = .stringLiteralContents ∨ w.kind.isReference) ∧
      (joined inner).toList = uri ∧ ReadAs Mode.bracedUri.code (uri ++ '\x7d' :: rest)
        (inner ++ ⟨.bracedUriLiteralEnd, "\x7d"⟩ :: ws) := by
  -- a token may be any beginning of the text, so that the induction is on the length
  generalize hn : uri.length = n
  induction n using Nat.strongRecOn generalizing uri with
  | ind n ih =>
    subst hn
    cases uri with
    | nil =>
      refine ⟨[], nofun, rfl, readAs_cons.mpr ⟨rest, rfl, rfl, rfl, ?_⟩⟩
      exact h
    | cons c uri =>
      obtain ⟨k, hkind, hk, hpos, hle⟩ := @exists_piece c uri rest huri
      generalize hlength : (bracedUri ((c :: uri ++ '\x7d' :: rest).map Char.toNat)).length = n
        at hpos hle
      have hstays := bracedUri_stays hk hkind
      have hshorter : ((c :: uri).drop n).length < (c :: uri).length := by
        rw [List.length_drop]
        omega
      obtain ⟨inner, hinner, hjoined, hread⟩ :=
        ih _ hshorter (fun hmem => huri (List.mem_of_mem_drop hmem)) rfl
      refine ⟨⟨k, String.ofList ((c :: uri).take n)⟩ :: inner, ?_, ?_, ?_⟩
      · exact List.forall_mem_cons.mpr ⟨bracedUri_piece hkind hk, hinner⟩
      · rw [toList_joined] at hjoined ⊢
        rw [List.flatMap_cons, hjoined, String.toList_ofList, List.take_append_drop]
      · refine readAs_cons.mpr ⟨(c :: uri).drop n ++ '\x7d' :: rest, ?_, hkind, ?_, ?_⟩
        · rw [String.toList_ofList, ← List.append_assoc, List.take_append_drop]
        · rw [String.toList_ofList, List.length_take, Nat.min_eq_left hle]
          exact hlength
        · rw [show (scan .bracedUri _).move.next _ = _ from hstays]
          exact hread

end Expression

/-! ## Reserved words -/

theorem reservedWords_sorted : reservedWords.Pairwise (· < ·) := by decide +kernel

namespace Keyword

/-- Binary search in order finds a word that is there. -/
theorem getElem?_search {words : List String} (hsorted : words.Pairwise (· < ·)) {s : String}
    {base size i : Nat} (hsize : base + size ≤ words.length) (hle : base ≤ i)
    (hlt : i < base + size) (hi : words[i]? = some s) :
    words[search words s base size]? = some s := by
  have horder := List.pairwise_iff_getElem.mp hsorted
  obtain ⟨hilt, hs⟩ := List.getElem?_eq_some_iff.mp hi
  fun_induction search words s base size with
  | case1 base size hone => rw [show base = i by omega, hi]
  | case2 base size hone half hbefore ih =>
    have hmiddle : base + half < words.length := by omega
    rw [List.getD_eq_getElem?_getD, List.getElem?_eq_getElem hmiddle, Option.getD_some] at hbefore
    have him : i < base + half := by
      refine Nat.lt_of_not_le fun hmi => ?_
      rcases Nat.eq_or_lt_of_le hmi with rfl | hmi
      · exact String.lt_irrefl s (hs ▸ hbefore)
      · exact String.lt_irrefl s (String.lt_trans hbefore (hs ▸ horder _ _ hmiddle hilt hmi))
    exact ih (by omega) hle (by omega)
  | case3 base size hone half hbefore ih =>
    have hmiddle : base + half < words.length := by omega
    rw [List.getD_eq_getElem?_getD, List.getElem?_eq_getElem hmiddle, Option.getD_some] at hbefore
    have hmi : base + half ≤ i := by
      refine Nat.le_of_not_lt fun him => hbefore ?_
      exact hs ▸ horder _ _ hilt hmiddle him
    exact ih (by omega) hmi (by omega)

/-- A word is a keyword exactly if it is spelled like one. -/
theorem ofWord?_eq_some {s : String} {k : Keyword} : ofWord? s = some k ↔ k.word = s := by
  simp only [ofWord?]
  constructor
  · intro h
    split at h
    · cases h
      rfl
    · cases h
  · rintro rfl
    obtain ⟨i, hi, hword⟩ := List.getElem_of_mem k.reserved
    have hfound : reservedWords[search reservedWords k.word 0 reservedWords.length]?
        = some k.word := by
      refine getElem?_search reservedWords_sorted (by omega) (Nat.zero_le i) (by omega) ?_
      exact List.getElem?_eq_some_iff.mpr ⟨hi, hword⟩
    rw [dif_pos hfound]

end Keyword

theorem isNCName_word : ∀ word ∈ reservedWords, isNCName word.toList = true := by decide +kernel

namespace Expression

theorem nameKind_eq_keyword {s : String} {k : Keyword} :
    nameKind (s.toList.map Char.toNat) = .keyword k ↔ k.word = s := by
  rw [← Keyword.ofWord?_eq_some, nameKind, Utf16.map_toChar_toNat, String.ofList_toList]
  cases Keyword.ofWord? s with
  | none => simp
  | some j => simp

/-- A text is a keyword exactly if it is spelled like one. -/
theorem kinds_eq_keyword {s : String} {k : Keyword} : kinds s = [.keyword k] ↔ k.word = s := by
  constructor
  · intro hkinds
    have hname := (isNCName_iff_kinds s).mpr ⟨.keyword k, rfl, hkinds⟩
    rw [kinds_eq, words_name hname] at hkinds
    exact nameKind_eq_keyword.mp (List.singleton_inj.mp hkinds)
  · rintro rfl
    rw [kinds_eq, words_name (isNCName_word _ k.reserved), List.map_singleton, nameWord,
      nameKind_eq_keyword.mpr rfl]

end Expression

/-! ## Qualified names -/

namespace QName

open Expression

/-- The words of the forms in which a name is written. Between the braces stand text and references
of any form, but no opening brace; without any text there is no namespace. -/
inductive Spelled : QName → List Word → Prop
  | plain {name : Word} : name.kind.isName → Spelled (.lexical none name.text) [name]
  | withPrefix {pre separator name : Word} : pre.kind.isName →
      separator.kind = .qnameSeparator → name.kind.isName →
      Spelled (.lexical (some pre.text) name.text) [pre, separator, name]
  | braced {opening closing name : Word} {inner : List Word} :
      opening.kind = .bracedUriLiteralStart →
      (∀ w ∈ inner, w.kind = .stringLiteralContents ∨ w.kind.isReference) →
      '\x7b' ∉ (joined inner).toList → closing.kind = .bracedUriLiteralEnd → name.kind.isName →
      Spelled (.inNamespace (some (joined inner)) none name.text)
        (opening :: (inner ++ [closing, name]))

theorem Written.spelled {n : QName} {s : String} (h : Written n s) : Spelled n (words s) := by
  cases h with
  | plain hname =>
    rw [words_name hname]
    exact .plain (isName_nameWord _)
  | @withPrefix pre name hpre hname =>
    have hwords : words (pre ++ ":" ++ name)
        = [nameWord pre, ⟨.qnameSeparator, ":"⟩, nameWord name] := by
      rw [words_eq, String.toList_append, String.toList_append, List.append_assoc]
      exact readAs_name hpre (by simp +decide) (readAs_separator hname)
    rw [hwords]
    exact .withPrefix (isName_nameWord pre) rfl (isName_nameWord name)
  | @braced uri name hopen hclose hname =>
    obtain ⟨inner, hinner, hjoined, hread⟩ :=
      exists_readAs_closed hclose (words_eq.mp (words_name hname))
    have hwords : words (ExpandedName.braced uri name)
        = ⟨.bracedUriLiteralStart, "Q\x7b"⟩ ::
          (inner ++ [⟨.bracedUriLiteralEnd, "\x7d"⟩, nameWord name]) := by
      rw [words_eq, toList_braced]
      exact readAs_cons.mpr ⟨_, rfl, rfl, rfl, hread⟩
    rw [← hjoined] at hopen
    rw [hwords, ← String.toList_inj.mp hjoined]
    exact .braced rfl hinner hopen rfl (isName_nameWord name)

theorem Spelled.written {n : QName} {s : String} (h : Spelled n (words s)) : Written n s := by
  have hread := readAs_words s
  generalize words s = ws at h hread
  cases h with
  | @plain name hname =>
    obtain ⟨hncname, rest, hs, hrest⟩ := hread.name hname
    cases hrest
    rw [List.append_nil, String.toList_inj] at hs
    rw [hs]
    exact .plain hncname
  | @withPrefix pre separator name hpre hseparator hname =>
    obtain ⟨hpre, _, hs, hbehind⟩ := hread.name hpre
    obtain ⟨_, rfl, hlast⟩ := hbehind.separator hseparator
    obtain ⟨hname, _, rfl, hrest⟩ := hlast.name hname
    cases hrest
    have hs : s = pre.text ++ ":" ++ name.text := by
      rw [← String.toList_inj, hs]
      simp
    rw [hs]
    exact .withPrefix hpre hname
  | @braced opening closing name inner hopening hinner hbrace hclosing hname =>
    obtain ⟨_, hs, hbehind⟩ := hread.opening hopening
    have hnot : ∀ w ∈ inner, w.kind ≠ .bracedUriLiteralEnd := by
      intro w hw hend
      rcases hinner w hw with hkind | hkind
      all_goals
        rw [hend] at hkind
        cases hkind
    obtain ⟨_, rfl, hclose, hlast⟩ := hbehind.closed hnot hclosing
    obtain ⟨hname, _, rfl, hrest⟩ := hlast.name hname
    cases hrest
    have hs : s = ExpandedName.braced (joined inner) name.text := by
      rw [← String.toList_inj, hs, toList_braced]
      simp
    rw [hs]
    exact .braced hbrace hclose hname

/-- The reader of names and the lexer agree. A text is a name without a colon exactly if it is one
token that is a name, which is a keyword exactly if it is spelled like one. It is read as a
qualified name exactly if its tokens have one of the three forms, with the prefix, the namespace
and the local name that they spell, and is refused otherwise. -/
theorem parse_iff_spelled (s : String) :
    (isNCName s.toList = true ↔ ∃ k, k.isName ∧ kinds s = [k]) ∧
      (∀ k : Keyword, kinds s = [.keyword k] ↔ k.word = s) ∧
      (∀ n, parse s = .ok n ↔ Spelled n (words s)) ∧
      ((∀ n, ¬Spelled n (words s)) →
        ∃ fault, parse s = .error fault ∧ fault.code.localName = "FOCA0002") := by
  have hspelled : ∀ n, parse s = .ok n ↔ Spelled n (words s) := fun n =>
    parse_eq_ok.trans ⟨Written.spelled, Spelled.written⟩
  refine ⟨isNCName_iff_kinds s, fun _ => kinds_eq_keyword, hspelled, ?_⟩
  intro hnone
  cases hparse : parse s with
  | ok n => exact absurd ((hspelled n).mp hparse) (hnone n)
  | error fault =>
    refine ⟨fault, rfl, ?_⟩
    unfold parse at hparse
    split at hparse
    · cases hparse
    · cases hparse
      rfl

/-- A supplementary character and an empty reference between the braces and a keyword behind them
make a name, and two colons do not. -/
theorem parse_iff_spelled_reference :
    parse "Q\x7b𐐀&\x7delse" = .ok (.expanded (some "𐐀&") none "else") ∧
      ∃ fault, parse "Q::else" = .error fault ∧ fault.code.localName = "FOCA0002" := by
  obtain ⟨_, _, hspelled, _⟩ := parse_iff_spelled "Q\x7b𐐀&\x7delse"
  obtain ⟨_, _, _, hrefused⟩ := parse_iff_spelled "Q::else"
  refine ⟨(hspelled _).mpr ?_, hrefused ?_⟩
  · have hwords : words "Q\x7b𐐀&\x7delse" = ⟨.bracedUriLiteralStart, "Q\x7b"⟩ ::
        ([⟨.stringLiteralContents, "𐐀"⟩, ⟨.emptyEntityReference, "&"⟩] ++
          [⟨.bracedUriLiteralEnd, "\x7d"⟩, nameWord "else"]) := by decide +kernel
    rw [hwords]
    exact @Spelled.braced _ _ (nameWord "else")
      [⟨.stringLiteralContents, "𐐀"⟩, ⟨.emptyEntityReference, "&"⟩] rfl (by decide) (by decide) rfl
      (isName_nameWord "else")
  · intro n h
    have hwords : words "Q::else"
        = [nameWord "Q", ⟨.axisSeparator, "::"⟩, nameWord "else"] := by decide +kernel
    generalize words "Q::else" = ws at h hwords
    cases h with
    | plain => cases hwords
    | withPrefix _ hseparator =>
      cases hwords
      cases hseparator
    | braced hopening =>
      rw [(List.cons.inj hwords).1] at hopening
      revert hopening
      decide +kernel

end QName

end XQuery
