import XQuery.Proofs.Lexer.DocumentationOrder

/-!
# Tags in nested comments

A comment nested in a documentation comment is part of its contents, but the
documentation lexer looks for tags at the start of every line, also inside a
nested comment. `Lexer.nested_documentation_iff` says exactly when the tokens
of nested comments are nothing but text: when on no line that begins inside
a nested comment the text starts with `@`.
-/

namespace XQuery

open Utf16 (width)
open Combined (documentedReader documentedReader_body documentedReader_declared
  documentedReader_inside)

namespace Documentation

open Expression (next Declared)

/-- The state is one of the documentation lexer inside a nested comment. -/
def Nested (state : Nat) : Prop :=
  state - state % idUnit = documentationId ∧ state % idUnit / depthUnit ≠ 0

instance (state : Nat) : Decidable (Nested state) := inferInstanceAs (Decidable (_ ∧ _))

/-- The kinds of token that text without tags consists of. -/
def isText : Kind → Bool
  | .docContents | .docTrim | .docWhiteSpace => true
  | _ => false

/-- Whether `@` comes next, perhaps behind white space. -/
def tagAhead (cs : List CodePoint) : Bool := next '@' (cs.dropWhile isInlineSpace)

theorem nested_add {inner : Nat} (h : inner < idUnit) :
    Nested (documentationId + inner) ↔ inner / depthUnit ≠ 0 := by
  have hmod : (documentationId + inner) % idUnit = inner := by
    rw [documentationId, show 0x10000000 = idUnit from rfl, Nat.add_mod_left, Nat.mod_eq_of_lt h]
  rw [Nested, hmod, Nat.add_sub_cancel]
  exact and_iff_right rfl

theorem not_nested_of_lt {state : Nat} (h : state < idUnit) : ¬ Nested state := by
  rw [Nested, Nat.mod_eq_of_lt h, Nat.sub_self]
  rintro ⟨hid, _⟩
  cases hid

/-! ## Text only -/

/-- No tag is read next: the reader is in no nested comment, or inside a line, or at the start of a
line without a tag. -/
def Quiet (mode : Mode) (depth : Nat) (cs : List CodePoint) : Prop :=
  depth = 0 ∨ mode = .contents ∨ mode = .lineStart ∧ tagAhead cs = false

/-- White space in front makes no difference. -/
theorem tagAhead_drop_space (cs : List CodePoint) :
    tagAhead (cs.drop (cs.takeWhile isInlineSpace).length) = tagAhead cs := by
  have hidem : (cs.takeWhile isInlineSpace ++ cs.dropWhile isInlineSpace).dropWhile isInlineSpace
      = (cs.dropWhile isInlineSpace).dropWhile isInlineSpace :=
    List.dropWhile_append_of_pos (List.all_eq_true.mp List.all_takeWhile)
  rw [List.takeWhile_append_dropWhile] at hidem
  rw [drop_takeWhile, tagAhead, tagAhead, ← hidem]

theorem tagAhead_of_next {cs : List CodePoint} (h : next '@' cs = true) : tagAhead cs = true := by
  cases cs with
  | nil => cases h
  | cons c cs =>
    have hc : c = '@'.toNat := beq_iff_eq.mp h
    subst hc
    rfl

variable {mode : Mode} {depth : Nat} {cs : List CodePoint} {step : Step}

/-- Outside the text of a line a quiet reader is in no nested comment. -/
theorem Quiet.depth_eq_zero (h : Quiet mode depth cs) (hcontents : mode ≠ .contents)
    (hline : mode = .lineStart → tagAhead cs = true) : depth = 0 := by
  rcases h with h | h | ⟨h, htag⟩
  · exact h
  · exact absurd h hcontents
  · rw [hline h] at htag
    cases htag

/-- A quiet reader reads text in nested comments, and it stays quiet as long as no trimmed start of
a line is followed by a tag. -/
theorem Quiet.advance (h : Quiet mode depth cs) (hread : Reading depth cs mode step)
    (htrim : depth ≠ 0 → step.kind = some .docTrim → tagAhead (cs.drop step.length) = false) :
    (depth ≠ 0 → ∀ kind ∈ step.kind, isText kind) ∧
      ∃ mode' depth', step.move.next (pack mode depth) = pack mode' depth' ∧
        Quiet mode' depth' (cs.drop step.length) := by
  cases hread with
  | trim =>
    refine ⟨?_, .lineStart, depth, rfl, ?_⟩
    · rintro - _ ⟨⟩
      rfl
    · by_cases hdepth : depth = 0
      · exact .inl hdepth
      · exact .inr (.inr ⟨rfl, htrim hdepth rfl⟩)
  | line =>
    refine ⟨?_, .contents, _, rfl, .inr (.inl rfl)⟩
    rintro - _ ⟨⟩
    rfl
  | space =>
    refine ⟨?_, mode, depth, rfl, ?_⟩
    · rintro - _ ⟨⟩
      rfl
    · exact h.imp_right (.imp_right (.imp_right (tagAhead_drop_space cs).trans))
  | tagMarker hnext =>
    have hdepth := h.depth_eq_zero nofun fun _ => tagAhead_of_next hnext
    exact ⟨fun hne => absurd hdepth hne, .tag, depth, rfl, .inl hdepth⟩
  | tagName =>
    have hdepth := h.depth_eq_zero nofun nofun
    exact ⟨fun hne => absurd hdepth hne, _, depth, rfl, .inl hdepth⟩
  | indicator =>
    have hdepth := h.depth_eq_zero nofun nofun
    exact ⟨fun hne => absurd hdepth hne, .paramName, depth, rfl, .inl hdepth⟩
  | variableName =>
    have hdepth := h.depth_eq_zero nofun nofun
    exact ⟨fun hne => absurd hdepth hne, .contents, depth, rfl, .inl hdepth⟩

/-- A state of the documented lexer in which no tag of a nested comment is read next. -/
def Calm (state : Nat) (cs : List CodePoint) : Prop :=
  Declared state ∨ ∃ mode depth, state = documentationId + pack mode depth ∧
    pack mode depth < idUnit ∧ Quiet mode depth cs

/-- What is read in a state of the expression lexer belongs to no nested documentation. -/
theorem calm_of_declared {state : Nat} {cs : List CodePoint} {rd : Lexeme}
    (hstate : Declared state) (h : documentedReader state cs = some rd) (cs' : List CodePoint) :
    ¬ Nested rd.state ∧ Calm rd.next cs' := by
  obtain ⟨hrd, _, hnext⟩ := documentedReader_declared hstate h
  refine ⟨?_, ?_⟩
  · rw [hrd]
    exact not_nested_of_lt hstate.lt
  · rcases hnext with ⟨_, hbody⟩ | ⟨_, hdeclared⟩
    · exact .inr ⟨.lineStart, 0, hbody, by decide, .inl rfl⟩
    · exact .inl hdeclared

/-- One token of the documented lexer, where no tag of a nested comment is next. -/
theorem Calm.advance {state : Nat} {cs : List CodePoint} {rd : Lexeme} (h : Calm state cs)
    (hread : documentedReader state cs = some rd)
    (htrim : Nested rd.state → rd.kind = .docTrim → tagAhead (cs.drop rd.length) = false) :
    (Nested rd.state → isText rd.kind) ∧ Calm rd.next (cs.drop rd.length) := by
  rcases h with hstate | ⟨mode, depth, rfl, hlt, hquiet⟩
  · obtain ⟨hnot, hcalm⟩ := calm_of_declared hstate hread (cs.drop rd.length)
    exact ⟨fun hnested => absurd hnested hnot, hcalm⟩
  · rcases documentedReader_inside hlt hread with ⟨r, hr, hrlt, rfl⟩ | ⟨-, hcomment⟩
    · obtain ⟨step, hreading, -, -, hkind, hlength, hnext⟩ := exists_reading hr
      simp only [nested_add hlt, pack_div] at htrim ⊢
      rw [pack_mod, pack_div, Mode.ofCode_code] at hreading
      rw [← hlength] at htrim ⊢
      obtain ⟨htext, mode', depth', hpack, hquiet'⟩ := hquiet.advance hreading fun hdepth htrimmed =>
        htrim hdepth (Option.some.inj (hkind.symm.trans htrimmed))
      rw [hnext] at hpack
      refine ⟨fun hdepth => htext hdepth _ hkind, .inr ⟨mode', depth', ?_, hpack ▸ hrlt, hquiet'⟩⟩
      rw [hpack]
    · obtain ⟨hnot, hcalm⟩ := calm_of_declared ⟨.comment, rfl⟩ hcomment (cs.drop rd.length)
      exact ⟨fun hnested => absurd hnested hnot, hcalm⟩

/-- If no trimmed start of a line in a nested comment is followed by a tag, then all that is read in
nested comments is text. -/
theorem Calm.runs {units : Array UInt16} {limit offset state : Nat} {cs : List CodePoint}
    {ts : List Token} (h : Calm state cs) (hcs : cs = Cursor.slice units offset limit)
    (hruns : documentedReader.Runs offset state cs ts)
    (htrim : ∀ t ∈ ts, Nested t.state → t.kind = .docTrim →
      tagAhead (Cursor.slice units t.stop limit) = false) :
    ∀ t ∈ ts, Nested t.state → isText t.kind := by
  induction hruns with
  | done => exact nofun
  | @more offset state cs rd ts hread hrest ih =>
    have hdrop : Cursor.slice units (rd.token offset cs).stop limit = cs.drop rd.length := by
      rw [Lexeme.token, hcs, Cursor.slice_add_width]
    have htrimmed := htrim _ List.mem_cons_self
    rw [hdrop] at htrimmed
    obtain ⟨htext, hcalm⟩ := h.advance hread htrimmed
    refine List.forall_mem_cons.mpr ⟨htext, ih hcalm hdrop.symm ?_⟩
    exact fun t ht => htrim t (List.mem_cons_of_mem _ ht)

/-! ## Tags -/

/-- A nested comment does not end the body. -/
theorem atTerminator_cons {depth : Nat} (h : depth ≠ 0) (c : CodePoint) (cs : List CodePoint) :
    atTerminator depth (c :: cs) = false := by
  rw [atTerminator, beq_eq_false_iff_ne.mpr h]
  rfl

/-- At the start of a line in a nested comment `@` is read as the marker of a tag. -/
theorem exists_marker_of_next {offset depth : Nat} {cs : List CodePoint} {ts : List Token}
    (hlt : pack .lineStart depth < idUnit) (hdepth : depth ≠ 0) (hnext : next '@' cs = true)
    (h : documentedReader.Runs offset (documentationId + pack .lineStart depth) cs ts) :
    ∃ t ∈ ts, Nested t.state ∧ t.kind = .docTagMarker := by
  cases cs with
  | nil => cases hnext
  | cons c cs =>
    have hc : c = '@'.toNat := beq_iff_eq.mp hnext
    subst hc
    have hread : rule.reader (pack .lineStart depth) ('@'.toNat :: cs)
        = some ⟨.docTagMarker, 1, pack .lineStart depth, pack .tag depth⟩ := by
      rw [Rule.reader, rule_pack, atTerminator_cons hdepth]
      rfl
    obtain ⟨us, rfl, -⟩ := h.eq_cons (by rw [documentedReader_body hlt, hread])
    refine ⟨_, List.mem_cons_self, ?_, rfl⟩
    exact (nested_add hlt).mpr (by rwa [pack_div])

/-- So it is behind white space. -/
theorem exists_marker {offset depth : Nat} {cs : List CodePoint} {ts : List Token}
    (hlt : pack .lineStart depth < idUnit) (hdepth : depth ≠ 0) (htag : tagAhead cs = true)
    (h : documentedReader.Runs offset (documentationId + pack .lineStart depth) cs ts) :
    ∃ t ∈ ts, Nested t.state ∧ t.kind = .docTagMarker := by
  cases cs with
  | nil => cases htag
  | cons c cs =>
    cases hspace : isInlineSpace c with
    | false =>
      rw [tagAhead, List.dropWhile_cons_of_neg (Bool.eq_false_iff.mp hspace)] at htag
      exact exists_marker_of_next hlt hdepth htag h
    | true =>
      have hscan : scan .lineStart depth (c :: cs) = inlineSpace (c :: cs) := by
        rw [scan, lineStart, if_neg (Bool.eq_false_iff.mp (isLineBreak_of_isInlineSpace hspace)),
          if_pos hspace]
      have hread : rule.reader (pack .lineStart depth) (c :: cs)
          = some ⟨.docWhiteSpace, ((c :: cs).takeWhile isInlineSpace).length,
              pack .lineStart depth, pack .lineStart depth⟩ := by
        rw [Rule.reader, rule_pack, atTerminator_cons hdepth, if_neg Bool.false_ne_true, hscan]
        rfl
      obtain ⟨us, rfl, hruns⟩ := h.eq_cons (by rw [documentedReader_body hlt, hread])
      have hnext : next '@' ((c :: cs).drop ((c :: cs).takeWhile isInlineSpace).length) = true := by
        rw [drop_takeWhile]
        exact htag
      obtain ⟨t, ht, hmarker⟩ := exists_marker_of_next hlt hdepth hnext hruns
      exact ⟨t, List.mem_cons_of_mem _ ht, hmarker⟩

theorem Reading.of_trim (h : Reading depth cs mode step) (hkind : step.kind = some .docTrim) :
    step = Documentation.trim depth cs := by
  cases h with
  | trim => rfl
  | tagName hname =>
    cases hkind
    rcases hname.tag with h | h <;> cases h
  | _ => cases hkind

/-- Where a tag is ahead behind the trimmed start of a line in a nested comment, its marker is
read. -/
theorem exists_marker_of_docTrim {units : Array UInt16} {limit offset : Nat} {cs : List CodePoint}
    {t : Token} {ts : List Token} (hcs : cs = Cursor.slice units offset limit)
    (hruns : documentedReader.Runs offset t.state cs (t :: ts)) (hnested : Nested t.state)
    (hkind : t.kind = .docTrim) (htag : tagAhead (Cursor.slice units t.stop limit) = true) :
    ∃ u ∈ ts, Nested u.state ∧ u.kind = .docTagMarker := by
  have hlt : t.state % idUnit < idUnit := Nat.mod_lt _ (by decide)
  have hstate : t.state = documentationId + t.state % idUnit := by
    rw [← hnested.1, Nat.sub_add_cancel (Nat.mod_le _ _)]
  rw [hstate] at hruns
  generalize t.state % idUnit = inner at hlt hstate hruns
  cases hruns with
  | @more _ _ _ rd _ hread hrest =>
    rcases documentedReader_inside hlt hread with ⟨r, hr, hrlt, rfl⟩ | ⟨-, hcomment⟩
    · obtain ⟨step, hreading, -, -, hstep, -, hnext⟩ := exists_reading hr
      rw [show r.kind = .docTrim from hkind] at hstep
      rw [hreading.of_trim hstep] at hnext
      rw [← hnext] at hrlt hrest
      rw [hcs] at htag hrest
      refine exists_marker hrlt ((nested_add hlt).mp hnested) ?_ hrest
      rw [← htag, Lexeme.token, Cursor.slice_add_width]
    · exact absurd hnested (calm_of_declared ⟨.comment, rfl⟩ hcomment []).1

end Documentation

open Documentation in
/-- Tokens in comments nested in a documentation comment are text, exactly if no trimmed start of a
line there is followed by `@`. -/
theorem Lexer.nested_documentation_iff (units : Array UInt16) (first last : Nat) :
    (∀ t ∈ Lexer.documented.tokens units first last 0, Nested t.state → isText t.kind) ↔
      ∀ t ∈ Lexer.documented.tokens units first last 0, Nested t.state → t.kind = .docTrim →
        tagAhead (Cursor.slice units t.stop (min last units.size)) = false := by
  have hstate : Expression.Declared 0 := ⟨.plain, rfl⟩
  have hvalid := Combined.documentedParts.valid_language hstate
  have hruns := Combined.documentedReader_runs units first last
  constructor
  · intro htext t ht hnested hkind
    obtain ⟨i, hi⟩ := List.getElem?_of_mem ht
    obtain ⟨n, hstart, -, hrest⟩ := Combined.documentedParts.account.runs_drop hruns hvalid hi
    obtain ⟨hlen, hti⟩ := List.getElem?_eq_some_iff.mp hi
    rw [List.drop_eq_getElem_cons hlen, hti] at hrest
    have hcs : (Cursor.ofRegion units first last).ahead.drop n
        = Cursor.slice units t.start (min last units.size) := by
      rw [hstart]
      exact (Cursor.slice_add_width units _ _ n).symm
    refine Bool.eq_false_iff.mpr fun htag => ?_
    obtain ⟨u, hu, hmarker, hukind⟩ := exists_marker_of_docTrim hcs hrest hnested hkind htag
    have hutext := htext u (List.mem_of_mem_drop hu) hmarker
    rw [hukind] at hutext
    cases hutext
  · exact Calm.runs (.inl hstate) rfl hruns

/-- In `(:~(:`, a line break and `@a:):)`, the tag stands in the nested comment. -/
theorem Lexer.nested_documentation_tag :
    ¬ ∀ t ∈ Lexer.documented.tokens
        #[0x28, 0x3A, 0x7E, 0x28, 0x3A, 0x0A, 0x40, 0x61, 0x3A, 0x29, 0x3A, 0x29] 0 12 0,
      Documentation.Nested t.state → Documentation.isText t.kind := by
  decide +kernel

end XQuery
