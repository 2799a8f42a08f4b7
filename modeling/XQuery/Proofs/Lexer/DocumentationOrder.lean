import XQuery.Proofs.Lexer.Refinement
import XQuery.Proofs.Text.Utf16

/-!
# The order of documentation tokens

What a tool that reads documentation may rely on, whatever the text of the
comment: names stand behind the sign that announces them, tags stand at the
start of a line, and a line of text goes on to its end
(`Lexer.documentation_inOrder`). `Reading` lists what the documentation lexer
can read in each mode, and `Behind` says what is known of the tokens read so
far when a mode is reached.
-/

namespace XQuery

open Utf16 (width)

namespace Documentation

open Expression (next nameChars)

/-! ## One token -/

/-- A name of `n` code points behind `@`, and the mode to which it leads. -/
structure TagName (cs : List CodePoint) (n : Nat) (kind : Kind) (mode : Mode) : Prop where
  tag : kind = .docTag ∨ kind = .docTaggedKeyword
  leads : mode = .contents ∨ mode = .paramStart ∧ kind = .docTaggedKeyword ∧
    String.ofList ((cs.take n).map Utf16.toChar) = "param"
  line : ∀ c ∈ cs.take n, isLineBreak c = false

/-- What can be read in a mode at a depth from the code points ahead. -/
inductive Reading (depth : Nat) (cs : List CodePoint) : Mode → Step → Prop
  | trim {mode : Mode} : (∃ c ∈ cs.head?, isLineBreak c = true) →
      Reading depth cs mode (trim depth cs)
  | line {mode : Mode} : (∀ c ∈ cs.head?, isLineBreak c = false) →
      Reading depth cs mode (line depth cs)
  | space {mode : Mode} : mode = .lineStart ∨ mode = .paramStart →
      (∃ c ∈ cs.head?, isInlineSpace c = true) → Reading depth cs mode (inlineSpace cs)
  | tagMarker : next '@' cs = true →
      Reading depth cs .lineStart ((Step.token .docTagMarker 1).moving (.replace (pack .tag depth)))
  | tagName {n : Nat} {kind : Kind} {mode : Mode} : TagName cs n kind mode →
      Reading depth cs .tag ((Step.token kind n).moving (.replace (pack mode depth)))
  | indicator : next '$' cs = true →
      Reading depth cs .paramStart
        ((Step.token .docVariableIndicator 1).moving (.replace (pack .paramName depth)))
  | variableName {n : Nat} : (∀ c ∈ cs.take n, isLineBreak c = false) →
      Reading depth cs .paramName
        ((Step.token .docNCName n).moving (.replace (pack .contents depth)))

theorem contents_reading (depth : Nat) (cs : List CodePoint) (mode : Mode) :
    Reading depth cs mode (contents depth cs) := by
  cases cs with
  | nil => exact .line nofun
  | cons c cs =>
    rw [contents]
    split
    · next hbreak => exact .trim ⟨c, rfl, hbreak⟩
    · next hbreak =>
        refine .line ?_
        rintro _ ⟨⟩
        exact (Bool.not_eq_true _).mp hbreak

theorem lineStart_reading (depth : Nat) (cs : List CodePoint) :
    Reading depth cs .lineStart (lineStart depth cs) := by
  cases cs with
  | nil => exact .line nofun
  | cons c cs =>
    rw [lineStart]
    split
    · next hbreak => exact .trim ⟨c, rfl, hbreak⟩
    · next hbreak =>
        split
        · next hspace => exact .space (.inl rfl) ⟨c, rfl, hspace⟩
        · split
          · next hat => exact .tagMarker hat
          · refine .line ?_
            rintro _ ⟨⟩
            exact (Bool.not_eq_true _).mp hbreak

theorem isLineBreak_of_isName {c : CodePoint} (h : (CharClass.of c).isName = true) :
    isLineBreak c = false := by
  rw [isLineBreak, Bool.or_eq_false_iff, beq_eq_false_iff_ne, beq_eq_false_iff_ne]
  constructor
  · rintro rfl
    revert h
    decide
  · rintro rfl
    revert h
    decide

theorem take_takeWhile (p : CodePoint → Bool) (cs : List CodePoint) :
    cs.take (cs.takeWhile p).length = cs.takeWhile p :=
  (List.prefix_iff_eq_take.mp (List.takeWhile_prefix p)).symm

theorem drop_takeWhile (p : CodePoint → Bool) (cs : List CodePoint) :
    cs.drop (cs.takeWhile p).length = cs.dropWhile p := by
  have h := congrArg (List.drop (cs.takeWhile p).length)
    (List.takeWhile_append_dropWhile (p := p) (l := cs))
  rw [List.drop_left] at h
  exact h.symm

/-- No line break stands in a name. -/
theorem name_line {c : CodePoint} {cs : List CodePoint} (hc : (CharClass.of c).isNameStart = true) :
    ∀ d ∈ (c :: cs).take (1 + nameChars cs), isLineBreak d = false := by
  rw [Nat.add_comm, List.take_succ_cons]
  refine List.forall_mem_cons.mpr ⟨?_, ?_⟩
  · rw [CharClass.isNameStart, beq_iff_eq] at hc
    exact isLineBreak_of_isName (by rw [hc]; rfl)
  · intro d hd
    rw [nameChars, Expression.count, take_takeWhile] at hd
    exact isLineBreak_of_isName (List.all_eq_true.mp List.all_takeWhile d hd)

theorem tag_reading (depth : Nat) (cs : List CodePoint) :
    Reading depth cs .tag (tag depth cs) := by
  cases cs with
  | nil => exact .line nofun
  | cons c cs =>
    rw [tag]
    split
    · next hc =>
        refine .tagName ⟨?_, ?_, name_line hc⟩
        · split
          · exact .inr rfl
          · exact .inl rfl
        · rw [Nat.add_comm, List.take_succ_cons]
          split
          · next hparam =>
              rw [hparam]
              exact .inr ⟨rfl, rfl, rfl⟩
          · exact .inl rfl
    · exact contents_reading _ _ _

theorem paramStart_reading (depth : Nat) (cs : List CodePoint) :
    Reading depth cs .paramStart (paramStart depth cs) := by
  cases cs with
  | nil => exact .line nofun
  | cons c cs =>
    rw [paramStart]
    split
    · next hspace => exact .space (.inr rfl) ⟨c, rfl, hspace⟩
    · split
      · next hdollar => exact .indicator hdollar
      · exact contents_reading _ _ _

theorem paramName_reading (depth : Nat) (cs : List CodePoint) :
    Reading depth cs .paramName (paramName depth cs) := by
  cases cs with
  | nil => exact .line nofun
  | cons c cs =>
    rw [paramName]
    split
    · next hc => exact .variableName (name_line hc)
    · exact contents_reading _ _ _

/-- The documentation lexer reads nothing but what the list has for its mode. -/
theorem scan_reading (mode : Mode) (depth : Nat) (cs : List CodePoint) :
    Reading depth cs mode (scan mode depth cs) := by
  cases mode with
  | contents => exact contents_reading depth cs _
  | lineStart => exact lineStart_reading depth cs
  | tag => exact tag_reading depth cs
  | paramStart => exact paramStart_reading depth cs
  | paramName => exact paramName_reading depth cs

/-! ## Line breaks -/

/-- Line breaks stand in trimmed text only, and there in front of everything else. -/
structure BreaksFirst (kind : Kind) (text : List CodePoint) : Prop where
  first : ∀ c ∈ text.dropWhile isLineBreak, isLineBreak c = false
  trim : kind ≠ .docTrim → ∀ c ∈ text, isLineBreak c = false

theorem BreaksFirst.of_line {kind : Kind} {text : List CodePoint}
    (h : ∀ c ∈ text, isLineBreak c = false) : BreaksFirst kind text :=
  ⟨fun c hc => h c ((List.dropWhile_sublist _).mem hc), fun _ => h⟩

theorem isLineBreak_of_isInlineSpace {c : CodePoint} (h : isInlineSpace c = true) :
    isLineBreak c = false := by
  rw [isInlineSpace, Bool.or_eq_true, beq_iff_eq, beq_iff_eq] at h
  rcases h with rfl | rfl
  · rfl
  · rfl

theorem inlineSpace_line (cs : List CodePoint) :
    ∀ c ∈ cs.take (cs.takeWhile isInlineSpace).length, isLineBreak c = false := by
  intro c hc
  rw [take_takeWhile] at hc
  exact isLineBreak_of_isInlineSpace (List.all_eq_true.mp List.all_takeWhile c hc)

theorem next_line {ch : Char} {cs : List CodePoint} (h : next ch cs = true)
    (hch : isLineBreak ch.toNat = false) : ∀ c ∈ cs.take 1, isLineBreak c = false := by
  cases cs with
  | nil => exact nofun
  | cons c cs =>
    rw [beq_iff_eq.mp h]
    simpa using hch

theorem trim_breaks (depth : Nat) (cs : List CodePoint) :
    ∀ c ∈ (cs.take (trim depth cs).length).dropWhile isLineBreak, isLineBreak c = false := by
  simp only [trim, Step.moving_length, Step.token_length]
  generalize hrest : cs.drop (cs.takeWhile isLineBreak).length = rest
  rw [Nat.add_assoc, List.take_add, hrest, take_takeWhile,
    List.dropWhile_append_of_pos (List.all_eq_true.mp List.all_takeWhile), List.take_add]
  intro c hc
  rcases List.mem_append.mp ((List.dropWhile_sublist _).mem hc) with hc | hc
  · exact inlineSpace_line rest c hc
  · split at hc
    · next hcolon => exact next_line (Bool.and_eq_true_iff.mp hcolon).1 (by decide) c hc
    · cases hc

/-- A delimiter of comments does not end in a line break. -/
theorem delimiter_line {c d : CodePoint} {a b : Char}
    (h : (c == a.toNat && d == b.toNat) = true) (hb : isLineBreak b.toNat = false) :
    isLineBreak d = false := by
  rw [beq_iff_eq.mp (Bool.and_eq_true_iff.mp h).2]
  exact hb

theorem lineText_line (depth : Nat) (cs : List CodePoint) :
    ∀ c ∈ cs.take (lineText depth cs).1, isLineBreak c = false := by
  fun_induction lineText depth cs with
  | case1 | case2 | case4 | case6 => exact fun _ h => absurd h List.not_mem_nil
  | case3 depth c hbreak => simpa using hbreak
  | case5 depth c d cs hbreak hopen length depth' htext ih =>
    rw [htext] at ih
    exact List.forall_mem_cons.mpr ⟨(Bool.not_eq_true _).mp hbreak,
      List.forall_mem_cons.mpr ⟨delimiter_line hopen rfl, ih⟩⟩
  | case7 c d cs hbreak _ hclose depth length depth' htext ih =>
    rw [htext] at ih
    exact List.forall_mem_cons.mpr ⟨(Bool.not_eq_true _).mp hbreak,
      List.forall_mem_cons.mpr ⟨delimiter_line hclose rfl, ih⟩⟩
  | case8 depth c d cs hbreak _ _ length depth' htext ih =>
    rw [htext] at ih
    exact List.forall_mem_cons.mpr ⟨(Bool.not_eq_true _).mp hbreak, ih⟩

/-- The text of a line goes on to a line break or to the end of the body. -/
theorem lineText_stops (depth : Nat) (cs : List CodePoint) :
    (∃ c ∈ (cs.drop (lineText depth cs).1).head?, isLineBreak c = true) ∨
      atTerminator (lineText depth cs).2 (cs.drop (lineText depth cs).1) = true := by
  fun_induction lineText depth cs with
  | case1 => exact .inr rfl
  | case2 depth c hbreak => exact .inl ⟨c, rfl, hbreak⟩
  | case3 => exact .inr rfl
  | case4 depth c d cs hbreak => exact .inl ⟨c, rfl, hbreak⟩
  | case5 depth c d cs _ _ length depth' htext ih =>
    rw [htext] at ih
    exact ih
  | case6 c d cs _ _ hclose => exact .inr hclose
  | case7 c d cs _ _ _ depth length depth' htext ih =>
    rw [htext] at ih
    exact ih
  | case8 depth c d cs _ _ _ length depth' htext ih =>
    rw [htext] at ih
    exact ih

theorem Reading.breaksFirst {depth : Nat} {cs : List CodePoint} {mode : Mode} {step : Step}
    {kind : Kind} (h : Reading depth cs mode step) (hkind : step.kind = some kind) :
    BreaksFirst kind (cs.take step.length) := by
  cases h with
  | trim =>
    cases hkind
    exact ⟨trim_breaks depth cs, fun hne => absurd rfl hne⟩
  | line => exact .of_line (lineText_line depth cs)
  | space => exact .of_line (inlineSpace_line cs)
  | tagMarker hnext => exact .of_line (next_line hnext (by decide))
  | tagName hname => exact .of_line hname.line
  | indicator hnext => exact .of_line (next_line hnext (by decide))
  | variableName hline => exact .of_line hline

/-! ## The tokens in front -/

/-- The kind of the last token that has been read. -/
def lastKind (before : List Token) : Option Kind := before.getLast?.map Token.kind

/-- What holds of the tokens read so far, or held in front of the white space that they end with. -/
inductive AfterSpace (P : List Token → Prop) : List Token → Prop
  | now {before : List Token} : P before → AfterSpace P before
  | space {before : List Token} {t : Token} : t.kind = .docWhiteSpace → P before →
      AfterSpace P (before ++ [t])

/-- Nothing has been read, or at last the trimmed start of a line. -/
def AtLineStart (before : List Token) : Prop :=
  before = [] ∨ lastKind before = some .docTrim

/-- The token read at last is the keyword `param`. -/
def AfterParam (units : Array UInt16) (before : List Token) : Prop :=
  ∃ t ∈ before.getLast?, t.kind = .docTaggedKeyword ∧
    Utf16.text (units.extract t.start t.stop).toList = "param"

/-- What has been read when a token of the kind follows. -/
def Announces (units : Array UInt16) (before : List Token) : Kind → Prop
  | .docTagMarker => AfterSpace AtLineStart before
  | .docTag | .docTaggedKeyword => lastKind before = some .docTagMarker
  | .docVariableIndicator => AfterSpace (AfterParam units) before
  | .docNCName => lastKind before = some .docVariableIndicator
  | _ => True

/-- The token may follow the tokens read so far. -/
structure InOrder (units : Array UInt16) (before : List Token) (t : Token) : Prop where
  announced : Announces units before t.kind
  /-- A line of text goes on to its end. -/
  contents : lastKind before = some .docContents → t.kind = .docTrim
  /-- White space is one token. -/
  space : lastKind before = some .docWhiteSpace → t.kind ≠ .docWhiteSpace
  breaks : BreaksFirst t.kind (Cursor.slice units t.start t.stop)

/-- The kind of token that is read in this mode only; text is read in every mode. -/
def Mode.awaits : Mode → Kind
  | contents => .docContents
  | lineStart => .docTagMarker
  | tag => .docTag
  | paramStart => .docVariableIndicator
  | paramName => .docNCName

/-- What is known when a mode is reached at a depth with these code points ahead. -/
structure Behind (units : Array UInt16) (before : List Token) (mode : Mode) (depth : Nat)
    (cs : List CodePoint) : Prop where
  announced : Announces units before mode.awaits
  contents : lastKind before = some .docContents →
    (∃ c ∈ cs.head?, isLineBreak c = true) ∨ atTerminator depth cs = true
  space : lastKind before = some .docWhiteSpace → ∀ c ∈ cs.head?, isInlineSpace c = false

section

variable {units : Array UInt16} {before : List Token} {mode : Mode} {depth : Nat}
  {cs : List CodePoint} {step : Step} {t : Token}

@[simp] theorem lastKind_concat (before : List Token) (t : Token) :
    lastKind (before ++ [t]) = some t.kind := by
  simp [lastKind]

/-- What may be followed by white space was so in front of it, if white space does not end it. -/
theorem AfterSpace.of_ne {P : List Token → Prop} (h : AfterSpace P before)
    (hne : lastKind before ≠ some .docWhiteSpace) : P before := by
  cases h with
  | now h => exact h
  | space hkind =>
    rw [lastKind_concat, hkind] at hne
    exact absurd rfl hne

/-- What may be read in a mode has been announced when the mode is reached. -/
theorem Reading.announced {kind : Kind} (h : Reading depth cs mode step)
    (hkind : step.kind = some kind) (hbefore : Announces units before mode.awaits) :
    Announces units before kind := by
  cases h with
  | trim | line | space =>
    cases hkind
    trivial
  | tagMarker | indicator | variableName =>
    cases hkind
    exact hbefore
  | tagName hname =>
    cases hkind
    rcases hname.tag with rfl | rfl
    · exact hbefore
    · exact hbefore

theorem Reading.of_space (h : Reading depth cs mode step)
    (hkind : step.kind = some .docWhiteSpace) :
    ∃ c ∈ cs.head?, isInlineSpace c = true := by
  cases h with
  | space _ hhead => exact hhead
  | tagName hname =>
    cases hkind
    rcases hname.tag with h | h <;> cases h
  | _ => cases hkind

/-- The next token is in order. -/
theorem Behind.inOrder (h : Behind units before mode depth cs) (hread : Reading depth cs mode step)
    (hend : atTerminator depth cs = false) (hpos : 0 < step.length)
    (hkind : step.kind = some t.kind)
    (htext : Cursor.slice units t.start t.stop = cs.take step.length) :
    InOrder units before t where
  announced := hread.announced hkind h.announced
  contents hcontents := by
    -- behind the end of a line a line break is ahead, and only trimmed text takes it
    rcases h.contents hcontents with ⟨c, hc, hbreak⟩ | hend'
    · refine Decidable.byContradiction fun htrim => ?_
      have hmem : c ∈ cs.take step.length := by
        apply List.mem_of_mem_head?
        rw [List.head?_take, if_neg (Nat.ne_of_gt hpos)]
        exact hc
      rw [(hread.breaksFirst hkind).trim htrim c hmem] at hbreak
      cases hbreak
    · rw [hend] at hend'
      cases hend'
  space hspace := by
    intro hwhite
    rw [hwhite] at hkind
    obtain ⟨c, hc, htrue⟩ := hread.of_space hkind
    rw [h.space hspace c hc] at htrue
    cases htrue
  breaks := by
    rw [htext]
    exact hread.breaksFirst hkind

/-- What is known behind a token that is no white space and no line of text. -/
theorem Behind.of_kind (hcontents : t.kind ≠ .docContents) (hspace : t.kind ≠ .docWhiteSpace)
    (h : Announces units (before ++ [t]) mode.awaits) :
    Behind units (before ++ [t]) mode depth cs where
  announced := h
  contents hlast := by
    rw [lastKind_concat] at hlast
    exact absurd (Option.some.inj hlast) hcontents
  space hlast := by
    rw [lastKind_concat] at hlast
    exact absurd (Option.some.inj hlast) hspace

/-- White space leaves open what has been announced. -/
theorem Announces.space {before : List Token} (hmode : mode = .lineStart ∨ mode = .paramStart)
    (h : Announces units before mode.awaits) (hlast : lastKind before ≠ some .docWhiteSpace)
    (hkind : t.kind = .docWhiteSpace) : Announces units (before ++ [t]) mode.awaits := by
  rcases hmode with rfl | rfl
  · exact .space hkind (AfterSpace.of_ne h hlast)
  · exact .space hkind (AfterSpace.of_ne h hlast)

/-- Every token leads to a mode and a depth for which enough is known. -/
theorem Behind.next (h : Behind units before mode depth cs) (hread : Reading depth cs mode step)
    (hkind : step.kind = some t.kind)
    (htext : Cursor.slice units t.start t.stop = cs.take step.length) :
    ∃ mode' depth', step.move.next (pack mode depth) = pack mode' depth' ∧
      Behind units (before ++ [t]) mode' depth' (cs.drop step.length) := by
  obtain ⟨kind, start, stop, state⟩ := t
  cases hread with
  | trim =>
    cases hkind
    refine ⟨.lineStart, depth, rfl, .of_kind nofun nofun ?_⟩
    exact .now (.inr (lastKind_concat _ _))
  | line =>
    cases hkind
    refine ⟨.contents, _, rfl, trivial, fun _ => lineText_stops depth cs, ?_⟩
    rw [lastKind_concat]
    exact nofun
  | space hmode hhead =>
    cases hkind
    have hlast : lastKind before ≠ some .docWhiteSpace := by
      intro hlast
      obtain ⟨c, hc, htrue⟩ := hhead
      rw [h.space hlast c hc] at htrue
      cases htrue
    refine ⟨mode, depth, rfl, h.announced.space hmode hlast rfl, ?_, ?_⟩
    · rw [lastKind_concat]
      exact nofun
    · intro _ c hc
      have hhead := List.head?_dropWhile_not isInlineSpace cs
      rw [← drop_takeWhile, show (cs.drop (cs.takeWhile isInlineSpace).length).head? = some c
        from hc] at hhead
      exact hhead
  | tagMarker =>
    cases hkind
    exact ⟨.tag, depth, rfl, .of_kind nofun nofun (lastKind_concat _ _)⟩
  | @tagName n kind mode' hname =>
    cases hkind
    refine ⟨mode', depth, rfl, .of_kind ?_ ?_ ?_⟩
    · rcases hname.tag with rfl | rfl <;> exact nofun
    · rcases hname.tag with rfl | rfl <;> exact nofun
    · rcases hname.leads with rfl | ⟨rfl, rfl, hparam⟩
      · trivial
      · refine .now ⟨_, List.getLast?_concat, rfl, ?_⟩
        rw [← hparam]
        exact congrArg (fun text => String.ofList (text.map Utf16.toChar)) htext
  | indicator =>
    cases hkind
    exact ⟨.paramName, depth, rfl, .of_kind nofun nofun (lastKind_concat _ _)⟩
  | variableName =>
    cases hkind
    exact ⟨.contents, depth, rfl, .of_kind nofun nofun trivial⟩

end

/-- What the documentation lexer reads in a state is a reading of its mode and depth. -/
theorem exists_reading {state : Nat} {cs : List CodePoint} {rd : Lexeme}
    (h : rule.reader state cs = some rd) :
    ∃ step, Reading (state / depthUnit) cs (Mode.ofCode (state % depthUnit)) step ∧
      atTerminator (state / depthUnit) cs = false ∧ 0 < step.length ∧
      step.kind = some rd.kind ∧ step.length = rd.length ∧ step.move.next state = rd.next := by
  obtain ⟨hkind, hlength, _, hnext⟩ := Rule.reader_eq_some h
  cases hend : atTerminator (state / depthUnit) cs with
  | true =>
    rw [rule, if_pos hend] at hkind
    cases hkind
  | false =>
    have hrule : rule state cs = scan (Mode.ofCode (state % depthUnit)) (state / depthUnit) cs :=
      if_neg (Bool.eq_false_iff.mp hend)
    rw [hrule] at hkind hlength hnext
    exact ⟨_, scan_reading _ _ cs, rfl, (scan_takes _ hend).length_pos, hkind, hlength,
      hnext.symm⟩

/-- What is known at a place of the buffer when a state of the documentation lexer is reached. -/
def Reached (units : Array UInt16) (limit : Nat) (before : List Token) (offset state : Nat)
    (cs : List CodePoint) : Prop :=
  cs = Cursor.slice units offset limit ∧
    ∃ mode depth, state = pack mode depth ∧ Behind units before mode depth cs

/-- One token of the documentation lexer is in order, and enough is known behind it. -/
theorem Reached.advance {units : Array UInt16} {limit : Nat} {before : List Token}
    {offset state : Nat} {cs : List CodePoint} {rd : Lexeme}
    (h : Reached units limit before offset state cs) (hread : rule.reader state cs = some rd) :
    InOrder units before (rd.token offset cs) ∧
      Reached units limit (before ++ [rd.token offset cs]) (offset + width (cs.take rd.length))
        rd.next (cs.drop rd.length) := by
  obtain ⟨hcs, mode, depth, rfl, hbehind⟩ := h
  obtain ⟨step, hreading, hend, hpos, hkind, hlength, hnext⟩ := exists_reading hread
  rw [pack_mod, pack_div, Mode.ofCode_code] at hreading
  rw [pack_div] at hend
  have htext : Cursor.slice units (rd.token offset cs).start (rd.token offset cs).stop
      = cs.take step.length := by
    rw [Lexeme.token, hlength, hcs, Cursor.slice_width]
  have hdrop : cs.drop rd.length
      = Cursor.slice units (offset + width (cs.take rd.length)) limit := by
    rw [hcs, Cursor.slice_add_width]
  obtain ⟨mode', depth', hpack, hbehind'⟩ := hbehind.next hreading hkind htext
  rw [hlength] at hbehind'
  exact ⟨hbehind.inOrder hreading hend hpos hkind htext, hdrop, mode', depth',
    hnext.symm.trans hpack, hbehind'⟩

end Documentation

/-- The tokens of a documentation comment are in order: a tag stands behind its `@`, a variable
behind its `$`, which stands behind `@param`, an `@` at the start of a line, where in front of `$`
and `@` there may be white space; a line of text is followed by the trimmed start of the next line
or by nothing, white space is one token, and line breaks stand only in front of trimmed text. -/
theorem Lexer.documentation_inOrder (units : Array UInt16) (first last : Nat)
    {before after : List Token} {t : Token}
    (h : Lexer.documentation.tokens units first last Documentation.Mode.lineStart.code
      = before ++ t :: after) : Documentation.InOrder units before t := by
  have hvalid : Documentation.account.Valid (Documentation.pack .lineStart 0) := trivial
  have hruns := Documentation.account.tokens_runs Lexer.Tree.documentation.progressive hvalid units
    first last
  have hbehind : Documentation.Behind units [] .lineStart 0
      (Cursor.ofRegion units first last).ahead := ⟨.now (.inl rfl), nofun, nofun⟩
  exact hruns.forall_split (Documentation.InOrder units)
    (Documentation.Reached units (min last units.size)) Documentation.Reached.advance
    ⟨rfl, _, _, rfl, hbehind⟩ h

/-- In the text `" @param $x"` the variable stands behind the keyword and one space. -/
theorem Lexer.documentation_inOrder_param :
    ∃ before, Lexer.documentation.tokens
        #[0x20, 0x40, 0x70, 0x61, 0x72, 0x61, 0x6D, 0x20, 0x24, 0x78] 0 10 1
        = before ++ [⟨.docVariableIndicator, 8, 9, 3⟩, ⟨.docNCName, 9, 10, 4⟩] ∧
      Documentation.InOrder #[0x20, 0x40, 0x70, 0x61, 0x72, 0x61, 0x6D, 0x20, 0x24, 0x78] before
        ⟨.docVariableIndicator, 8, 9, 3⟩ := by
  have htokens : Lexer.documentation.tokens
      #[0x20, 0x40, 0x70, 0x61, 0x72, 0x61, 0x6D, 0x20, 0x24, 0x78] 0 10 1
      = [⟨.docWhiteSpace, 0, 1, 1⟩, ⟨.docTagMarker, 1, 2, 1⟩, ⟨.docTaggedKeyword, 2, 7, 2⟩,
          ⟨.docWhiteSpace, 7, 8, 3⟩]
        ++ [⟨.docVariableIndicator, 8, 9, 3⟩, ⟨.docNCName, 9, 10, 4⟩] := by decide +kernel
  exact ⟨_, htokens, documentation_inOrder _ 0 10 htokens⟩

end XQuery
