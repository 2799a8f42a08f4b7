import XQuery.Proofs.Lexer.Kinds

/-!
# The grammar of token streams

The tokens of an expression are a sequence of segments. A segment is one token
outside strings, comments and pragmas, or a whole construct: an opening token,
a body of its own form and a closing token. Only where the text ends may a
construct be cut short.

Inside a construct the mode of the lexer says which kinds may follow up to the
closing token (`Mode.Inside`). A token that does not close the construct leads
from what may follow it to what may stand in its place (`Mode.Inside.cons`),
provided that it stands apart from the next token: two tokens of text in a row
would have been read as one.
-/

namespace XQuery

/-! ## Segments -/

/-- References to entities and characters, well-formed or not. -/
def Kind.isReference : Kind → Bool
  | predefinedEntityReference | characterReference | partialEntityReference
  | emptyEntityReference => true
  | _ => false

/-- The parts of a pragma's name. -/
def Kind.isPragmaName : Kind → Bool
  | ncName | qnameSeparator | badCharacter => true
  | _ => false

/-- No token, or one of the kind. -/
def AtMostOne (k : Kind) (ks : List Kind) : Prop := ks = [] ∨ ks = [k]

/-- The body of a string or, without escaped delimiters, of a braced URI: text and references,
where all text between two references is one token. -/
structure Pieces (escapes : Bool) (ks : List Kind) : Prop where
  piece : ∀ k ∈ ks, k = .stringLiteralContents ∨ k.isReference ∨
    (escapes ∧ k = .escapedCharacter)
  apart : ¬[.stringLiteralContents, .stringLiteralContents] <:+: ks

/-- The body of a comment: the marker of documentation and the text. -/
def CommentBody (ks : List Kind) : Prop :=
  ∃ marker text, AtMostOne .docCommentMarker marker ∧ AtMostOne .comment text ∧
    ks = marker ++ text

/-- What follows the name of a pragma: nothing, or blanks and the contents. -/
def PragmaRest (ks : List Kind) : Prop :=
  ks = [] ∨ ∃ text, AtMostOne .pragmaContents text ∧ ks = .whiteSpace :: text

/-- The body of a pragma: blanks, and then nothing or a name with what follows it. -/
def PragmaBody (ks : List Kind) : Prop :=
  ∃ blank inner, AtMostOne .whiteSpace blank ∧ ks = blank ++ inner ∧
    (inner = [] ∨ ∃ name rest, name ≠ [] ∧ (∀ k ∈ name, k.isPragmaName) ∧ PragmaRest rest ∧
      inner = name ++ rest)

/-- The constructs of several tokens. -/
inductive Construct where
  | string
  | bracedUri
  | comment
  | pragma
deriving DecidableEq

namespace Construct

/-- The token that a construct starts with. -/
def opening : Construct → Kind
  | string => .stringLiteralStart
  | bracedUri => .bracedUriLiteralStart
  | comment => .commentStartTag
  | pragma => .pragmaBegin

/-- The token that a construct ends with. -/
def closing : Construct → Kind
  | string => .stringLiteralEnd
  | bracedUri => .bracedUriLiteralEnd
  | comment => .commentEndTag
  | pragma => .pragmaEnd

/-- What may stand between the two. -/
def Body : Construct → List Kind → Prop
  | string => Pieces true
  | bracedUri => Pieces false
  | comment => CommentBody
  | pragma => PragmaBody

/-- The tokens that start a construct. -/
def openings : List Kind := [string, bracedUri, comment, pragma].map opening

end Construct

/-- A complete segment: a token of plain text that starts no construct, or a construct. -/
inductive Segment : List Kind → Prop
  | single {k : Kind} : Expression.Mode.plain.yields k → k ∉ Construct.openings → Segment [k]
  | construct (c : Construct) {ks : List Kind} : c.Body ks →
      Segment (c.opening :: (ks ++ [c.closing]))

/-- A segment that the end of the text cuts short: the beginning of a segment, where the text of a
comment may be a partial comment. -/
inductive Cut : List Kind → Prop
  | before {ks : List Kind} (more : List Kind) : ks ≠ [] → more ≠ [] → Segment (ks ++ more) →
      Cut ks
  | unclosed (ks more : List Kind) : Segment (ks ++ .comment :: more) →
      Cut (ks ++ [.partialComment])

/-- Complete segments one after the other, of which the last may be cut short. -/
def Segmented (ks : List Kind) : Prop :=
  ∃ (segments : List (List Kind)) (rest : List Kind), (∀ s ∈ segments, Segment s) ∧
    (rest = [] ∨ Cut rest) ∧ ks = segments.flatten ++ rest

theorem Segmented.nil : Segmented [] := ⟨[], [], nofun, .inl rfl, rfl⟩

theorem Cut.segmented {ks : List Kind} (h : Cut ks) : Segmented ks := ⟨[], ks, nofun, .inr h, rfl⟩

theorem Segmented.append {s ks : List Kind} (hs : Segment s) (h : Segmented ks) :
    Segmented (s ++ ks) := by
  obtain ⟨segments, rest, hsegments, hrest, rfl⟩ := h
  exact ⟨s :: segments, rest, List.forall_mem_cons.mpr ⟨hs, hsegments⟩, hrest, by simp⟩

/-- Kinds of which two tokens in a row would have been read as one. -/
def Kind.fuses : Kind → Kind → Bool
  | stringLiteralContents, stringLiteralContents | whiteSpace, whiteSpace | comment, comment
  | comment, partialComment | pragmaContents, pragmaContents => true
  | _, _ => false

theorem Kind.fuses_comment (k : Kind) : k.fuses .comment = k.fuses .partialComment := by
  cases k <;> rfl

theorem Kind.eq_of_fuses {k k' : Kind} (h : k.fuses k') :
    (k = .stringLiteralContents ∧ k' = .stringLiteralContents) ∨
      (k = .whiteSpace ∧ k' = .whiteSpace) ∨
      (k = .comment ∧ (k' = .comment ∨ k' = .partialComment)) ∨
      (k = .pragmaContents ∧ k' = .pragmaContents) := by
  unfold fuses at h
  split at h
  · exact .inl ⟨rfl, rfl⟩
  · exact .inr (.inl ⟨rfl, rfl⟩)
  · exact .inr (.inr (.inl ⟨rfl, .inl rfl⟩))
  · exact .inr (.inr (.inl ⟨rfl, .inr rfl⟩))
  · exact .inr (.inr (.inr ⟨rfl, rfl⟩))
  · cases h

/-- The token may stand in front of these tokens. -/
def Apart (k : Kind) (ks : List Kind) : Prop := ∀ k' ∈ ks.head?, k.fuses k' = false

theorem AtMostOne.eq_nil {k : Kind} {ks : List Kind} (h : AtMostOne k ks) (hk : k.fuses k)
    (hapart : Apart k ks) : ks = [] := by
  rcases h with rfl | rfl
  · rfl
  · have hfuses := hapart k rfl
    rw [hk] at hfuses
    cases hfuses

theorem Pieces.nil (escapes : Bool) : Pieces escapes [] := ⟨nofun, by simp⟩

theorem Pieces.cons {escapes : Bool} {k : Kind} {ks : List Kind}
    (hk : k = .stringLiteralContents ∨ k.isReference ∨ (escapes ∧ k = .escapedCharacter))
    (hapart : Apart k ks) (h : Pieces escapes ks) : Pieces escapes (k :: ks) := by
  refine ⟨List.forall_mem_cons.mpr ⟨hk, h.piece⟩, ?_⟩
  intro hinfix
  rcases List.infix_cons_iff.mp hinfix with hprefix | hinfix
  · obtain ⟨rfl, rest, rfl⟩ := List.cons_prefix_cons.mp hprefix
    exact absurd (hapart _ rfl) (by decide)
  · exact h.apart hinfix

namespace Expression

/-! ## Modes inside constructs -/

/-- The construct that the mode is inside of. -/
def Mode.construct : Mode → Option Construct
  | plain => none
  | quoted | apostrophed => some .string
  | bracedUri => some .bracedUri
  | comment | docMarker => some .comment
  | pragmaStart | pragmaName | pragmaContents => some .pragma

/-- What may follow in a mode up to the closing token. -/
def Mode.Inside : Mode → List Kind → Prop
  | plain => fun _ => False
  | quoted | apostrophed => Pieces true
  | bracedUri => Pieces false
  | comment => AtMostOne .comment
  | docMarker => CommentBody
  | pragmaStart => PragmaBody
  | pragmaName => fun ks =>
      ∃ name rest, (∀ k ∈ name, k.isPragmaName) ∧ PragmaRest rest ∧ ks = name ++ rest
  | pragmaContents => AtMostOne .pragmaContents

/-- The mode behind a token that does not close the construct. -/
def Mode.within : Mode → Kind → Mode
  | docMarker, _ => comment
  | pragmaStart, k => if k = .whiteSpace then pragmaStart else pragmaName
  | pragmaName, k => if k = .whiteSpace then pragmaContents else pragmaName
  | mode, _ => mode

variable {mode : Mode} {c : Construct} {k : Kind} {ks : List Kind}

theorem Mode.inside_nil (h : mode.construct = some c) : mode.Inside [] := by
  cases mode with
  | plain => cases h
  | quoted | apostrophed | bracedUri => exact .nil _
  | comment | pragmaContents => exact .inl rfl
  | docMarker => exact ⟨[], [], .inl rfl, .inl rfl, rfl⟩
  | pragmaStart => exact ⟨[], [], .inl rfl, rfl, .inl rfl⟩
  | pragmaName => exact ⟨[], [], nofun, .inl rfl, rfl⟩

theorem quoted_yields (h : Mode.quoted.yields k) (hclosing : k ≠ .stringLiteralEnd) :
    k = .stringLiteralContents ∨ k.isReference ∨ (true ∧ k = .escapedCharacter) := by
  simp only [Mode.yields, List.mem_cons, List.not_mem_nil, or_false, decide_eq_true_eq] at h
  rcases h with rfl | rfl | rfl | rfl | rfl | rfl | rfl
  · exact .inr (.inr ⟨rfl, rfl⟩)
  · exact absurd rfl hclosing
  · exact .inl rfl
  all_goals exact .inr (.inl rfl)

theorem bracedUri_yields (h : Mode.bracedUri.yields k) (hclosing : k ≠ .bracedUriLiteralEnd) :
    k = .stringLiteralContents ∨ k.isReference ∨ (false ∧ k = .escapedCharacter) := by
  simp only [Mode.yields, List.mem_cons, List.not_mem_nil, or_false, decide_eq_true_eq] at h
  rcases h with rfl | rfl | rfl | rfl | rfl | rfl
  · exact absurd rfl hclosing
  · exact .inl rfl
  all_goals exact .inr (.inl rfl)

theorem comment_yields (h : Mode.comment.yields k) (hclosing : k ≠ .commentEndTag)
    (hpartial : k ≠ .partialComment) : k = .comment := by
  simp only [Mode.yields, List.mem_cons, List.not_mem_nil, or_false, decide_eq_true_eq] at h
  rcases h with rfl | rfl | rfl
  · rfl
  · exact absurd rfl hpartial
  · exact absurd rfl hclosing

theorem docMarker_yields (h : Mode.docMarker.yields k) :
    k = .docCommentMarker ∨ Mode.comment.yields k := by
  simpa [Mode.yields] using h

theorem pragmaName_yields (h : Mode.pragmaName.yields k) (hclosing : k ≠ .pragmaEnd) :
    k = .whiteSpace ∨ k.isPragmaName ∧ k ≠ .whiteSpace := by
  simp only [Mode.yields, List.mem_cons, List.not_mem_nil, or_false, decide_eq_true_eq] at h
  rcases h with rfl | rfl | rfl | rfl | rfl
  · exact .inl rfl
  · exact .inr ⟨rfl, by decide⟩
  · exact .inr ⟨rfl, by decide⟩
  · exact .inr ⟨rfl, by decide⟩
  · exact absurd rfl hclosing

theorem pragmaContents_yields (h : Mode.pragmaContents.yields k) (hclosing : k ≠ .pragmaEnd) :
    k = .pragmaContents := by
  simp only [Mode.yields, List.mem_cons, List.not_mem_nil, or_false, decide_eq_true_eq] at h
  exact h.resolve_right hclosing

theorem pragmaStart_inside_cons (h : Mode.pragmaName.yields k) (hclosing : k ≠ .pragmaEnd)
    (hapart : Apart k ks) (hks : (Mode.pragmaStart.within k).Inside ks) :
    PragmaBody (k :: ks) := by
  rcases pragmaName_yields h hclosing with rfl | ⟨hname, hblank⟩
  · obtain ⟨blank, inner, hblank, rfl, hinner⟩ : PragmaBody ks := hks
    have hnil : blank = [] := by
      refine hblank.eq_nil rfl fun k' hk' => hapart k' ?_
      simp only [List.head?_append, Option.mem_def] at hk' ⊢
      rw [hk', Option.some_or]
    exact ⟨[.whiteSpace], inner, .inr rfl, by rw [hnil]; rfl, hinner⟩
  · rw [Mode.within, if_neg hblank] at hks
    obtain ⟨name, rest, hparts, hrest, rfl⟩ := hks
    exact ⟨[], k :: name ++ rest, .inl rfl, rfl, .inr ⟨k :: name, rest, by simp,
      List.forall_mem_cons.mpr ⟨hname, hparts⟩, hrest, rfl⟩⟩

theorem pragmaName_inside_cons (h : Mode.pragmaName.yields k) (hclosing : k ≠ .pragmaEnd)
    (hks : (Mode.pragmaName.within k).Inside ks) : Mode.pragmaName.Inside (k :: ks) := by
  rcases pragmaName_yields h hclosing with rfl | ⟨hname, hblank⟩
  · exact ⟨[], .whiteSpace :: ks, nofun, .inr ⟨ks, hks, rfl⟩, rfl⟩
  · rw [Mode.within, if_neg hblank] at hks
    obtain ⟨name, rest, hparts, hrest, rfl⟩ := hks
    exact ⟨k :: name, rest, List.forall_mem_cons.mpr ⟨hname, hparts⟩, hrest, rfl⟩

/-- A token that does not close the construct leads from what may follow it to what may stand in
its place. -/
theorem Mode.Inside.cons (hmode : mode.construct = some c) (hyields : mode.yields k)
    (hclosing : k ≠ c.closing) (hpartial : k ≠ .partialComment) (hapart : Apart k ks)
    (h : (mode.within k).Inside ks) : mode.Inside (k :: ks) := by
  cases mode with
  | plain => cases hmode
  | quoted | apostrophed =>
    cases hmode
    exact Pieces.cons (quoted_yields hyields hclosing) hapart h
  | bracedUri =>
    cases hmode
    exact Pieces.cons (bracedUri_yields hyields hclosing) hapart h
  | comment =>
    cases hmode
    cases comment_yields hyields hclosing hpartial
    exact .inr (by rw [AtMostOne.eq_nil h rfl hapart])
  | docMarker =>
    cases hmode
    rcases docMarker_yields hyields with rfl | hyields
    · exact ⟨[.docCommentMarker], ks, .inr rfl, h, rfl⟩
    · cases comment_yields hyields hclosing hpartial
      exact ⟨[], [.comment], .inl rfl, .inr rfl, by rw [AtMostOne.eq_nil h rfl hapart]; rfl⟩
  | pragmaStart =>
    cases hmode
    exact pragmaStart_inside_cons hyields hclosing hapart h
  | pragmaName =>
    cases hmode
    exact pragmaName_inside_cons hyields hclosing h
  | pragmaContents =>
    cases hmode
    cases pragmaContents_yields hyields hclosing
    exact .inr (by rw [AtMostOne.eq_nil h rfl hapart])

/-- The kinds from inside a construct on: up to its closing token and then whatever follows, or
only a beginning of it, where the text of a comment may be a partial comment. -/
inductive Mode.Continues (mode : Mode) (c : Construct) : List Kind → Prop
  | closed (body rest : List Kind) : mode.Inside body → Segmented rest →
      Continues mode c (body ++ c.closing :: rest)
  | cut {ks : List Kind} (more : List Kind) : mode.Inside (ks ++ more) → Continues mode c ks
  | unclosed (ks more : List Kind) : mode.Inside (ks ++ .comment :: more) →
      Continues mode c (ks ++ [.partialComment])

theorem Mode.within_construct (hmode : mode.construct = some c) (k : Kind) :
    (mode.within k).construct = some c := by
  cases mode with
  | pragmaStart | pragmaName =>
    simp only [Mode.within]
    split <;> exact hmode
  | _ => exact hmode

theorem Mode.Continues.cons (hmode : mode.construct = some c) (hyields : mode.yields k)
    (hclosing : k ≠ c.closing) (hpartial : k ≠ .partialComment) (hapart : Apart k ks)
    (h : (mode.within k).Continues c ks) : mode.Continues c (k :: ks) := by
  cases h with
  | closed body rest hbody hrest =>
    refine .closed (k :: body) rest (.cons hmode hyields hclosing hpartial ?_ hbody) hrest
    intro k' hk'
    refine hapart k' ?_
    rw [Option.mem_def] at hk' ⊢
    rw [List.head?_append, hk', Option.some_or]
  | cut more hinside =>
    cases ks with
    | nil =>
      have hnil := Mode.inside_nil (mode.within_construct hmode k)
      exact .cut [] (.cons hmode hyields hclosing hpartial hapart hnil)
    | cons k' ks =>
      exact .cut more (.cons hmode hyields hclosing hpartial hapart hinside)
  | unclosed ks more hinside =>
    refine .unclosed (k :: ks) more (.cons hmode hyields hclosing hpartial ?_ hinside)
    cases ks with
    | nil =>
      -- what stands apart from a partial comment stands apart from a comment
      rintro _ ⟨⟩
      rw [Kind.fuses_comment]
      exact hapart .partialComment rfl
    | cons k' ks => exact hapart

/-- An opening token in front of what goes on inside its construct. -/
theorem Mode.Continues.segmented (hbody : ∀ ks, mode.Inside ks → c.Body ks)
    (h : mode.Continues c ks) : Segmented (c.opening :: ks) := by
  cases h with
  | closed body rest hinside hrest =>
    have hsegment : Segment (c.opening :: (body ++ [c.closing])) := .construct c (hbody _ hinside)
    simpa using Segmented.append hsegment hrest
  | cut more hinside =>
    refine Cut.segmented (.before (more ++ [c.closing]) (by simp) (by simp) ?_)
    simpa using Segment.construct c (hbody _ hinside)
  | unclosed ks more hinside =>
    refine Cut.segmented (.unclosed (c.opening :: ks) (more ++ [c.closing]) ?_)
    simpa using Segment.construct c (hbody _ hinside)

end Expression

end XQuery
