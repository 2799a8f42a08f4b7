import XQuery.Proofs.Lexer.Refinement

/-!
# Which lexer has read a token

The id in the state of a token names the lexer that has read it, and so does
the kind of the token: the kinds of the expression lexer and those of the
documentation lexer are apart. Both agree for every initial state
(`Lexer.documented_state_div`), because the lexers keep to their kinds
whatever state they are in. Run from the default state, the documentation
lexer reads exactly what stands between the marker of a documentation comment
and its end tag (`Lexer.documented_isBody`).
-/

namespace XQuery

open Documentation (isBody isBody_of_yields)

/-! ## Invariants of the tokens -/

namespace Lexer

variable {lexer : Lexer}

/-- What holds of every token that a memory can show holds of all tokens. -/
theorem Drains.forall_mem {P : lexer.Memory → Prop} (hinv : lexer.Invariant P)
    {m m' : lexer.Memory} {ts : List Token} (h : lexer.Drains m ts m') (hm : P m)
    {Q : Token → Prop} (hshown : ∀ {m t}, P m → lexer.token? m = some t → Q t) :
    ∀ t ∈ ts, Q t := by
  induction h with
  | done => exact nofun
  | more hsome _ ih =>
    exact List.forall_mem_cons.mpr ⟨hshown hm hsome, ih (hinv.advance hm)⟩

theorem Invariant.forall_tokens {P : lexer.Memory → Prop} (hinv : lexer.Invariant P)
    (hlexer : lexer.Progressive) {Q : Token → Prop}
    (hshown : ∀ {m t}, P m → lexer.token? m = some t → Q t) (units : Array UInt16)
    (first last state : Nat) : ∀ t ∈ lexer.tokens units first last state, Q t :=
  (drain_drains hlexer _).forall_mem hinv (hinv.start _ state hinv.fresh) hshown

/-- A scanner shows only the kinds that its rule reads. -/
theorem invariant_kinds {rule : Rule} {P : Kind → Prop}
    (h : ∀ {state cs k}, (rule state cs).kind = some k → P k) :
    (Lexer.ofRule rule).Invariant fun s => ∀ k, s.token = some k → P k where
  fresh := nofun
  start _ _ _ := fun _ hk => h hk
  advance _ := fun _ hk => h hk

end Lexer

/-! ## Ids -/

theorem Expression.not_isBody {state : Nat} {cs : List CodePoint} {k : Kind}
    (h : (Expression.rule state cs).kind = some k) : isBody k = false :=
  isBody_of_yields (Expression.scan_kind h)

theorem Documentation.isBody_of_rule {state : Nat} {cs : List CodePoint} {k : Kind}
    (h : (Documentation.rule state cs).kind = some k) : isBody k = true := by
  rw [rule] at h
  split at h
  · cases h
  · exact scan_kind h

namespace Combined

theorem index_documented (i : Combined.documented.Index) : i = ⟨0, Nat.one_pos⟩ :=
  Fin.ext (Nat.lt_one_iff.mp i.isLt)

/-- The expression lexer shows no token of a body, and the documentation lexer no other. -/
def Apart : Combined.documented.Memory → Prop :=
  Combined.documented.Each (fun s => ∀ k, Lexer.expression.kind s = some k → isBody k = false)
    fun i s => ∀ k, (Combined.documented.sub i).lexer.kind s = some k → isBody k = true

theorem apart : Lexer.documented.Invariant Apart :=
  invariant_each (Lexer.invariant_kinds Expression.not_isBody) fun i => by
    obtain rfl := index_documented i
    exact Lexer.invariant_kinds Documentation.isBody_of_rule

theorem sub_id (i : Combined.documented.Index) :
    (Combined.documented.sub i).id = documentationId := by
  obtain rfl := index_documented i
  rfl

theorem Apart.state_div {m : Combined.documented.Memory} {t : Token} (h : Apart m)
    (ht : Lexer.documented.token? m = some t) : t.state / idUnit = (isBody t.kind).toNat := by
  obtain ⟨hkind, hstate, -, -⟩ := Lexer.token?_eq_some ht
  have hmod (n : Nat) : n % idUnit < idUnit := Nat.mod_lt n (by decide)
  obtain ⟨language, subs, active⟩ := m
  cases active with
  | none =>
    have hbody : isBody t.kind = false := h.language _ hkind
    rw [hbody, ← hstate]
    exact Nat.div_eq_of_lt (hmod _)
  | some i =>
    have hbody : isBody t.kind = true := h.subs i _ hkind
    rw [hbody, ← hstate]
    show ((Combined.documented.sub i).id + _ % idUnit) / idUnit = 1
    rw [sub_id, show documentationId = idUnit from rfl, Nat.add_div_left _ idUnit_pos,
      Nat.div_eq_of_lt (hmod _)]

end Combined

/-- The id in the state of a token is that of the documentation lexer, exactly if the token is one
of the body of a documentation comment. -/
theorem Lexer.documented_state_div (units : Array UInt16) (first last state : Nat) :
    ∀ t ∈ Lexer.documented.tokens units first last state,
      t.state / idUnit = (isBody t.kind).toNat :=
  Combined.apart.forall_tokens Lexer.Tree.documented.progressive Combined.Apart.state_div units
    first last state

/-! ## Bodies -/

/-- Whether a documentation comment is open behind the tokens: its marker has been read, and its end
tag has not. -/
def documentationOpen (before : List Token) : Bool :=
  before.foldl (fun isOpen t => t.kind == .docCommentMarker || (isOpen && t.kind != .commentEndTag))
    false

theorem documentationOpen_concat (before : List Token) (t : Token) :
    documentationOpen (before ++ [t])
      = (t.kind == .docCommentMarker || (documentationOpen before && t.kind != .commentEndTag)) := by
  rw [documentationOpen, List.foldl_append]
  rfl

namespace Documentation

open Combined (documentedReader documentedReader_declared documentedReader_inside
  documentedReader_expression)
open Expression (Declared)

/-- The documentation lexer reads next exactly if a documentation comment is open. -/
def Opens (before : List Token) (state : Nat) : Prop :=
  documentationOpen before = false ∧ Declared state ∨
    documentationOpen before = true ∧ ∃ inner < idUnit, state = documentationId + inner

/-- Where the documentation lexer ends no text of the comment is left. -/
theorem atTerminator_of_none {inner : Nat} {cs : List CodePoint}
    (h : rule.reader inner cs = none) : atTerminator 0 cs = true := by
  rw [Rule.reader, Option.map_eq_none_iff, rule] at h
  cases hend : atTerminator (inner / depthUnit) cs with
  | false =>
    have hsome := (scan_takes (Mode.ofCode (inner % depthUnit)) hend).isSome
    rw [hend, if_neg Bool.false_ne_true] at h
    rw [h] at hsome
    cases hsome
  | true =>
    rw [atTerminator, Bool.or_eq_true, Bool.and_eq_true] at hend ⊢
    exact hend.imp_right fun hpair => ⟨rfl, hpair.2⟩

/-- Where the documentation lexer ends, the expression lexer reads the end tag of the comment. -/
theorem commentEndTag_of_none {inner : Nat} {cs : List CodePoint} {rd : Lexeme}
    (hnone : rule.reader inner cs = none)
    (h : documentedReader Expression.Mode.comment.code cs = some rd) :
    rd.kind = .commentEndTag := by
  rw [documentedReader_expression Expression.Mode.comment.code_lt] at h
  obtain ⟨r, hr, rfl⟩ := Option.map_eq_some_iff.mp h
  rw [Combined.handOver_kind]
  rcases Expression.reader_comment cs with ⟨-, hkind⟩ | ⟨_, -, hpos, -⟩
  · exact hkind r hr
  · rw [commentText_of_atTerminator (atTerminator_of_none hnone)] at hpos
    cases hpos

theorem opens_of_declared {before : List Token} {t : Token} {state : Nat}
    (hopen : documentationOpen (before ++ [t]) = (t.kind == .docCommentMarker))
    (hnext : t.kind = .docCommentMarker ∧ state = documentationId + pack .lineStart 0 ∨
      t.kind ≠ .docCommentMarker ∧ Declared state) : Opens (before ++ [t]) state := by
  rcases hnext with ⟨hkind, hbody⟩ | ⟨hkind, hdeclared⟩
  · rw [beq_iff_eq.mpr hkind] at hopen
    exact .inr ⟨hopen, _, by decide, hbody⟩
  · rw [beq_eq_false_iff_ne.mpr hkind] at hopen
    exact .inl ⟨hopen, hdeclared⟩

/-- One token: it belongs to a body exactly if a comment is open that it does not end. -/
theorem Opens.advance {before : List Token} {state : Nat} {cs : List CodePoint} {rd : Lexeme}
    (h : Opens before state) (hread : documentedReader state cs = some rd) (offset : Nat) :
    isBody rd.kind = (documentationOpen before && rd.kind != .commentEndTag) ∧
      Opens (before ++ [rd.token offset cs]) rd.next := by
  have hconcat := documentationOpen_concat before (rd.token offset cs)
  rcases h with ⟨hopen, hstate⟩ | ⟨hopen, inner, hlt, rfl⟩
  · obtain ⟨-, hkind, hnext⟩ := documentedReader_declared hstate hread
    rw [hopen, Bool.false_and, Bool.or_false] at hconcat
    rw [hopen, Bool.false_and]
    exact ⟨Expression.not_isBody hkind, opens_of_declared hconcat hnext⟩
  · rw [hopen, Bool.true_and] at hconcat ⊢
    rcases documentedReader_inside hlt hread with ⟨r, hr, hrlt, rfl⟩ | ⟨hnone, hcomment⟩
    · have hbody := isBody_of_rule (Rule.reader_eq_some hr).1
      have hne : (r.kind != .commentEndTag) = true := by
        rw [bne_iff_ne]
        intro hkind
        rw [hkind] at hbody
        cases hbody
      refine ⟨hbody.trans hne.symm, .inr ⟨?_, r.next, hrlt, rfl⟩⟩
      rw [hconcat, Lexeme.token, hne, Bool.or_true]
    · obtain ⟨-, hkind, hnext⟩ := documentedReader_declared ⟨.comment, rfl⟩ hcomment
      have hend : (rd.kind != .commentEndTag) = false := by
        rw [commentEndTag_of_none hnone hcomment]
        rfl
      rw [Lexeme.token, hend, Bool.or_false] at hconcat
      exact ⟨(Expression.not_isBody hkind).trans hend.symm, opens_of_declared hconcat hnext⟩

end Documentation

/-- Run from the default state, the lexer reads a token of a body exactly where a documentation
comment is open. -/
theorem Lexer.documented_isBody (units : Array UInt16) (first last : Nat) {before after : List Token}
    {t : Token} (h : Lexer.documented.tokens units first last 0 = before ++ t :: after) :
    isBody t.kind = (documentationOpen before && t.kind != .commentEndTag) := by
  have hopens : Documentation.Opens [] 0 := .inl ⟨rfl, .plain, rfl⟩
  exact (Combined.documentedReader_runs units first last).forall_split
    (fun before t => isBody t.kind = (documentationOpen before && t.kind != .commentEndTag))
    (fun before _ state _ => Documentation.Opens before state)
    (fun hbefore hread => hbefore.advance hread _) hopens h

end XQuery
