import XQuery.Lexer.Combined

/-!
# Lexer trees

Combined lexers come from registering sub-lexers one by one; a registration
that is refused builds nothing. The lexers of the library are the trees that
arise this way from the expression lexer and the documentation lexer, where a
combined lexer may itself be a language lexer or a sub-lexer.
-/

namespace XQuery

namespace Combined

/-- The language lexer with the sub-lexers registered in order. -/
def build (language : Lexer) (subs : List SubLexer) : Except RegistrationError Combined :=
  subs.foldlM register { language }

/-- A sub-lexer as it is kept: of its two states the part above the id is dropped. -/
def kept (s : SubLexer) : SubLexer :=
  { s with parent := s.parent % idUnit, child := s.child % idUnit }

/-- Ids that tell the sub-lexers apart from one another and from the language lexer. -/
structure Registered (c : Combined) : Prop where
  id_ne_zero : ∀ s ∈ c.subLexers, s.id ≠ 0
  id_mod : ∀ s ∈ c.subLexers, s.id % idUnit = 0
  distinct : c.subLexers.Pairwise fun s t => s.id ≠ t.id

theorem idUnit_pos : 0 < idUnit := by decide

theorem register_eq_ok {c c' : Combined} {s : SubLexer} (h : c.register s = .ok c') :
    (s.id ≠ 0 ∧ s.id % idUnit = 0) ∧ (∀ t ∈ c.subLexers, t.id ≠ s.id) ∧
      c' = { c with subLexers := kept s :: c.subLexers } := by
  unfold register at h
  split at h
  · cases h
  · next hid =>
      split at h
      · cases h
      · next hfresh =>
          cases h
          refine ⟨by simpa [not_or] using hid, ?_, rfl⟩
          intro t ht heq
          exact hfresh (List.any_eq_true.mpr ⟨t, ht, by simpa using heq⟩)

theorem Registered.register {c c' : Combined} {s : SubLexer} (hc : c.Registered)
    (h : c.register s = .ok c') : c'.Registered := by
  obtain ⟨⟨hzero, hmod⟩, hfresh, rfl⟩ := register_eq_ok h
  refine ⟨?_, ?_, ?_⟩
  · exact List.forall_mem_cons.mpr ⟨hzero, hc.id_ne_zero⟩
  · exact List.forall_mem_cons.mpr ⟨hmod, hc.id_mod⟩
  · exact List.pairwise_cons.mpr ⟨fun t ht => (hfresh t ht).symm, hc.distinct⟩

theorem registered_new (language : Lexer) : Registered { language } :=
  ⟨by simp, by simp, .nil⟩

/-- What registering a whole list does, from any combined lexer on. -/
theorem foldlM_register {c c' : Combined} {subs : List SubLexer} (hc : c.Registered)
    (h : subs.foldlM register c = .ok c') :
    c'.Registered ∧ c'.language = c.language ∧
      c'.subLexers = (subs.map kept).reverse ++ c.subLexers := by
  induction subs generalizing c with
  | nil =>
    cases h
    exact ⟨hc, rfl, rfl⟩
  | cons s subs ih =>
    rw [List.foldlM_cons] at h
    cases hs : c.register s with
    | error e =>
      rw [hs] at h
      cases h
    | ok d =>
      rw [hs] at h
      obtain ⟨hreg, hlanguage, hsubs⟩ := ih (hc.register hs) h
      obtain ⟨_, _, rfl⟩ := register_eq_ok hs
      exact ⟨hreg, hlanguage, by simp [hsubs]⟩

theorem build_eq_ok {c : Combined} {language : Lexer} {subs : List SubLexer}
    (h : build language subs = .ok c) :
    c.Registered ∧ c.language = language ∧ c.subLexers = (subs.map kept).reverse := by
  obtain ⟨hreg, hlanguage, hsubs⟩ := foldlM_register (registered_new language) h
  exact ⟨hreg, hlanguage, by simpa using hsubs⟩

/-- Every sub-lexer of a built lexer was handed in. -/
theorem build_sub {c : Combined} {language : Lexer} {subs : List SubLexer}
    (h : build language subs = .ok c) (i : c.Index) : ∃ s ∈ subs, c.sub i = kept s := by
  have hmem : c.sub i ∈ c.subLexers := List.get_mem c.subLexers i
  rw [(build_eq_ok h).2.2, List.mem_reverse, List.mem_map] at hmem
  obtain ⟨s, hs, heq⟩ := hmem
  exact ⟨s, hs, heq.symm⟩

end Combined

/-- The expression lexer, the documentation lexer and what registration builds from trees. -/
inductive Lexer.Tree : Lexer → Prop
  | expression : Tree .expression
  | documentation : Tree .documentation
  | combined {language : Lexer} {subs : List SubLexer} {c : Combined} :
      Tree language → (∀ s ∈ subs, Tree s.lexer) → Combined.build language subs = .ok c →
      Tree c.lexer

/-- The registration that `Combined.documented` consists of. -/
def documentationSub : SubLexer where
  lexer := .documentation
  id := documentationId
  parent := Expression.Mode.comment.code
  child := Documentation.Mode.lineStart.code
  token := .docCommentMarker

theorem Combined.build_documented :
    Combined.build .expression [documentationSub] = .ok .documented := rfl

theorem Lexer.Tree.documented : Lexer.Tree .documented :=
  .combined .expression (by simpa using .documentation) Combined.build_documented

end XQuery
