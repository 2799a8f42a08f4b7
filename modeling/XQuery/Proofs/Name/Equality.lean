import XQuery.Proofs.Name.RoundTrip
import XQuery.Value.Atomic

/-!
# Equality of names

Two lexical names are compared by their prefixes and any other two by their
namespaces, so that equality is reflexive and symmetric, but passes from one
name over a second to a third only if the same fields count on the way: where
one of the three is expanded, the other two may be lexical names that are not
the same (`QName.equal_equivalence`). Names that are read have no namespace
while they are lexical; among such names, only lexical ones with different
prefixes are equal to one name without being equal to one another
(`QName.equal_trans_of_wellFormed`).
-/

namespace XQuery

namespace QName

variable {a b c : QName}

theorem equal_of_isLexical (ha : a.isLexical = true) (hb : b.isLexical = true) :
    a.equal b = true ↔ a.localName = b.localName ∧ a.pre = b.pre := by
  simp [equal, ha, hb]

theorem equal_of_not_isLexical (h : a.isLexical = false ∨ b.isLexical = false) :
    a.equal b = true ↔ a.localName = b.localName ∧ a.uri = b.uri := by
  have hboth : (a.isLexical && b.isLexical) = false := Bool.and_eq_false_iff.mpr h
  simp [equal, hboth]

theorem localName_eq_of_equal (h : a.equal b = true) : a.localName = b.localName := by
  rw [equal, Bool.and_eq_true, beq_iff_eq] at h
  exact h.1

theorem equal_refl (a : QName) : a.equal a = true := by
  cases ha : a.isLexical with
  | true => exact (equal_of_isLexical ha ha).mpr ⟨rfl, rfl⟩
  | false => exact (equal_of_not_isLexical (.inl ha)).mpr ⟨rfl, rfl⟩

theorem equal_comm (a b : QName) : b.equal a = a.equal b := by
  rw [equal, equal, Bool.and_comm b.isLexical, @BEq.comm _ _ _ b.localName,
    @BEq.comm _ _ _ b.pre, @BEq.comm _ _ _ b.uri]

/-! ## Three names -/

/-- Both names are lexical, and they differ in prefix or in namespace. -/
def Apart (a b : QName) : Prop :=
  a.isLexical = true ∧ b.isLexical = true ∧ (a.pre ≠ b.pre ∨ a.uri ≠ b.uri)

theorem Apart.pre_ne (h : Apart a b) (ha : a.WellFormed) (hb : b.WellFormed) : a.pre ≠ b.pre :=
  h.2.2.resolve_right fun huri => huri ((ha h.1).trans (hb h.2.1).symm)

/-- One of three names is expanded, and the other two are lexical and apart. -/
def Mixed (a b c : QName) : Prop :=
  (b.isLexical = false ∧ Apart a c) ∨ (c.isLexical = false ∧ Apart a b) ∨
    (a.isLexical = false ∧ Apart b c)

theorem not_equal_iff_mixed (hab : a.equal b = true) (hbc : b.equal c = true) :
    a.equal c = false ↔ Mixed a b c := by
  have hname : a.localName = c.localName :=
    (localName_eq_of_equal hab).trans (localName_eq_of_equal hbc)
  rw [← Bool.not_eq_true]
  -- which fields were compared on the way depends on which names are lexical alone
  cases ha : a.isLexical <;> cases hb : b.isLexical <;> cases hc : c.isLexical
  all_goals simp_all [equal_of_isLexical, equal_of_not_isLexical, Mixed, Apart]

/-- Names that have no namespace while they are lexical are equal if they are equal to one name,
unless both are lexical and have different prefixes. -/
theorem equal_trans_of_wellFormed (ha : a.WellFormed) (hb : b.WellFormed) (hc : c.WellFormed)
    (hab : a.equal b = true) (hbc : b.equal c = true) :
    a.equal c = false ↔ a.isLexical = true ∧ c.isLexical = true ∧ a.pre ≠ c.pre := by
  constructor
  · intro hac
    rcases (not_equal_iff_mixed hab hbc).mp hac with ⟨-, h⟩ | ⟨-, h⟩ | ⟨-, h⟩
    · exact ⟨h.1, h.2.1, h.pre_ne ha hc⟩
    · exact absurd ((equal_of_isLexical h.1 h.2.1).mp hab).2 (h.pre_ne ha hb)
    · exact absurd ((equal_of_isLexical h.1 h.2.1).mp hbc).2 (h.pre_ne hb hc)
  · rintro ⟨hlexical, hlexical', hpre⟩
    rw [← Bool.not_eq_true, equal_of_isLexical hlexical hlexical']
    exact fun h => hpre h.2

/-- However the fields of names are set, and wherever the names stand, equality is reflexive and
symmetric. Two names that are equal to a third are equal to one another, unless one of the three is
expanded and the other two are lexical and differ in prefix or in namespace: then they are not. -/
theorem equal_equivalence (a b c : QName) :
    (∀ o o', Item.equal ⟨.qname a, o⟩ ⟨.qname b, o'⟩ = a.equal b) ∧
    a.equal a = true ∧ b.equal a = a.equal b ∧
    (a.equal b = true → b.equal c = true →
      (¬Mixed a b c → a.equal c = true) ∧ (Mixed a b c → a.equal c = false)) := by
  refine ⟨fun _ _ => rfl, equal_refl a, equal_comm a b, fun hab hbc => ?_⟩
  have hiff := not_equal_iff_mixed hab hbc
  exact ⟨fun h => by simpa [h] using hiff, hiff.mpr⟩

/-- A lexical name with a prefix is equal to an expanded name with another one, as both are equal to
the name without namespace. A lexical name in a namespace is equal to the expanded name in it and to
the lexical name with the same prefix, and these two are not equal. -/
theorem equal_equivalence_mixed :
    (∃ a b c, parse "p:x" = .ok a ∧ parse "Q\x7b\x7dx" = .ok b ∧
      c = .expanded none (some "q") "x" ∧ a.equal b = true ∧ b.equal c = true ∧
      a.equal c = true) ∧
    ∃ a b c, parse "p:x" = .ok a ∧ b = ⟨some "urn:x", some "p", "x", true⟩ ∧
      parse "Q\x7burn:x\x7dx" = .ok c ∧ a.equal b = true ∧ b.equal c = true ∧
      a.equal c = false := by
  constructor
  · let a : QName := .lexical (some "p") "x"
    let b : QName := .expanded none none "x"
    let c : QName := .expanded none (some "q") "x"
    have hab : a.equal b = true := rfl
    have hbc : b.equal c = true := rfl
    refine ⟨a, b, c, rfl, rfl, rfl, hab, hbc, ?_⟩
    refine ((equal_equivalence a b c).2.2.2 hab hbc).1 ?_
    rintro (⟨-, -, hlexical, -⟩ | ⟨-, -, hlexical, -⟩ | ⟨hexpanded, -⟩)
    · cases hlexical
    · cases hlexical
    · cases hexpanded
  · let a : QName := .lexical (some "p") "x"
    let b : QName := ⟨some "urn:x", some "p", "x", true⟩
    let c : QName := .expanded (some "urn:x") none "x"
    have hab : a.equal b = true := rfl
    have hbc : b.equal c = true := rfl
    refine ⟨a, b, c, rfl, rfl, rfl, hab, hbc, ?_⟩
    have hmixed : Mixed a b c := .inr (.inl ⟨rfl, rfl, rfl, .inr (by decide)⟩)
    exact ((equal_equivalence a b c).2.2.2 hab hbc).2 hmixed

/-- Equality is not transitive: names with different prefixes are equal to the name without
namespace, but not to one another. -/
theorem equal_not_transitive :
    ∃ a b c, parse "p:x" = .ok a ∧ parse "Q\x7b\x7dx" = .ok b ∧ parse "q:x" = .ok c ∧
      a.equal b = true ∧ b.equal c = true ∧ a.equal c = false :=
  ⟨.lexical (some "p") "x", .expanded none none "x", .lexical (some "q") "x",
    rfl, rfl, rfl, rfl, rfl, rfl⟩

end QName

end XQuery
