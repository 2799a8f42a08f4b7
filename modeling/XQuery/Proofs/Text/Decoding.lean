import Mathlib.Data.List.Chain
import XQuery.Proofs.Text.Utf16

/-!
# Decoding with a cursor

Reading code point after code point from the start of a region yields the
region exactly (`Cursor.decodes_exactly`): the code points are written by the
units of the region, a pair is never left apart where both halves lie inside,
and reading stops at the end of the region. Over the units of a string the
characters of the string are read.
-/

namespace XQuery

/-- The first half of a surrogate pair, as a code point of its own. -/
def CodePoint.IsHighSurrogate (p : CodePoint) : Prop := 0xD800 ≤ p ∧ p ≤ 0xDBFF

/-- The second half of a surrogate pair, as a code point of its own. -/
def CodePoint.IsLowSurrogate (p : CodePoint) : Prop := 0xDC00 ≤ p ∧ p ≤ 0xDFFF

namespace Utf16

/-- The code points are an exact reading of the units: they are written by them, none lies above
the last one of Unicode, and no two neighbours are the halves of a pair. -/
structure IsReading (us : List UInt16) (ps : List CodePoint) : Prop where
  encoded : ps.flatMap encodePoint = us
  bounded : ∀ p ∈ ps, 0x10000 ≤ p → p ≤ 0x10FFFF
  unpaired : ps.IsChain fun p q => ¬(p.IsHighSurrogate ∧ q.IsLowSurrogate)

theorem combine_bounds {u v : UInt16} (h : (isHigh u && isLow v) = true) :
    0x10000 ≤ combine u v ∧ combine u v ≤ 0x10FFFF := by
  simp only [isHigh, isLow, Bool.and_eq_true, decide_eq_true_eq] at h
  show (0x10000 : Nat) ≤ 0x10000 + (u.toNat - 0xD800) * 0x400 + (v.toNat - 0xDC00) ∧
    0x10000 + (u.toNat - 0xD800) * 0x400 + (v.toNat - 0xDC00) ≤ 0x10FFFF
  omega

/-- What a pair stands for is no half of a pair. -/
theorem not_isHighSurrogate_combine {u v : UInt16} (h : (isHigh u && isLow v) = true) :
    ¬(combine u v).IsHighSurrogate := by
  rintro ⟨_, hle⟩
  exact absurd (Nat.le_trans (combine_bounds h).1 hle) (by decide)

theorem not_isLowSurrogate_combine {u v : UInt16} (h : (isHigh u && isLow v) = true) :
    ¬(combine u v).IsLowSurrogate := by
  rintro ⟨_, hle⟩
  exact absurd (Nat.le_trans (combine_bounds h).1 hle) (by decide)

theorem decode_bounded (us : List UInt16) : ∀ p ∈ decode us, 0x10000 ≤ p → p ≤ 0x10FFFF := by
  have hunit (u : UInt16) : u.toNat ≤ 0x10FFFF := by
    have hu : u.toNat < 0x10000 := u.toNat_lt
    omega
  fun_induction decode us with
  | case1 => exact List.forall_mem_nil _
  | case2 u => simpa using fun _ => hunit u
  | case3 u v rest hpair ih =>
    exact List.forall_mem_cons.mpr ⟨fun _ => (combine_bounds hpair).2, ih⟩
  | case4 u v rest hpair ih => exact List.forall_mem_cons.mpr ⟨fun _ => hunit u, ih⟩

/-- A reading begins with a second half only where the units do. -/
theorem isLow_of_head {v : UInt16} {us : List UInt16} {q : CodePoint}
    (hq : q ∈ (decode (v :: us)).head?) (hlow : q.IsLowSurrogate) : isLow v = true := by
  have hunit (h : v.toNat = q) : isLow v = true := by
    obtain ⟨hge, hle⟩ := h ▸ hlow
    simp [isLow, hge, hle]
  cases us with
  | nil => exact hunit (by simpa [decode] using hq)
  | cons w us =>
    rw [decode] at hq
    split at hq
    · next hpair =>
      obtain rfl : combine v w = q := by simpa using hq
      exact absurd hlow (not_isLowSurrogate_combine hpair)
    · exact hunit (by simpa using hq)

theorem decode_unpaired (us : List UInt16) :
    (decode us).IsChain fun p q => ¬(p.IsHighSurrogate ∧ q.IsLowSurrogate) := by
  fun_induction decode us with
  | case1 => exact .nil
  | case2 u => exact .singleton _
  | case3 u v rest hpair ih =>
    refine List.isChain_cons.mpr ⟨?_, ih⟩
    rintro q _ ⟨hhigh, _⟩
    exact not_isHighSurrogate_combine hpair hhigh
  | case4 u v rest hpair ih =>
    refine List.isChain_cons.mpr ⟨?_, ih⟩
    rintro q hq ⟨⟨hge, hle⟩, hlow⟩
    refine hpair ?_
    simp [isHigh, hge, hle, isLow_of_head hq hlow]

theorem isReading_decode (us : List UInt16) : IsReading us (decode us) :=
  ⟨flatMap_encodePoint_decode us, decode_bounded us, decode_unpaired us⟩

theorem length_encodePoint (p : CodePoint) : (encodePoint p).length = p.width := by
  unfold encodePoint CodePoint.width
  split <;> rfl

theorem length_encode (s : String) : (encode s).length = width (s.toList.map Char.toNat) := by
  unfold encode
  induction s.toList with
  | nil => rfl
  | cons c cs ih => simp [length_encodePoint, ih]

end Utf16

namespace Cursor

open Utf16 (width)

/-- Reading what is at the cursor and advancing, again and again until nothing is left, yields the
code points and ends at the second cursor. -/
inductive Yields : Cursor → List CodePoint → Cursor → Prop
  | done {c : Cursor} : c.peek = none → Yields c [] c
  | more {c d : Cursor} {p : CodePoint} {ps : List CodePoint} : c.peek = some p →
      Yields c.advance ps d → Yields c (p :: ps) d

theorem Yields.unique {c d d' : Cursor} {ps ps' : List CodePoint} (h : c.Yields ps d)
    (h' : c.Yields ps' d') : ps' = ps ∧ d' = d := by
  induction h generalizing ps' d' with
  | done hnone =>
    cases h' with
    | done _ => exact ⟨rfl, rfl⟩
    | more hsome _ =>
      rw [hnone] at hsome
      cases hsome
  | more hsome _ ih =>
    cases h' with
    | done hnone =>
      rw [hsome] at hnone
      cases hnone
    | more hsome' hrest =>
      rw [hsome] at hsome'
      cases hsome'
      obtain ⟨rfl, rfl⟩ := ih hrest
      exact ⟨rfl, rfl⟩

/-- Everything ahead is read, and nothing else. -/
theorem yields_ahead (c : Cursor) : c.Yields c.ahead (c.skip c.ahead.length) := by
  obtain ⟨ps, hps⟩ : ∃ ps, c.ahead = ps := ⟨_, rfl⟩
  induction ps generalizing c with
  | nil =>
    rw [hps]
    exact .done (by rw [peek, hps, List.head?_nil])
  | cons p ps ih =>
    have hadvance : c.advance.ahead = ps := by simp [advance, hps]
    have hrest := ih c.advance hadvance
    rw [hadvance] at hrest
    have hskip : c.skip (ps.length + 1) = c.advance.skip ps.length := by simp [skip, hps]
    rw [hps, List.length_cons, hskip]
    exact .more (by rw [peek, hps, List.head?_cons]) hrest

theorem length_ahead_ofRegion (units : Array UInt16) (first last : Nat) :
    (ofRegion units first last).ahead.length
      ≤ (ofRegion units first last).limit - (ofRegion units first last).start := by
  have hlimit : (ofRegion units first last).limit ≤ units.size := Nat.min_le_right _ _
  calc (ofRegion units first last).ahead.length
    _ ≤ width (ofRegion units first last).ahead := Utf16.length_le_width _
    _ = _ := width_slice units hlimit

theorem stop_skip_ofRegion (units : Array UInt16) (first last : Nat) :
    ((ofRegion units first last).skip (ofRegion units first last).ahead.length).stop
      = (ofRegion units first last).limit := by
  rw [skip_eq, List.take_length]
  exact ofRegion_stop_add_width units first last

theorem ofRegion_encode_ahead (text : String) :
    (ofRegion (Utf16.encode text).toArray 0 (Utf16.encode text).length).ahead
      = text.toList.map Char.toNat := by
  rw [← Utf16.decode_encode]
  exact ofRegion_ahead_all (Utf16.encode text).toArray

/-- Reading a region from its start ends, and does so in one way only: after no more steps than the
region has units, at its end, with an exact reading of its units. Over all units of a string it
reads the characters of the string, and skipping some of them ends behind their units. -/
theorem decodes_exactly :
    (∀ (units : Array UInt16) (first last : Nat), ∃ ps d,
      (∀ ps' d', (ofRegion units first last).Yields ps' d' ↔ ps' = ps ∧ d' = d) ∧
        ps.length ≤ (ofRegion units first last).limit - (ofRegion units first last).start ∧
        d.stop = (ofRegion units first last).limit ∧
        Utf16.IsReading (units.extract (ofRegion units first last).start
          (ofRegion units first last).limit).toList ps) ∧
      ∀ text : String,
        (∃ d, (ofRegion (Utf16.encode text).toArray 0 (Utf16.encode text).length).Yields
          (text.toList.map Char.toNat) d) ∧
        ∀ k, ((ofRegion (Utf16.encode text).toArray 0 (Utf16.encode text).length).skip k).stop
          = (Utf16.encode (String.ofList (text.toList.take k))).length := by
  refine ⟨?_, ?_⟩
  · intro units first last
    have hyields := (ofRegion units first last).yields_ahead
    refine ⟨(ofRegion units first last).ahead, _, fun ps d => ⟨hyields.unique, ?_⟩, ?_, ?_, ?_⟩
    · rintro ⟨rfl, rfl⟩
      exact hyields
    · exact length_ahead_ofRegion units first last
    · exact stop_skip_ofRegion units first last
    · exact Utf16.isReading_decode _
  · intro text
    have hahead := ofRegion_encode_ahead text
    refine ⟨⟨_, hahead ▸ yields_ahead _⟩, fun k => ?_⟩
    rw [skip_eq, hahead, Utf16.length_encode (String.ofList _), String.toList_ofList, List.map_take]
    simp [ofRegion]

end Cursor

end XQuery
