import XQuery.Proofs.Text.Cursor

/-!
# Writing and reading units

Writing code points as units and reading them again are inverse to one
another: every sequence of units is written by the code points that are read
from it, also where surrogates stand alone, and a string is read back from its
units character by character.
-/

namespace XQuery

namespace Utf16

/-! ## One code point -/

theorem toNat_toUInt16 {n : Nat} (h : n < 0x10000) : n.toUInt16.toNat = n := by
  simpa using Nat.mod_eq_of_lt h

theorem encodePoint_unit (u : UInt16) : encodePoint u.toNat = [u] := by
  have hu : u.toNat < 0x10000 := u.toNat_lt
  rw [encodePoint, if_pos hu, UInt16.toNat_inj.mp (toNat_toUInt16 hu)]

theorem encodePoint_combine {u v : UInt16} (h : (isHigh u && isLow v) = true) :
    encodePoint (combine u v) = [u, v] := by
  simp only [isHigh, isLow, Bool.and_eq_true, decide_eq_true_eq] at h
  obtain ⟨⟨hu, hu'⟩, ⟨hv, hv'⟩⟩ := h
  obtain ⟨p, hp⟩ : ∃ p : Nat, combine u v = p := ⟨_, rfl⟩
  have hpair : p = 0x10000 + (u.toNat - 0xD800) * 0x400 + (v.toNat - 0xDC00) := hp.symm
  have hnot : ¬p < 0x10000 := by omega
  have hhigh : 0xD800 + (p - 0x10000) / 0x400 = u.toNat := by omega
  have hlow : 0xDC00 + (p - 0x10000) % 0x400 = v.toNat := by omega
  rw [hp, encodePoint, if_neg hnot, hhigh, hlow, UInt16.toNat_inj.mp (toNat_toUInt16 u.toNat_lt),
    UInt16.toNat_inj.mp (toNat_toUInt16 v.toNat_lt)]

/-- A code point above the units is written as a pair. -/
theorem exists_pair {n : Nat} (hge : 0x10000 ≤ n) (hlt : n < 0x110000) :
    ∃ u v, encodePoint n = [u, v] ∧ (isHigh u && isLow v) = true ∧ combine u v = n := by
  have hu := toNat_toUInt16 (n := 0xD800 + (n - 0x10000) / 0x400) (by omega)
  have hv := toNat_toUInt16 (n := 0xDC00 + (n - 0x10000) % 0x400) (by omega)
  refine ⟨_, _, if_neg (Nat.not_lt.mpr hge), ?_, ?_⟩
  · simp only [isHigh, isLow, hu, hv, Bool.and_eq_true, decide_eq_true_eq]
    omega
  · show 0x10000 + (_ - 0xD800) * 0x400 + (_ - 0xDC00) = n
    rw [hu, hv]
    omega

/-- The code points read from units write these units. -/
theorem flatMap_encodePoint_decode (us : List UInt16) : (decode us).flatMap encodePoint = us := by
  fun_induction decode us with
  | case1 => rfl
  | case2 u => simp [encodePoint_unit]
  | case3 u v rest hpair ih => simp [encodePoint_combine hpair, ih]
  | case4 u v rest hpair ih => simp [encodePoint_unit, ih]

/-! ## Strings -/

/-- A unit that is no first half of a pair stands for itself. -/
theorem decode_cons_of_not_high {u : UInt16} (h : isHigh u = false) (us : List UInt16) :
    decode (u :: us) = u.toNat :: decode us := by
  cases us with
  | nil => rfl
  | cons v us => simp [decode, h]

/-- A character is no surrogate, so that the units of one character are read as this character. -/
theorem decode_encodePoint_append (c : Char) (us : List UInt16) :
    decode (encodePoint c.toNat ++ us) = c.toNat :: decode us := by
  have hvalid : c.toNat < 0xD800 ∨ 0xDFFF < c.toNat ∧ c.toNat < 0x110000 := c.valid
  by_cases hc : c.toNat < 0x10000
  · have hnat := toNat_toUInt16 hc
    have hhigh : isHigh c.toNat.toUInt16 = false := by
      simp only [isHigh, hnat, Bool.and_eq_false_iff, decide_eq_false_iff_not]
      omega
    rw [encodePoint, if_pos hc, List.singleton_append, decode_cons_of_not_high hhigh, hnat]
  · obtain ⟨u, v, hunits, hpair, hcombine⟩ := exists_pair (Nat.not_lt.mp hc) (by omega)
    rw [hunits, List.cons_append, List.cons_append, List.nil_append, decode, if_pos hpair,
      hcombine]

/-- The characters of a string are read back from its units. -/
theorem decode_encode (s : String) : decode (encode s) = s.toList.map Char.toNat := by
  unfold encode
  induction s.toList with
  | nil => rfl
  | cons c cs ih => rw [List.flatMap_cons, decode_encodePoint_append, ih, List.map_cons]

theorem toChar_toNat (c : Char) : toChar c.toNat = c := by
  have hvalid : c.toNat.isValidChar := c.valid
  rw [toChar, if_pos hvalid, Char.ofNat_toNat]

/-- Code points of characters are shown as these characters. -/
theorem map_toChar_toNat (cs : List Char) : (cs.map Char.toNat).map toChar = cs := by
  simp [Function.comp_def, toChar_toNat]

/-- Units in which no surrogate stands alone are the units of the string that they show. -/
theorem encode_text {us : List UInt16} (h : ∀ p ∈ decode us, (toChar p).toNat = p) :
    encode (text us) = us := by
  have hpoints : ((decode us).map toChar).map Char.toNat = decode us := by
    rw [List.map_map, show (decode us).map (Char.toNat ∘ toChar) = (decode us).map id from
      List.map_congr_left h, List.map_id]
  rw [encode, text, String.toList_ofList, ← List.flatMap_map, hpoints,
    flatMap_encodePoint_decode]

/-! ## Parts of a text -/

/-- The first code points are read from the first units. -/
theorem decode_take_width (us : List UInt16) (n : Nat) :
    decode (us.take (width ((decode us).take n))) = (decode us).take n := by
  fun_induction decode us generalizing n with
  | case1 => simp [decode]
  | case2 u =>
    cases n with
    | zero => simp [decode]
    | succ n => simp [width_unit, decode]
  | case3 u v rest hpair ih =>
    cases n with
    | zero => simp [decode]
    | succ n =>
      simp only [List.take_succ_cons, width_cons, width_combine]
      rw [show 2 + width ((decode rest).take n) = width ((decode rest).take n) + 1 + 1 from by
        omega]
      simp only [List.take_succ_cons, decode, hpair, if_true, ih]
  | case4 u v rest hpair ih =>
    cases n with
    | zero => simp [decode]
    | succ n =>
      simp only [List.take_succ_cons, width_cons, width_unit]
      have ih := ih n
      generalize width ((decode (v :: rest)).take n) = w at ih
      rw [Nat.add_comm, List.take_succ_cons, ← ih]
      -- the cut behind the first unit leaves it alone, or the second unit stays next to it
      cases w with
      | zero => simp [decode]
      | succ w => simp only [List.take_succ_cons, decode, hpair, Bool.false_eq_true, if_false]

end Utf16

namespace Cursor

open Utf16 (width)

/-- The first code points of a slice are the slice of their units. -/
theorem slice_width (units : Array UInt16) (first last n : Nat) :
    slice units first (first + width ((slice units first last).take n))
      = (slice units first last).take n := by
  have hcut := Utf16.decode_take_width (units.extract first last).toList n
  have hle := Utf16.width_take_add_drop (slice units first last) n
  rw [slice, Utf16.width_decode, toList_extract, List.length_take] at hle
  rw [toList_extract, List.take_take, Nat.min_eq_left (by omega)] at hcut
  simp only [slice, toList_extract, Nat.add_sub_cancel_left]
  exact hcut

end Cursor

end XQuery
