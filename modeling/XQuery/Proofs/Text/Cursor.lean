import XQuery.Text.Cursor

/-!
# Reading with a cursor

What a cursor has ahead is always the decoded rest of its region: decoding
may be cut at every code point, and the widths of the code points add up to
the units they were decoded from. Reading a token is then `take` and `drop`
on the code points ahead (`Cursor.Reads`), whatever the reader.
-/

namespace XQuery

namespace Utf16

/-- The number of units that write the code points. -/
def width : List CodePoint → Nat
  | [] => 0
  | c :: cs => c.width + width cs

@[simp] theorem width_nil : width [] = 0 := rfl

@[simp] theorem width_cons (c : CodePoint) (cs : List CodePoint) :
    width (c :: cs) = c.width + width cs := rfl

@[simp] theorem width_append (cs ds : List CodePoint) :
    width (cs ++ ds) = width cs + width ds := by
  induction cs with
  | nil => simp
  | cons c cs ih => simp [ih, Nat.add_assoc]

theorem width_pos (c : CodePoint) : 0 < c.width := by
  unfold CodePoint.width
  split <;> omega

theorem width_le (c : CodePoint) : c.width ≤ 2 := by
  unfold CodePoint.width
  split <;> omega

theorem length_le_width (cs : List CodePoint) : cs.length ≤ width cs := by
  induction cs with
  | nil => simp
  | cons c cs ih =>
    have hc := width_pos c
    simp only [List.length_cons, width_cons]
    omega

theorem width_take_add_drop (cs : List CodePoint) (n : Nat) :
    width (cs.take n) + width (cs.drop n) = width cs := by
  rw [← width_append, List.take_append_drop]

theorem width_take_pos {cs : List CodePoint} {n : Nat} (hpos : 0 < n) (hle : n ≤ cs.length) :
    0 < width (cs.take n) := by
  have hlength := length_le_width (cs.take n)
  rw [List.length_take, Nat.min_eq_left hle] at hlength
  omega

theorem width_unit (u : UInt16) : CodePoint.width u.toNat = 1 := by
  have hu : u.toNat < 0x10000 := u.toNat_lt
  simp [CodePoint.width, hu]

theorem width_combine (u v : UInt16) : CodePoint.width (combine u v) = 2 := by
  have hge : 0x10000 ≤ combine u v :=
    Nat.le_trans (Nat.le_add_right _ _) (Nat.le_add_right _ _)
  simp [CodePoint.width, Nat.not_lt.mpr hge]

theorem width_decode (us : List UInt16) : width (decode us) = us.length := by
  fun_induction decode us with
  | case1 => rfl
  | case2 u => simp [width_unit]
  | case3 u v rest hpair ih =>
    simp only [width_cons, width_combine, ih, List.length_cons]
    omega
  | case4 u v rest hpair ih =>
    simp only [width_cons, width_unit, ih, List.length_cons]
    omega

/-- Decoding may be cut behind every code point. -/
theorem decode_drop_width (us : List UInt16) (n : Nat) :
    decode (us.drop (width ((decode us).take n))) = (decode us).drop n := by
  fun_induction decode us generalizing n with
  | case1 => simp [decode]
  | case2 u =>
    cases n with
    | zero => simp [decode]
    | succ n => simp [width_unit, decode]
  | case3 u v rest hpair ih =>
    -- a pair is two units wide and is cut as a whole
    cases n with
    | zero => simp [decode, hpair]
    | succ n =>
      simp only [List.take_succ_cons, width_cons, width_combine, List.drop_succ_cons]
      rw [show 2 + width ((decode rest).take n) = width ((decode rest).take n) + 1 + 1 from by
        omega]
      exact ih n
  | case4 u v rest hpair ih =>
    cases n with
    | zero => simp [decode, hpair]
    | succ n =>
      simp only [List.take_succ_cons, width_cons, width_unit, List.drop_succ_cons]
      rw [show 1 + width ((decode (v :: rest)).take n)
        = width ((decode (v :: rest)).take n) + 1 from by omega]
      exact ih n

/-- Units that agree up to a place decode alike there but for at most one unit, which may be the
first half of a pair. -/
theorem exists_decode_append (us vs vs' : List UInt16) :
    ∃ w s s', decode (us ++ vs) = w ++ s ∧ decode (us ++ vs') = w ++ s' ∧
      us.length ≤ width w + 1 := by
  induction us using decode.induct with
  | case1 => exact ⟨[], _, _, rfl, rfl, Nat.zero_le _⟩
  | case2 u => exact ⟨[], _, _, rfl, rfl, Nat.le_refl _⟩
  | case3 u v us hpair ih =>
    obtain ⟨w, s, s', hs, hs', hle⟩ := ih
    refine ⟨combine u v :: w, s, s', ?_, ?_, ?_⟩
    · simp only [List.cons_append, decode, hpair, if_true, hs]
    · simp only [List.cons_append, decode, hpair, if_true, hs']
    · simp only [List.length_cons, width_cons, width_combine]
      omega
  | case4 u v us hpair ih =>
    obtain ⟨w, s, s', hs, hs', hle⟩ := ih
    rw [List.cons_append] at hs hs'
    refine ⟨u.toNat :: w, s, s', ?_, ?_, ?_⟩
    · rw [List.cons_append, List.cons_append, decode, if_neg hpair, hs, List.cons_append]
    · rw [List.cons_append, List.cons_append, decode, if_neg hpair, hs', List.cons_append]
    · simp only [List.length_cons, width_cons, width_unit] at hle ⊢
      omega

end Utf16

open Utf16 (width)

namespace Cursor

theorem toList_extract (units : Array UInt16) (first last : Nat) :
    (units.extract first last).toList = (units.toList.drop first).take (last - first) := by
  simp [List.extract_eq_take_drop]

/-- What lies ahead after the first code points of a slice is the slice from there on. -/
theorem slice_add_width (units : Array UInt16) (first last n : Nat) :
    slice units (first + width ((slice units first last).take n)) last
      = (slice units first last).drop n := by
  have hcut := Utf16.decode_drop_width (units.extract first last).toList n
  rw [toList_extract, List.drop_take, List.drop_drop] at hcut
  unfold slice
  rw [toList_extract, toList_extract, ← hcut]
  congr 2
  omega

theorem width_slice (units : Array UInt16) {first last : Nat} (hlast : last ≤ units.size) :
    width (slice units first last) = last - first := by
  rw [slice, Utf16.width_decode, toList_extract]
  simp only [List.length_take, List.length_drop, Array.length_toList]
  omega

/-- `d` is `c` after one token of `n` code points has been read. -/
structure Reads (c : Cursor) (n : Nat) (d : Cursor) : Prop where
  start : d.start = c.stop
  stop : d.stop = c.stop + width (c.ahead.take n)
  ahead : d.ahead = c.ahead.drop n

theorem skip_eq (c : Cursor) (n : Nat) :
    c.skip n = { c with stop := c.stop + width (c.ahead.take n), ahead := c.ahead.drop n } := by
  induction n generalizing c with
  | zero => simp [skip]
  | succ n ih =>
    obtain ⟨units, start, stop, limit, ahead, saved⟩ := c
    cases ahead with
    | nil => simp [skip]
    | cons p rest => simp [skip, advance, ih, Nat.add_assoc]

theorem reads_skip (c : Cursor) (n : Nat) : c.Reads n (c.flush.skip n) := by
  rw [skip_eq]
  exact ⟨rfl, rfl, rfl⟩

/-- A reader that takes over where another found nothing reads from the same place. -/
theorem Reads.resume {c d e : Cursor} {n : Nat} (h : c.Reads 0 d) (h' : d.resume.Reads n e) :
    c.Reads n e := by
  have hstop : d.stop = c.stop := by simpa using h.stop
  have hahead : d.ahead = c.ahead := by simpa using h.ahead
  refine ⟨?_, ?_, ?_⟩
  · rw [h'.start]
    exact hstop
  · rw [h'.stop]
    simp only [Cursor.resume, hstop, hahead]
  · rw [h'.ahead]
    simp only [Cursor.resume, hahead]

/-- Reading moves the cursor towards the end of the region and never past it. -/
theorem Reads.stop_add_width {c d : Cursor} {n : Nat} (h : c.Reads n d) :
    d.stop + width d.ahead = c.stop + width c.ahead := by
  rw [h.stop, h.ahead, Nat.add_assoc, Utf16.width_take_add_drop]

theorem ofRegion_stop_add_width (units : Array UInt16) (first last : Nat) :
    (ofRegion units first last).stop + width (ofRegion units first last).ahead
      = min last units.size := by
  simp only [ofRegion]
  rw [width_slice units (Nat.min_le_right _ _)]
  omega

theorem ofRegion_stop_all (units : Array UInt16) : (ofRegion units 0 units.size).stop = 0 := by
  simp [ofRegion]

theorem ofRegion_ahead_all (units : Array UInt16) :
    (ofRegion units 0 units.size).ahead = Utf16.decode units.toList := by
  simp [ofRegion, slice]

/-- A region that starts behind the first code points of another one is the rest of it. -/
theorem ofRegion_add_width (units : Array UInt16) (first last n : Nat) :
    (ofRegion units ((ofRegion units first last).stop
        + width ((ofRegion units first last).ahead.take n)) last).stop
      = (ofRegion units first last).stop + width ((ofRegion units first last).ahead.take n) ∧
    (ofRegion units ((ofRegion units first last).stop
        + width ((ofRegion units first last).ahead.take n)) last).ahead
      = (ofRegion units first last).ahead.drop n := by
  have hwidth := ofRegion_stop_add_width units first last
  have hsplit := Utf16.width_take_add_drop (ofRegion units first last).ahead n
  have hstop : min ((ofRegion units first last).stop
      + width ((ofRegion units first last).ahead.take n)) (min last units.size)
      = (ofRegion units first last).stop + width ((ofRegion units first last).ahead.take n) := by
    omega
  refine ⟨hstop, ?_⟩
  rw [show (ofRegion units first last).ahead.drop n = _ from (slice_add_width units _ _ n).symm]
  simp only [ofRegion] at hstop ⊢
  rw [hstop]

end Cursor

end XQuery
