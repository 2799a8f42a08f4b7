import Mathlib.Data.List.Induction
import Mathlib.Tactic.ByContra
import XQuery.Proofs.Text.Cursor

/-!
# Calls on a cursor

A cursor is known by the calls that have been made on it. Whatever they are,
it stays inside its region, and what it has ahead is the decoded rest of the
region (`Cursor.placed_run`). The token never ends before it starts, provided
that no restore goes back past a flush: the calls are `Disciplined`.
-/

namespace XQuery.Cursor

open Utf16 (width)

/-- A call on a cursor. -/
inductive Call where
  /-- Begin to read the region of a buffer. -/
  | start (units : Array UInt16) (first last : Nat)
  | advance
  | skip (n : Nat)
  | flush
  | save
  | restore
deriving DecidableEq

/-- The cursor after the call. -/
def Call.apply : Call → Cursor → Cursor
  | start units first last, _ => ofRegion units first last
  | advance, c => c.advance
  | skip n, c => c.skip n
  | flush, c => c.flush
  | save, c => c.save
  | restore, c => c.restore

/-- The cursor after the calls on a new one. -/
def run (calls : List Call) : Cursor := calls.foldl (fun c call => call.apply c) {}

@[simp] theorem run_concat (calls : List Call) (call : Call) :
    run (calls ++ [call]) = call.apply (run calls) := by
  simp [run]

/-! ## Staying inside the region -/

/-- The cursor lies inside its region, and the rest of the region is ahead. -/
structure Placed (c : Cursor) : Prop where
  start_le : c.start ≤ c.limit
  stop_le : c.stop ≤ c.limit
  saved_le : c.saved ≤ c.limit
  limit_le : c.limit ≤ c.units.size
  ahead : c.ahead = slice c.units c.stop c.limit

theorem advance_eq_skip (c : Cursor) : c.advance = c.skip 1 := by
  cases hc : c.ahead with
  | nil => simp [advance, skip, hc]
  | cons p ps => simp [skip, hc]

theorem placed_ofRegion (units : Array UInt16) (first last : Nat) :
    (ofRegion units first last).Placed where
  start_le := Nat.min_le_right _ _
  stop_le := Nat.min_le_right _ _
  saved_le := Nat.min_le_right _ _
  limit_le := Nat.min_le_right _ _
  ahead := rfl

theorem Placed.stop_add_width_le {c : Cursor} (h : c.Placed) (n : Nat) :
    c.stop + width (c.ahead.take n) ≤ c.limit := by
  have hstop := h.stop_le
  have hwidth : width c.ahead = c.limit - c.stop := by rw [h.ahead, width_slice _ h.limit_le]
  have hsplit := Utf16.width_take_add_drop c.ahead n
  omega

theorem Placed.skip {c : Cursor} (h : c.Placed) (n : Nat) : (c.skip n).Placed := by
  rw [skip_eq]
  refine ⟨h.start_le, h.stop_add_width_le n, h.saved_le, h.limit_le, ?_⟩
  simp only
  rw [h.ahead, slice_add_width]

theorem Placed.apply {c : Cursor} (h : c.Placed) (call : Call) : (call.apply c).Placed := by
  cases call with
  | start units first last => exact placed_ofRegion units first last
  | advance =>
    rw [Call.apply, advance_eq_skip]
    exact h.skip 1
  | skip n => exact h.skip n
  | flush => exact ⟨h.stop_le, h.stop_le, h.saved_le, h.limit_le, h.ahead⟩
  | save => exact ⟨h.start_le, h.stop_le, h.stop_le, h.limit_le, h.ahead⟩
  | restore => exact ⟨h.start_le, h.saved_le, h.saved_le, h.limit_le, rfl⟩

theorem placed_new : Placed {} :=
  ⟨Nat.le_refl _, Nat.le_refl _, Nat.le_refl _, Nat.le_refl _, rfl⟩

theorem placed_run (calls : List Call) : (run calls).Placed := by
  induction calls using List.reverseRecOn with
  | nil => exact placed_new
  | append_singleton calls call ih =>
    rw [run_concat]
    exact ih.apply call

/-! ## Checkpoints -/

/-- The calls that set the checkpoint. -/
def Call.marks : Call → Bool
  | start _ _ _ | save => true
  | _ => false

/-- No flush has followed the latest call that set the checkpoint. -/
def Unflushed (calls : List Call) : Prop :=
  ∀ before call between, calls = before ++ call :: between → call.marks = true →
    (∀ c ∈ between, c.marks = false) → .flush ∉ between

/-- No flush lies between a restore and the latest call before it that set the checkpoint. -/
def Disciplined (calls : List Call) : Prop :=
  ∀ before after, calls = before ++ .restore :: after → Unflushed before

theorem Disciplined.of_not_mem {calls : List Call} (h : .restore ∉ calls) : Disciplined calls := by
  rintro before after rfl
  exact absurd (by simp) h

theorem Disciplined.of_append {calls more : List Call} (h : Disciplined (calls ++ more)) :
    Disciplined calls := by
  rintro before after rfl
  exact h before (after ++ more) (by simp)

theorem Disciplined.concat {calls : List Call} (h : Disciplined calls) {call : Call}
    (hcall : call ≠ .restore) : Disciplined (calls ++ [call]) := by
  intro before after heq
  rcases List.eq_nil_or_concat after with rfl | ⟨rest, last, rfl⟩
  · exact absurd (List.append_inj' heq rfl).2 (by simpa using hcall)
  · rw [List.concat_eq_append, ← List.cons_append, ← List.append_assoc] at heq
    exact h before rest (List.append_inj' heq rfl).1

theorem Unflushed.of_concat {calls : List Call} {call : Call} (hcall : call.marks = false)
    (h : Unflushed (calls ++ [call])) : Unflushed calls := by
  rintro before mark between rfl hmark hbetween hflush
  refine h before mark (between ++ [call]) (by simp) hmark ?_ (List.mem_append_left _ hflush)
  exact List.forall_mem_append.mpr ⟨hbetween, by simpa using hcall⟩

theorem exists_latest {calls : List Call} (h : ∃ c ∈ calls, c.marks = true) :
    ∃ before call between, calls = before ++ call :: between ∧ call.marks = true ∧
      ∀ c ∈ between, c.marks = false := by
  induction calls using List.reverseRecOn with
  | nil => simp at h
  | append_singleton calls last ih =>
    cases hlast : last.marks with
    | true => exact ⟨calls, last, [], rfl, hlast, nofun⟩
    | false =>
      obtain ⟨c, hc, hmark⟩ := h
      have hmem : c ∈ calls := by
        rcases List.mem_append.mp hc with hc | hc
        · exact hc
        · rw [List.mem_singleton.mp hc, hlast] at hmark
          cases hmark
      obtain ⟨before, call, between, rfl, hcall, hbetween⟩ := ih ⟨c, hmem, hmark⟩
      refine ⟨before, call, between ++ [last], by simp, hcall, ?_⟩
      exact List.forall_mem_append.mpr ⟨hbetween, by simpa using hlast⟩

/-- A cursor that has never been started stays as it was. -/
theorem run_of_not_marks {calls : List Call} (h : ∀ c ∈ calls, c.marks = false) :
    run calls = {} := by
  induction calls using List.reverseRecOn with
  | nil => rfl
  | append_singleton calls call ih =>
    obtain ⟨hcalls, hcall⟩ := List.forall_mem_append.mp h
    have hcall := hcall call List.mem_cons_self
    rw [run_concat, ih hcalls]
    cases call with
    | start units first last => cases hcall
    | save => cases hcall
    | skip n => cases n <;> rfl
    | advance | flush | restore => rfl

/-- A flush leaves the checkpoint behind, unless none has ever been set. -/
theorem run_of_unflushed_flush {calls : List Call} (h : Unflushed (calls ++ [.flush])) :
    run calls = {} := by
  refine run_of_not_marks fun c hc => ?_
  by_contra hmark
  obtain ⟨before, call, between, rfl, hcall, hbetween⟩ :=
    exists_latest ⟨c, hc, (Bool.not_eq_false _).mp hmark⟩
  refine h before call (between ++ [.flush]) (by simp) hcall ?_ (by simp)
  exact List.forall_mem_append.mpr ⟨hbetween, by simp [Call.marks]⟩

/-- The token never ends before it starts, and neither does the checkpoint lie before it as long as
no flush has passed the checkpoint. -/
theorem start_le_of_disciplined {calls : List Call} (h : Disciplined calls) :
    (run calls).start ≤ (run calls).stop ∧
      (Unflushed calls → (run calls).start ≤ (run calls).saved) := by
  induction calls using List.reverseRecOn with
  | nil => exact ⟨Nat.le_refl _, fun _ => Nat.le_refl _⟩
  | append_singleton calls call ih =>
    obtain ⟨hstop, hsaved⟩ := ih h.of_append
    rw [run_concat]
    cases call with
    | start units first last => exact ⟨Nat.le_refl _, fun _ => Nat.le_refl _⟩
    | advance =>
      rw [Call.apply, advance_eq_skip, skip_eq]
      exact ⟨Nat.le_add_right_of_le hstop, fun hun => hsaved (hun.of_concat rfl)⟩
    | skip n =>
      rw [Call.apply, skip_eq]
      exact ⟨Nat.le_add_right_of_le hstop, fun hun => hsaved (hun.of_concat rfl)⟩
    | flush =>
      refine ⟨Nat.le_refl _, fun hun => ?_⟩
      rw [run_of_unflushed_flush hun]
      exact Nat.le_refl _
    | save => exact ⟨hstop, fun _ => hstop⟩
    | restore =>
      have hun : Unflushed calls := h calls [] rfl
      exact ⟨hsaved hun, fun _ => hsaved hun⟩

theorem text?_isSome {c : Cursor} (h : c.start ≤ c.stop) : c.text?.isSome = true := by
  rw [text?, if_pos h]
  rfl

/-! ## The calls of one token -/

/-- Calls that go back only to checkpoints which they have set themselves: they flush nothing, and
in front of each restore there is a save. -/
structure OwnCheckpoints (calls : List Call) : Prop where
  flush : .flush ∉ calls
  restore : ∀ before after, calls = before ++ .restore :: after → .save ∈ before

theorem OwnCheckpoints.save {calls : List Call} (h : .flush ∉ calls) :
    OwnCheckpoints (.save :: calls) := by
  refine ⟨by simpa using h, ?_⟩
  intro before after heq
  cases before with
  | nil => cases heq
  | cons c before =>
    obtain ⟨rfl, _⟩ := List.cons.inj heq
    exact List.mem_cons_self

theorem OwnCheckpoints.append {calls more : List Call} (h : OwnCheckpoints calls)
    (h' : OwnCheckpoints more) : OwnCheckpoints (calls ++ more) := by
  refine ⟨fun hmem => (List.mem_append.mp hmem).elim h.flush h'.flush, ?_⟩
  intro before after heq
  rcases List.append_eq_append_iff.mp heq with ⟨mid, rfl, hmore⟩ | ⟨mid, hcalls, hrest⟩
  · exact List.mem_append_right _ (h'.restore mid after hmore)
  · cases mid with
    | nil => exact absurd (h'.restore [] after hrest.symm) (by simp)
    | cons c mid =>
      cases hrest
      exact h.restore before mid hcalls

theorem unflushed_append {calls own : List Call} (hflush : .flush ∉ own) (hsave : .save ∈ own) :
    Unflushed (calls ++ own) := by
  intro before call between heq hcall hbetween hmem
  rcases List.append_eq_append_iff.mp heq with ⟨mid, rfl, hown⟩ | ⟨mid, hcalls, hrest⟩
  · -- the latest checkpoint is one of their own
    exact hflush (by simp [hown, hmem])
  · cases mid with
    | nil =>
      cases hrest
      exact hflush (List.mem_cons_of_mem _ hmem)
    | cons c mid =>
      -- the checkpoint of their own would lie behind the latest one
      cases hrest
      exact absurd (hbetween _ (List.mem_append_right _ hsave)) (by simp [Call.marks])

/-- Beginning a token and reading it with checkpoints of its own keeps the discipline. -/
theorem Disciplined.append {calls own : List Call} (h : Disciplined calls)
    (hown : OwnCheckpoints own) : Disciplined (calls ++ .flush :: own) := by
  intro before after heq
  rcases List.append_eq_append_iff.mp heq with ⟨mid, rfl, hmid⟩ | ⟨mid, hcalls, hrest⟩
  · cases mid with
    | nil => cases hmid
    | cons c mid =>
      cases hmid
      have hsave := hown.restore mid after rfl
      have hflush : .flush ∉ mid := fun hmem => hown.flush (by simp [hmem])
      rw [show calls ++ .flush :: mid = (calls ++ [.flush]) ++ mid from by simp]
      exact unflushed_append hflush hsave
  · cases mid with
    | nil => cases hrest
    | cons c mid =>
      cases hrest
      exact h before mid hcalls

end XQuery.Cursor
