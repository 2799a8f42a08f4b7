import XQuery.Proofs.Lexer.DocumentationWork

/-!
# Checkpoints

A lexer looks ahead by setting a checkpoint and going back to it. There is one
checkpoint for all its places, and it outlives the token; going back to one
that was set for an earlier token would end the token before it starts. The
lexers never do: whatever is asked of them, they go back only to checkpoints
that they have set since they began the token (`Machine.ownsCheckpoints`), and
so every token has a text (`Cursor.run_bounds`).
-/

namespace XQuery

open Cursor (Disciplined OwnCheckpoints)

namespace Machine

/-- The machine answers all requests as the lexer of the rule does, with disciplined calls on its
cursor. Whatever is asked of it next, it begins a token and goes back only to checkpoints that it
has set since. -/
def OwnsCheckpoints (work : Work) (rule : Rule) : Prop :=
  ∀ requests : List Request, ∃ m, run work requests = some m ∧
    m.Agrees ((Lexer.ofRule rule).after (requests.map Request.call)) ∧
    Disciplined m.session.calls ∧
    ∀ request, ∃ m' own, m.perform work request = some m' ∧
      m'.session.calls = m.session.calls ++ (request.opening ++ own) ∧ OwnCheckpoints own

theorem ownsCheckpoints {work : Work} {rule : Rule} (hwork : work.Implements rule) :
    OwnsCheckpoints work rule := by
  intro requests
  obtain ⟨m, hrun, hagrees, hdisciplined⟩ := run_agrees hwork requests
  refine ⟨m, hrun, hagrees, hdisciplined, fun request => ?_⟩
  obtain ⟨m', own, hperform, -, hcalls, hown⟩ := hagrees.perform hwork request
  exact ⟨m', own, hperform, hcalls, hown⟩

end Machine

/-- After every step of any calls on a new cursor, token and checkpoint end inside the region, which
lies inside the buffer. If no flush lies between a restore and the latest start or save before it,
the token moreover never ends before it starts, and so it has a text. Both lexers keep to that: in
each token they go back only to checkpoints that they have set since they began it. -/
theorem Cursor.run_bounds :
    (∀ calls steps : List Cursor.Call, steps <+: calls →
      (run steps).stop ≤ (run steps).limit ∧ (run steps).saved ≤ (run steps).limit ∧
      (run steps).start ≤ (run steps).limit ∧ (run steps).limit ≤ (run steps).units.size ∧
      (Disciplined calls →
        (run steps).start ≤ (run steps).stop ∧ (run steps).text?.isSome = true)) ∧
    Machine.OwnsCheckpoints Expression.work Expression.rule ∧
    Machine.OwnsCheckpoints Documentation.work Documentation.rule := by
  refine ⟨?_, Machine.ownsCheckpoints Expression.work_implements,
    Machine.ownsCheckpoints Documentation.work_implements⟩
  rintro calls steps ⟨more, rfl⟩
  have hplaced := placed_run steps
  refine ⟨hplaced.stop_le, hplaced.saved_le, hplaced.start_le, hplaced.limit_le, fun h => ?_⟩
  have hle := (start_le_of_disciplined h.of_append).1
  exact ⟨hle, text?_isSome hle⟩

/-- Look past the second token, whose surrogate is cut off from the other half, and go back. -/
def Cursor.lookBack : List Cursor.Call :=
  [.start #[0x61, 0xD83D, 0xDE00] 0 2, .advance, .flush, .save, .skip 2, .restore]

theorem Cursor.run_bounds_lookBack :
    Disciplined lookBack ∧ (run lookBack).start ≤ (run lookBack).stop ∧
      (run lookBack).text?.isSome = true := by
  have hbegun : Disciplined [.start #[0x61, 0xD83D, 0xDE00] 0 2, .advance] :=
    .of_not_mem (by decide)
  have hcalls : Disciplined lookBack := hbegun.append (.save (by decide))
  exact ⟨hcalls, (run_bounds.1 lookBack lookBack (List.prefix_refl _)).2.2.2.2 hcalls⟩

-- a restore past a flush leaves a token without a text
example : (Cursor.run [.start #[0x61] 0 1, .advance, .flush, .restore]).text? = none := by decide

end XQuery
