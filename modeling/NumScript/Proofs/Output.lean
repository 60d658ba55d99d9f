/-
  What a run writes.

  Actions write their outputs in order as long as the writer has room for them
  (`Action.written_afterAll`).  The flush at the end writes nothing, even if it fails; so what a run
  writes, however it ends, are the outputs of its trace (`Program.written_of_hasRoom`).
-/
import NumScript.Proofs.Takes

namespace NumScript

/-! ## Writers with enough room -/

/-- The writer takes at least so many more bytes. -/
def Writer.HasRoom (w : Writer) (n : Nat) : Prop :=
  ∀ limit ∈ w.room, n ≤ limit.left

namespace Writer

/-- A writer that never fails has room for any number of bytes. -/
theorem NeverFails.hasRoom {w : Writer} (sound : w.NeverFails) (n : Nat) : w.HasRoom n := by
  rw [HasRoom, sound.1]
  nofun

/-- Bytes for which there is room are written, and what other room there was is left. -/
theorem put_of_hasRoom {w : Writer} {bytes : List UInt8} {n : Nat}
    (room : w.HasRoom (bytes.length + n)) :
    (w.put bytes).2.written = w.written ++ bytes ∧ (w.put bytes).2.HasRoom n := by
  unfold put
  split
  · rename_i all
    refine ⟨rfl, ?_⟩
    rw [HasRoom, all]
    nofun
  · rename_i limit some_room
    have enough : bytes.length + n ≤ limit.left := room limit some_room
    have fits : bytes.length ≤ limit.left := Nat.le_trans (Nat.le_add_right _ _) enough
    rw [if_pos fits]
    refine ⟨congrArg (w.written ++ ·) (List.take_of_length_le fits), ?_⟩
    rintro _ ⟨⟩
    exact Nat.le_sub_of_add_le' enough

/-- A flush writes nothing. -/
theorem written_flush (w : Writer) : w.flush.2.written = w.written := by
  unfold flush
  split
  · rfl
  · split <;> rfl

/-- A flush takes no room. -/
theorem room_flush (w : Writer) : w.flush.2.room = w.room := by
  unfold flush
  split
  · rfl
  · split <;> rfl

end Writer

namespace Action

/-- An action whose output has room writes it, and leaves what other room there was. -/
theorem after_perform_of_hasRoom (action : Action) {s : Session} {n : Nat}
    (room : s.writer.HasRoom (action.output.length + n)) :
    (action.perform.after s).writer.written = s.writer.written ++ action.output ∧
      (action.perform.after s).writer.HasRoom n := by
  have quiet (room : s.writer.HasRoom (0 + n)) :
      s.writer.written = s.writer.written ++ [] ∧ s.writer.HasRoom n :=
    ⟨(List.append_nil _).symm, Nat.zero_add n ▸ room⟩
  have put (text : String) (room : s.writer.HasRoom ((Text.encode text).length + n)) :
      ((Effect.write text).after s).writer.written = s.writer.written ++ Text.encode text ∧
        ((Effect.write text).after s).writer.HasRoom n := by
    rw [Effect.after_write]
    exact Writer.put_of_hasRoom room
  cases action with
  | assign name value => exact quiet room
  | read keyword => exact quiet room
  | print keyword value => exact put _ room
  | prompt keyword text =>
    refine Effect.after_bind (P := fun u =>
      u.writer.written = s.writer.written ++ Text.encode text ∧ u.writer.HasRoom n)
      (put text room) fun _ v written => ?_
    rw [Effect.after_flush]
    show v.writer.flush.2.written = _ ∧ v.writer.flush.2.HasRoom n
    rw [Writer.HasRoom, Writer.written_flush, Writer.room_flush]
    exact written

/-- Where there is room for all outputs, they are written in order. -/
theorem written_afterAll {actions : List Action} {s : Session}
    (room : s.writer.HasRoom (actions.flatMap output).length) :
    (afterAll actions s).writer.written = s.writer.written ++ actions.flatMap output := by
  induction actions generalizing s with
  | nil => exact (List.append_nil _).symm
  | cons action rest ih =>
    rw [List.flatMap_cons, List.length_append] at room
    obtain ⟨written, left⟩ := action.after_perform_of_hasRoom room
    show (afterAll rest (action.perform.after s)).writer.written = _
    rw [ih left, written, List.flatMap_cons, List.append_assoc]

end Action

/-- Where there is room for all outputs of a run, it writes them in order. -/
theorem Program.written_of_hasRoom (p : Program) {s : Session}
    (room : s.writer.HasRoom ((p.trace s).flatMap Action.output).length) :
    (p.run.after s).writer.written = s.writer.written ++ (p.trace s).flatMap Action.output := by
  rw [run, Effect.after_thenAlways_flush, (Stmt.does_execAll p.body).after_eq]
  show (Action.afterAll (p.trace s) s).writer.flush.2.written = _
  rw [Writer.written_flush, Action.written_afterAll room]

end NumScript
