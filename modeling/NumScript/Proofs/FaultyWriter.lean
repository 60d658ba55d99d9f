/-
  Runs whose writer fails.

  A writer may take only so many bytes, or only so many flushes.  Such a fault changes nothing
  before it shows and ends the run where it shows: at the print or prompt whose bytes do not fit, or
  at the prompt that cannot be flushed.  No variable is assigned and no line is read after that.
  The flush at the end of a run fails too, and takes the place of the result, if there are no
  flushes left for it (`Program.run_faulty_writer`).

  A run does the actions of its trace with any writer, up to the first that fails
  (`Effect.Replays`).  So it is enough to look at lists of actions, where the two faults are
  followed action by action: one that fits, or has a flush if it needs one, leads to the same
  session with less left (`Action.performAll_capped`, `Action.performAll_flushing`), and one that
  does not is the last.
-/
import NumScript.Proofs.Actions

namespace NumScript

/-! ## Sessions with a fault to come -/

namespace Session

/-- The session with a writer that holds no more than `total` bytes. -/
def capped (s : Session) (total : Nat) (failure : IoFailure) : Session :=
  { s with writer :=
    { written := s.writer.written, room := some ⟨total - s.writer.written.length, failure⟩ } }

/-- The session with a writer that takes only `n` more flushes. -/
def flushing (s : Session) (n : Nat) (failure : IoFailure) : Session :=
  { s with writer := { written := s.writer.written, flushes := some ⟨n, failure⟩ } }

end Session

variable {s u : Session} {total n : Nat} {failure : IoFailure}

namespace Effect

/-! ### Room for bytes -/

/-- A text that fits is written, and leaves less room. -/
theorem write_capped (text : String)
    (fits : (s.wrote (Text.encode text)).writer.written.length ≤ total) :
    write text (s.capped total failure) =
      .ok () ((s.wrote (Text.encode text)).capped total failure) := by
  have length : (s.wrote (Text.encode text)).writer.written.length =
      s.writer.written.length + (Text.encode text).length := List.length_append
  have enough : (Text.encode text).length ≤ total - s.writer.written.length := by omega
  have left : total - s.writer.written.length - (Text.encode text).length =
      total - (s.wrote (Text.encode text)).writer.written.length := by omega
  unfold write Writer.put
  simp only [Session.capped, if_pos enough, List.take_of_length_le enough, left]
  rfl

/-- Of a text that does not fit the bytes that fit are written. -/
theorem write_capped_of_lt (text : String)
    (before : s.writer.written.length ≤ total)
    (exceeds : total < (s.wrote (Text.encode text)).writer.written.length) :
    write text (s.capped total failure) =
      .error (.io failure) { s with writer :=
        { written := (s.wrote (Text.encode text)).writer.written.take total
          room := some ⟨0, failure⟩ } } := by
  have length : (s.wrote (Text.encode text)).writer.written.length =
      s.writer.written.length + (Text.encode text).length := List.length_append
  have tooMuch : ¬ (Text.encode text).length ≤ total - s.writer.written.length := by omega
  have left : total - s.writer.written.length - (Text.encode text).length = 0 := by omega
  have taken : (s.wrote (Text.encode text)).writer.written.take total =
      s.writer.written ++ (Text.encode text).take (total - s.writer.written.length) := by
    show (s.writer.written ++ Text.encode text).take total = _
    rw [List.take_append, List.take_of_length_le before]
  unfold write Writer.put
  simp only [Session.capped, if_neg tooMuch, left, taken]
  rfl

theorem flush_capped : flush (s.capped total failure) = .ok () (s.capped total failure) := rfl

/-! ### Flushes -/

theorem write_flushing (text : String) :
    write text (s.flushing n failure) =
      .ok () ((s.wrote (Text.encode text)).flushing n failure) := rfl

theorem flush_flushing_succ :
    flush (s.flushing (n + 1) failure) = .ok () (s.flushing n failure) := rfl

theorem flush_flushing_zero :
    flush (s.flushing 0 failure) = .error (.io failure) (s.flushing 0 failure) := rfl

end Effect

open Effect

namespace Action

/-! ## Actions with a fault to come -/

/-- An action whose output fits is performed, and leaves less room. -/
theorem perform_capped {action : Action} (sound : s.writer.NeverFails)
    (performed : action.perform s = .ok () u) (fits : u.writer.written.length ≤ total) :
    action.perform (s.capped total failure) = .ok () (u.capped total failure) := by
  cases action with
  | assign name value =>
    cases performed
    rfl
  | read keyword =>
    cases performed
    rfl
  | print keyword value =>
    rw [perform, write_of_neverFails sound] at performed
    cases performed
    exact write_capped _ fits
  | prompt keyword text =>
    rw [perform, announce_of_neverFails sound] at performed
    cases performed
    rw [perform, announce, bind_of_ok (write_capped text fits)]
    exact flush_capped

/-- An action whose output does not fit fails, and changes nothing but the writer. -/
theorem perform_capped_of_lt {action : Action} (sound : s.writer.NeverFails)
    (performed : action.perform s = .ok () u) (before : s.writer.written.length ≤ total)
    (exceeds : total < u.writer.written.length) :
    action.perform (s.capped total failure) =
      .error (.io failure) { s with
        writer := { written := u.writer.written.take total, room := some ⟨0, failure⟩ } } := by
  cases action with
  | assign name value =>
    cases performed
    exact absurd exceeds (Nat.not_lt.mpr before)
  | read keyword =>
    cases performed
    exact absurd exceeds (Nat.not_lt.mpr before)
  | print keyword value =>
    rw [perform, write_of_neverFails sound] at performed
    cases performed
    exact write_capped_of_lt _ before exceeds
  | prompt keyword text =>
    rw [perform, announce_of_neverFails sound] at performed
    cases performed
    rw [perform, announce, bind_of_error (write_capped_of_lt text before exceeds)]

/-- Only a prompt needs a flush. -/
theorem perform_flushing {action : Action} (sound : s.writer.NeverFails)
    (performed : action.perform s = .ok () u) (quiet : action.isPrompt = false) :
    action.perform (s.flushing n failure) = .ok () (u.flushing n failure) := by
  cases action with
  | assign name value =>
    cases performed
    rfl
  | read keyword =>
    cases performed
    rfl
  | print keyword value =>
    rw [perform, write_of_neverFails sound] at performed
    cases performed
    exact write_flushing _
  | prompt keyword text => cases quiet

/-- What has to be flushed is a prompt for an `input`. -/
theorem exists_eq_prompt {action : Action} (asks : action.isPrompt = true) :
    ∃ keyword text, action = prompt keyword text := by
  cases action with
  | prompt keyword text => exact ⟨keyword, text, rfl⟩
  | _ => cases asks

/-- A prompt takes up one flush. -/
theorem perform_flushing_succ {action : Action} (sound : s.writer.NeverFails)
    (performed : action.perform s = .ok () u) (asks : action.isPrompt = true) :
    action.perform (s.flushing (n + 1) failure) = .ok () (u.flushing n failure) := by
  obtain ⟨keyword, text, rfl⟩ := exists_eq_prompt asks
  rw [perform, announce_of_neverFails sound] at performed
  cases performed
  rw [perform, announce, bind_of_ok (write_flushing text)]
  exact flush_flushing_succ

/-- A prompt that cannot be flushed has been written. -/
theorem perform_prompt_flushing_zero (keyword : Token) (text : String) :
    (prompt keyword text).perform (s.flushing 0 failure) =
      .error (.io failure) ((s.wrote (Text.encode text)).flushing 0 failure) := by
  rw [perform, announce, bind_of_ok (write_flushing text)]
  exact flush_flushing_zero

/-! ## Lists of actions with a fault to come -/

/-- The first of some actions, and the session that it leads to. -/
theorem exists_first {action : Action} {rest : List Action} (sound : s.writer.NeverFails)
    (performed : performAll (action :: rest) s = .ok () u) :
    ∃ v, action.perform s = .ok () v ∧ performAll rest v = .ok () u ∧ v.writer.NeverFails ∧
      v.writer.written = s.writer.written ++ action.output := by
  obtain ⟨v, first, written⟩ := action.exists_perform sound
  rw [performAll, bind_of_ok first] at performed
  exact ⟨v, first, performed, by rw [written]; exact sound, by rw [written]⟩

/-- What has been written stays. -/
theorem length_written_le {actions : List Action} (sound : s.writer.NeverFails)
    (performed : performAll actions s = .ok () u) :
    s.writer.written.length ≤ u.writer.written.length := by
  obtain ⟨v, performed', written⟩ := exists_performAll actions sound
  rw [performed] at performed'
  cases performed'
  rw [written, List.length_append]
  omega

/-- Actions whose output fits are performed as without the fault. -/
theorem performAll_capped {actions : List Action} (sound : s.writer.NeverFails)
    (performed : performAll actions s = .ok () u) (fits : u.writer.written.length ≤ total) :
    performAll actions (s.capped total failure) = .ok () (u.capped total failure) := by
  induction actions generalizing s with
  | nil =>
    cases performed
    rfl
  | cons action rest ih =>
    obtain ⟨v, first, others, sound', _⟩ := exists_first sound performed
    have fits' : v.writer.written.length ≤ total :=
      Nat.le_trans (length_written_le sound' others) fits
    rw [performAll, bind_of_ok (perform_capped sound first fits')]
    exact ih sound' others

/-- Where the output of some actions does not fit, one of them is the first whose output does not,
    and it is the last to be performed. -/
theorem exists_performAll_capped {actions : List Action} (sound : s.writer.NeverFails)
    (performed : performAll actions s = .ok () u) (start : s.writer.written.length ≤ total)
    (exceeds : total < u.writer.written.length) :
    ∃ before action after reached, actions = before ++ action :: after ∧
      performAll before s = .ok () reached ∧ reached.writer.written.length ≤ total ∧
      total < (reached.writer.written ++ action.output).length ∧
      performAll actions (s.capped total failure) =
        .error (.io failure) { reached with
          writer := { written := u.writer.written.take total, room := some ⟨0, failure⟩ } } := by
  induction actions generalizing s with
  | nil =>
    cases performed
    exact absurd exceeds (Nat.not_lt.mpr start)
  | cons action rest ih =>
    obtain ⟨v, first, others, sound', written⟩ := exists_first sound performed
    rw [performAll]
    by_cases fits : v.writer.written.length ≤ total
    · obtain ⟨before, action', after, reached, rfl, led, below, above, failed⟩ :=
        ih sound' others fits
      refine ⟨action :: before, action', after, reached, rfl, ?_, below, above, ?_⟩
      · rw [performAll, bind_of_ok first, led]
      · rw [bind_of_ok (perform_capped sound first fits), failed]
    · have above : total < v.writer.written.length := Nat.not_le.mp fits
      -- The bytes of this action that fit are the bytes of all actions that fit.
      have taken : v.writer.written.take total = u.writer.written.take total := by
        obtain ⟨u', others', later⟩ := exists_performAll rest sound'
        rw [others] at others'
        cases others'
        rw [later, List.take_append_of_le_length (Nat.le_of_lt above)]
      refine ⟨[], action, rest, s, rfl, rfl, start, written ▸ above, ?_⟩
      rw [bind_of_error (perform_capped_of_lt sound first start above), taken]

/-- Actions with no more prompts than there are flushes are performed as without the fault. -/
theorem performAll_flushing {actions : List Action} (failure : IoFailure)
    (sound : s.writer.NeverFails) (performed : performAll actions s = .ok () u)
    (enough : actions.countP isPrompt ≤ n) :
    performAll actions (s.flushing n failure) =
      .ok () (u.flushing (n - actions.countP isPrompt) failure) := by
  induction actions generalizing s n with
  | nil =>
    cases performed
    rfl
  | cons action rest ih =>
    obtain ⟨v, first, others, sound', _⟩ := exists_first sound performed
    rw [performAll]
    cases asks : action.isPrompt with
    | false =>
      rw [List.countP_cons_of_neg (by rw [asks]; exact Bool.false_ne_true)] at enough ⊢
      rw [bind_of_ok (perform_flushing sound first asks)]
      exact ih sound' others enough
    | true =>
      rw [List.countP_cons_of_pos asks] at enough ⊢
      obtain ⟨m, rfl⟩ : ∃ m, n = m + 1 := ⟨n - 1, by omega⟩
      rw [bind_of_ok (perform_flushing_succ sound first asks), Nat.add_sub_add_right]
      exact ih sound' others (by omega)

/-- Where some actions have more prompts than there are flushes, the first prompt without a flush
    is the last action to be performed, and it is written. -/
theorem exists_performAll_flushing {actions : List Action} (sound : s.writer.NeverFails)
    (performed : performAll actions s = .ok () u) (tooFew : n < actions.countP isPrompt) :
    ∃ before keyword text after reached, actions = before ++ prompt keyword text :: after ∧
      before.countP isPrompt = n ∧ performAll before s = .ok () reached ∧
      performAll actions (s.flushing n failure) =
        .error (.io failure) ((reached.wrote (Text.encode text)).flushing 0 failure) := by
  induction actions generalizing s n with
  | nil => exact absurd tooFew (Nat.not_lt_zero n)
  | cons action rest ih =>
    obtain ⟨v, first, others, sound', _⟩ := exists_first sound performed
    rw [performAll]
    cases asks : action.isPrompt with
    | false =>
      have quiet : ¬ action.isPrompt = true := by rw [asks]; exact Bool.false_ne_true
      rw [List.countP_cons_of_neg quiet] at tooFew
      obtain ⟨before, keyword, text, after, reached, rfl, count, led, failed⟩ :=
        ih sound' others tooFew
      refine ⟨action :: before, keyword, text, after, reached, rfl, ?_, ?_, ?_⟩
      · rw [List.countP_cons_of_neg quiet, count]
      · rw [performAll, bind_of_ok first, led]
      · rw [bind_of_ok (perform_flushing sound first asks), failed]
    | true =>
      rw [List.countP_cons_of_pos asks] at tooFew
      cases n with
      | zero =>
        obtain ⟨keyword, text, rfl⟩ := exists_eq_prompt asks
        refine ⟨[], keyword, text, rest, s, rfl, rfl, rfl, ?_⟩
        rw [bind_of_error (perform_prompt_flushing_zero keyword text)]
      | succ m =>
        obtain ⟨before, keyword, text, after, reached, rfl, count, led, failed⟩ :=
          ih sound' others (Nat.lt_of_succ_lt_succ tooFew)
        refine ⟨action :: before, keyword, text, after, reached, rfl, ?_, ?_, ?_⟩
        · rw [List.countP_cons_of_pos asks, count]
        · rw [performAll, bind_of_ok first, led]
        · rw [bind_of_ok (perform_flushing_succ sound first asks), failed]

end Action

/-! ## Runs -/

namespace Effect

variable {α : Type} {a : Effect α} {r : EStateM.Result Error Session α}

/-- A last effect that succeeds leaves the result as it is. -/
theorem thenAlways_of_ok {last : Effect Unit} {v : Session} (ended : a s = endIn u r)
    (succeeds : last u = .ok () v) : a.thenAlways last s = endIn v r := by
  unfold thenAlways
  rw [ended]
  cases r <;> exact bind_of_ok succeeds

/-- The error of a last effect that fails takes the place of the result. -/
theorem thenAlways_of_error {last : Effect Unit} {v : Session} {e : Error}
    (ended : a s = endIn u r) (fails : last u = .error e v) :
    a.thenAlways last s = .error e v := by
  unfold thenAlways
  rw [ended]
  cases r <;> exact bind_of_error fails

end Effect

open NumScript.Action

namespace Program

variable {p : Program} {s' v : Session} {e : Error}

/-- A run leaves the session to which its actions lead. -/
theorem performAll_trace (sound : s.writer.NeverFails) :
    performAll (p.trace s) s = .ok () (p.run.after s) := by
  rw [after, run_eq_execAll p sound.2]
  exact (Stmt.does_execAll p.body).replays.performAll sound

/-- A run with another writer on which no action fails, nor the flush at the end. -/
theorem run_of_performAll (sound : s.writer.NeverFails) (agree : Agree True s s')
    (performed : performAll (p.trace s) s' = .ok () u) (flushed : flush u = .ok () v) :
    p.run s' = endIn v (p.run s) := by
  have replays := (Stmt.does_execAll p.body).replays
  rw [run_eq_execAll p sound.2]
  exact thenAlways_of_ok (replays.of_performAll sound agree (fun _ _ => trivial) performed).1
    flushed

/-- A run with another writer on which no action fails, but the flush at the end. -/
theorem run_of_flush_error (sound : s.writer.NeverFails) (agree : Agree True s s')
    (performed : performAll (p.trace s) s' = .ok () u) (failed : flush u = .error e v) :
    p.run s' = .error e v := by
  have replays := (Stmt.does_execAll p.body).replays
  exact thenAlways_of_error (replays.of_performAll sound agree (fun _ _ => trivial) performed).1
    failed

/-- A run with another writer on which an action fails. -/
theorem run_of_performAll_error (sound : s.writer.NeverFails) (agree : Agree True s s')
    (failed : performAll (p.trace s) s' = .error e u)
    (flushed : flush u = .ok () u ∨ flush u = .error e u) : p.run s' = .error e u := by
  have replays := (Stmt.does_execAll p.body).replays
  have ended : Stmt.execAll p.body s' = endIn u (.error e u) :=
    replays.of_performAll_error sound agree (fun _ _ => trivial) failed
  rcases flushed with flushed | flushed
  · exact thenAlways_of_ok ended flushed
  · exact thenAlways_of_error ended flushed

/-- How a run ends whose writer takes `n` bytes, and one whose writer takes `n` flushes, told from
    the run with a writer that never fails.

    With `n` bytes for no more output than that, or with flushes for all prompts and the end, they
    end alike.  Otherwise the run ends at the first print or prompt that needs a byte more, with the
    first `n` bytes of the output written; or at the first prompt that needs a flush more, with the
    prompt written; or, if only the flush at the end is missing, there, with its failure for a
    result. -/
theorem run_faulty_writer (p : Program) (store : Store) (reader : Reader)
    (prompt : Option String) (n : Nat) (failure : IoFailure) :
    let start (writer : Writer) : Session := { store, reader, prompt, writer }
    let ended := p.run.after (start {})
    let output := ended.writer.written
    let actions := p.trace (start {})
    let prompts := actions.countP Action.isPrompt
    performAll actions (start {}) = .ok () ended ∧ output = actions.flatMap Action.output ∧
    (if output.length ≤ n then
      p.run (start { room := some ⟨n, failure⟩ }) =
        endIn { ended with
          writer := { written := output, room := some ⟨n - output.length, failure⟩ } }
          (p.run (start {}))
    else
      ∃ before action after reached, actions = before ++ action :: after ∧
        performAll before (start {}) = .ok () reached ∧ reached.writer.written.length ≤ n ∧
        n < (reached.writer.written ++ action.output).length ∧
        p.run (start { room := some ⟨n, failure⟩ }) =
          .error (.io failure) { reached with
            writer := { written := output.take n, room := some ⟨0, failure⟩ } }) ∧
    (if n < prompts then
      ∃ before keyword text after reached,
        actions = before ++ Action.prompt keyword text :: after ∧
        before.countP Action.isPrompt = n ∧ performAll before (start {}) = .ok () reached ∧
        p.run (start { flushes := some ⟨n, failure⟩ }) =
          .error (.io failure) { reached with
            writer := { written := reached.writer.written ++ Text.encode text
                        flushes := some ⟨0, failure⟩ } }
    else if n = prompts then
      p.run (start { flushes := some ⟨n, failure⟩ }) =
        .error (.io failure) { ended with
          writer := { written := output, flushes := some ⟨0, failure⟩ } }
    else
      p.run (start { flushes := some ⟨n, failure⟩ }) =
        endIn { ended with
          writer := { written := output, flushes := some ⟨n - (prompts + 1), failure⟩ } }
          (p.run (start {}))) := by
  intro start ended output actions prompts
  have sound : (start {}).writer.NeverFails := ⟨rfl, rfl⟩
  have agree (writer : Writer) : Agree True (start {}) (start writer) := ⟨rfl, rfl, fun _ => rfl⟩
  have performed : performAll actions (start {}) = .ok () ended := performAll_trace sound
  have writer : ended.writer = { written := actions.flatMap Action.output } := by
    obtain ⟨u, performed', written⟩ := exists_performAll actions sound
    rw [performed] at performed'
    cases performed'
    exact written
  refine ⟨performed, congrArg Writer.written writer, ?_, ?_⟩
  · by_cases fits : output.length ≤ n
    · rw [if_pos fits]
      exact run_of_performAll sound (agree _) (performAll_capped sound performed fits) flush_capped
    · obtain ⟨before, action, after, reached, split, led, below, above, failed⟩ :=
        exists_performAll_capped sound performed (Nat.zero_le n) (Nat.not_le.mp fits)
      rw [if_neg fits]
      exact ⟨before, action, after, reached, split, led, below, above,
        run_of_performAll_error sound (agree _) failed (.inl rfl)⟩
  · by_cases tooFew : n < prompts
    · obtain ⟨before, keyword, text, after, reached, split, count, led, failed⟩ :=
        exists_performAll_flushing sound performed tooFew
      rw [if_pos tooFew]
      exact ⟨before, keyword, text, after, reached, split, count, led,
        run_of_performAll_error sound (agree _) failed (.inr rfl)⟩
    · have enough : prompts ≤ n := Nat.not_lt.mp tooFew
      have flushed := performAll_flushing failure sound performed enough
      rw [if_neg tooFew]
      by_cases last : n = prompts
      · rw [if_pos last]
        rw [show n - prompts = 0 by omega] at flushed
        exact run_of_flush_error sound (agree _) flushed flush_flushing_zero
      · rw [if_neg last]
        rw [show n - prompts = (n - (prompts + 1)) + 1 by omega] at flushed
        exact run_of_performAll sound (agree _) flushed flush_flushing_succ

end Program

end NumScript
