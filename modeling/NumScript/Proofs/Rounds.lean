/-
  Sessions that read their programs, round by round.

  Such a session is nothing but a dialogue in which lines are requested and run, in turn.  A ROUND
  is one line and what came of it, and the CLOSING says why there was no further one.  Every session
  has finitely many rounds and one closing (`Session.exists_course`), although its programs take
  lines off the reader themselves: each round leaves fewer bytes to read.

  Failures go two ways.  If the prompt cannot be shown, or no line can be read behind it, that
  closes the session; whatever fails in a program is told and closes nothing, unless it cannot be
  told (`Round.Lead`).  So a session ends well just with a `halt` or at the end of the input
  (`Session.runPrompt_rounds`).

  What is told names line 1.  A line that was read has a line end at its end at most, and no token
  begins behind that (`Effect.line_of_runSource`).
-/
import NumScript.Proofs.Diagnostics
import NumScript.Proofs.Layout
import NumScript.Proofs.LineByLine
import NumScript.Session.Dialogue

namespace NumScript

/-! ## Lines that were read -/

/-- The text has no line end, except that it may end with one. -/
def Text.IsLine (text : String) : Prop :=
  '\n' ∉ text.toList.dropLast

namespace Text

/-- Bytes that are decoded are those of the text. -/
theorem encode_of_decode? {bytes : List UInt8} {text : String} (h : decode? bytes = some text) :
    encode text = bytes := by
  unfold decode? String.fromUTF8? at h
  split at h
  · cases h
    exact List.toByteArray_inj.mp (toByteArray_encode _)
  · cases h

/-- Text whose bytes are a line is one. -/
theorem isLine_of_encode {text : String} (inner : lineEnd ∉ (encode text).dropLast) :
    IsLine text := by
  intro mem
  cases parts : text.toList.reverse with
  | nil =>
    rw [List.reverse_eq_nil_iff.mp parts] at mem
    cases mem
  | cons last rest =>
    have split : text.toList = rest.reverse ++ [last] := by
      rw [← List.reverse_reverse text.toList, parts, List.reverse_cons]
    rw [split, List.dropLast_concat] at mem
    have bytes : encode text = rest.reverse.flatMap String.utf8EncodeChar ++
        String.utf8EncodeChar last := by
      rw [encode, split, List.flatMap_append, List.flatMap_singleton]
    rw [bytes, List.dropLast_append_of_ne_nil String.utf8EncodeChar_ne_nil] at inner
    refine inner (List.mem_append_left _ (List.mem_flatMap.mpr ⟨'\n', mem, ?_⟩))
    exact List.mem_singleton_self _

end Text

/-- The text of a line has the bytes of the line. -/
theorem Reader.encode_of_lineText {r : Reader} {line : String} (h : r.lineText = .ok (some line)) :
    Text.encode line = r.nextLine := by
  have decoded : lineText.decode r.nextLine = .ok (some line) := by
    unfold lineText at h
    split at h
    · split at h
      · exact h
      · cases h
    · split at h
      · cases h
      · exact h
  unfold lineText.decode at decoded
  split at decoded
  · cases decoded
    exact Text.encode_of_decode? ‹_›
  · cases decoded

/-- A line that is read is one. -/
theorem Effect.isLine_of_readLine {prompt line : String} {s s' : Session}
    (h : readLine prompt s = .ok (some line) s') : Text.IsLine line := by
  obtain ⟨_, u, _, taken⟩ := of_bind_eq_ok h
  refine Text.isLine_of_encode ?_
  unfold takeLine Reader.readLine at taken
  cases text : u.reader.lineText with
  | error failure =>
    rw [text] at taken
    cases taken
  | ok line' =>
    rw [text] at taken
    cases taken
    rw [Reader.encode_of_lineText text]
    exact u.reader.isWholeLine_nextLine.inner

namespace Source

variable {source : String}

/-- All that stands in a line stands on line 1. -/
theorem line_eq_one {before after : List Char} (isLine : Text.IsLine source)
    (split : source.toList = before ++ after) (behind : after ≠ []) :
    1 + before.count '\n' = 1 := by
  have inner : '\n' ∉ before := by
    intro mem
    refine isLine ?_
    rw [split, List.dropLast_append_of_ne_nil behind]
    exact List.mem_append_left _ mem
  rw [List.count_eq_zero_of_not_mem inner]

/-- A token of a single line is on line 1. -/
theorem line_eq_one_of_standsIn {t : Token} (isLine : Text.IsLine source) (h : t.StandsIn source) :
    t.line = 1 := by
  obtain ⟨before, after, split, line⟩ := h.exists_place
  rw [List.append_assoc] at split
  have some_char : t.lexeme.toList ≠ [] := by
    intro none
    have spelled := h.spelled
    rw [String.toList_eq_nil_iff.mp none] at spelled
    cases spelled
  rw [line]
  exact line_eq_one isLine split (List.append_ne_nil_of_left_ne_nil some_char _)

theorem line_eq_one_of_firstUnrecognised {line : Nat} {c : Char} (isLine : Text.IsLine source)
    (h : FirstUnrecognised source line c) : line = 1 := by
  obtain ⟨front, behind, made, _⟩ := h
  obtain ⟨here, _⟩ := made.fits front _ behind rfl
  rw [here]
  exact line_eq_one isLine made.split (List.cons_ne_nil _ _)

end Source

/-- The error of a line is on line 1, if it is on a line at all. -/
theorem Effect.line_of_runSource {source : String} {s s' : Session} {e : Error} {n : Nat}
    (isLine : Text.IsLine source) (failed : runSource source s = .error e s')
    (on : e.line? = some n) : n = 1 := by
  have onToken {tokens : List Token} (cut : Source.tokens source = .ok tokens)
      (h : ∃ t ∈ tokens, t.line = n) : n = 1 := by
    obtain ⟨t, mem, rfl⟩ := h
    exact Source.line_eq_one_of_standsIn isLine (Source.standsIn_of_tokens cut t mem)
  rcases of_bind_eq_error failed with unread | ⟨p, u, read, ran⟩
  · obtain ⟨wrong, rfl⟩ := of_ofExcept_eq_error unread
    rcases Program.exists_of_ofSource_error wrong with ⟨line, c, rfl, first⟩ |
      ⟨tokens, cut, ⟨t, mem, text, rfl⟩ | ⟨last, text, isLast, rfl⟩⟩
    · cases on
      exact Source.line_eq_one_of_firstUnrecognised isLine first
    · cases on
      exact onToken cut ⟨t, mem, rfl⟩
    · cases on
      exact onToken cut ⟨last, List.mem_of_getLast? isLast, rfl⟩
  · obtain ⟨spelled, rfl⟩ := of_ofExcept_eq_ok read
    obtain ⟨tokens, cut, made⟩ := Program.ofSource_eq_ok_iff.mp spelled
    obtain ⟨t, mem, line⟩ := Program.exists_line_of_run ran on
    rw [Program.tokens_of_ofTokens made] at mem
    exact onToken cut ⟨t, Token.mem_of_mem_kept mem, line⟩

/-! ## Rounds -/

/-- A line that was run as a program, and what came of it. -/
structure Round where
  line : String
  result : Except Error Outcome

/-- Why a session that reads its programs line by line goes no further. -/
inductive Closing where
  /-- The last program has halted. -/
  | halted
  /-- There is no line left. -/
  | exhausted
  /-- The prompt cannot be shown, or no line can be read behind it. -/
  | unread (failure : IoFailure)
  /-- The error of the last program cannot be told. -/
  | untold (failure : IoFailure)

namespace Round

/-- What is requested in the round. -/
def requests (r : Round) : List Request :=
  [.readLine programPrompt, .run r.line]

/-- What the requests of the round are answered. -/
def replies (r : Round) : List Reply :=
  [.line (.ok (some r.line)), .outcome r.result]

/-- What is to be told about the round: the error of its program, in a line of its own. -/
def told (r : Round) : List UInt8 :=
  match r.result with
  | .ok _ => []
  | .error e => Text.encode (e.describe ++ "\n")

end Round

namespace Closing

/-- What is requested at last: the line that is not there. -/
def requests : Closing → List Request
  | exhausted | unread _ => [.readLine programPrompt]
  | halted | untold _ => []

/-- What the last request is answered. -/
def replies : Closing → List Reply
  | exhausted => [.line (.ok none)]
  | unread failure => [.line (.error (.io failure))]
  | halted | untold _ => []

/-- How the session ends. -/
def result : Closing → Except Error Unit
  | halted | exhausted => .ok ()
  | unread failure | untold failure => .error (.io failure)

end Closing

/-- The rounds lead to the closing, and to the second writer if their errors are told to the first.
    No round stands behind one that has halted or whose error cannot be told. -/
inductive Round.Lead : Writer → List Round → Closing → Writer → Prop where
  | exhausted (errors : Writer) : Lead errors [] .exhausted errors
  | unread (errors : Writer) (failure : IoFailure) : Lead errors [] (.unread failure) errors
  | halted (errors : Writer) (line : String) : Lead errors [⟨line, .ok .halted⟩] .halted errors
  | untold {errors errors' : Writer} {line : String} {e : Error} {failure : IoFailure}
    (report : errors.report e = (.error failure, errors')) :
    Lead errors [⟨line, .error e⟩] (.untold failure) errors'
  | completed {errors errors' : Writer} {line : String} {rounds : List Round} {closing : Closing}
    (rest : Lead errors rounds closing errors') :
    Lead errors (⟨line, .ok .completed⟩ :: rounds) closing errors'
  | failed {errors errors₁ errors' : Writer} {line : String} {e : Error} {rounds : List Round}
    {closing : Closing} (report : errors.report e = (.ok (), errors₁))
    (rest : Lead errors₁ rounds closing errors') :
    Lead errors (⟨line, .error e⟩ :: rounds) closing errors'

/-- These rounds and this closing are all that happens between the two sessions. -/
structure Session.Course (s : Session) (rounds : List Round) (closing : Closing) (s' : Session) :
    Prop where
  /-- Requesting the lines and running them leads from the one session to the other. -/
  answers : ∀ last, ∃ last', (Dialogue.mk s last).answers
    (rounds.flatMap Round.requests ++ closing.requests) =
      (rounds.flatMap Round.replies ++ closing.replies, ⟨s', last'⟩)
  /-- There are no more rounds than bytes. -/
  length_le : rounds.length ≤ s.reader.bytes.length
  /-- The error of a program is on line 1, or the outer world has failed. -/
  placed : ∀ r ∈ rounds, ∀ e, r.result = .error e → e.line? = some 1 ∨ ∃ failure, e = .io failure

/-! ## What is told -/

namespace Writer

variable {w w' : Writer} {bytes : List UInt8}

/-- What is put in full has been written. -/
theorem written_of_put {done : Unit} (h : w.put bytes = (.ok done, w')) :
    w'.written = w.written ++ bytes := by
  unfold put at h
  split at h
  · cases h
    rfl
  · rename_i limit _
    split at h
    · cases h
      exact congrArg (w.written ++ ·) (List.take_of_length_le ‹_›)
    · cases h

/-- Of what cannot be put in full the beginning has been written. -/
theorem exists_written_of_put {failure : IoFailure} (h : w.put bytes = (.error failure, w')) :
    ∃ part, part <+: bytes ∧ w'.written = w.written ++ part := by
  unfold put at h
  split at h
  · cases h
  · rename_i limit _
    split at h
    · cases h
    · cases h
      exact ⟨_, List.take_prefix _ _, rfl⟩

end Writer

namespace Round.Lead

variable {errors errors' : Writer} {rounds : List Round} {closing : Closing}

/-- A program that halts closes the session. -/
theorem eq_halted_iff (h : Lead errors rounds closing errors') :
    closing = .halted ↔ ∃ r ∈ rounds, r.result = .ok .halted := by
  induction h with
  | exhausted errors => exact ⟨nofun, nofun⟩
  | unread errors failure => exact ⟨nofun, nofun⟩
  | halted errors line => exact ⟨fun _ => ⟨_, List.mem_singleton_self _, rfl⟩, fun _ => rfl⟩
  | untold report =>
    refine ⟨nofun, ?_⟩
    rintro ⟨r, mem, halted⟩
    rw [List.mem_singleton.mp mem] at halted
    cases halted
  | completed rest ih => simp [ih]
  | failed report rest ih => simp [ih]

/-- Each error that is told adds its own line, in the order of the rounds. -/
theorem written_eq (h : Lead errors rounds closing errors')
    (told : ∀ failure, closing ≠ .untold failure) :
    errors'.written = errors.written ++ rounds.flatMap Round.told := by
  induction h with
  | exhausted errors => exact (List.append_nil _).symm
  | unread errors failure => exact (List.append_nil _).symm
  | halted errors line => exact (List.append_nil _).symm
  | untold report => exact absurd rfl (told _)
  | completed rest ih => exact ih told
  | failed report rest ih =>
    rw [ih told, Writer.written_of_put report, List.append_assoc]
    rfl

/-- Of an error that cannot be told, a part may be written. -/
theorem exists_of_untold {failure : IoFailure} (h : Lead errors rounds (.untold failure) errors') :
    ∃ before line e part, rounds = before ++ [⟨line, .error e⟩] ∧
      part <+: Text.encode (e.describe ++ "\n") ∧
      errors'.written = errors.written ++ before.flatMap Round.told ++ part := by
  generalize closed : Closing.untold failure = closing at h
  induction h with
  | exhausted errors => cases closed
  | unread errors failure => cases closed
  | halted errors line => cases closed
  | @untold errors errors' line e failure report =>
    obtain ⟨part, cut, written⟩ := Writer.exists_written_of_put report
    exact ⟨[], line, e, part, rfl, cut, by rw [List.flatMap_nil, List.append_nil, written]⟩
  | @completed errors errors' line rounds closing rest ih =>
    obtain ⟨before, line', e, part, rfl, cut, written⟩ := ih closed
    exact ⟨⟨line, .ok .completed⟩ :: before, line', e, part, rfl, cut, written⟩
  | @failed errors errors₁ errors' line e rounds closing report rest ih =>
    obtain ⟨before, line', e', part, rfl, cut, written⟩ := ih closed
    refine ⟨⟨line, .error e⟩ :: before, line', e', part, rfl, cut, ?_⟩
    rw [written, Writer.written_of_put report, List.flatMap_cons, ← List.append_assoc]
    rfl

end Round.Lead

/-- A session ends well if a program has halted or no line was left. -/
theorem Closing.result_eq_ok_iff (closing : Closing) :
    closing.result = .ok () ↔ closing = .halted ∨ closing = .exhausted := by
  cases closing with
  | halted => exact ⟨fun _ => .inl rfl, fun _ => rfl⟩
  | exhausted => exact ⟨fun _ => .inr rfl, fun _ => rfl⟩
  | unread failure => exact ⟨nofun, nofun⟩
  | untold failure => exact ⟨nofun, nofun⟩

/-- A session that fails cannot read a line or cannot tell an error, because the outer world fails.
    -/
theorem Closing.exists_of_result_eq_error {closing : Closing} {e : Error}
    (h : closing.result = .error e) :
    ∃ failure, e = .io failure ∧ (closing = .unread failure ∨ closing = .untold failure) := by
  cases closing with
  | halted => cases h
  | exhausted => cases h
  | unread failure =>
    cases h
    exact ⟨failure, rfl, .inl rfl⟩
  | untold failure =>
    cases h
    exact ⟨failure, rfl, .inr rfl⟩

/-! ## Requests -/

namespace Dialogue

open Effect

variable {s s' : Session} {line prompt : String}

/-- A request for a line is answered with what is found. -/
theorem answer_readLine_of_ok {found : Option String} (last : Option Program)
    (h : Effect.readLine prompt s = .ok found s') :
    (mk s last).answer (.readLine prompt) = (.line (.ok found), ⟨s', last⟩) := by
  unfold answer perform
  dsimp only
  rw [h]

theorem answer_readLine_of_error {e : Error} (last : Option Program)
    (h : Effect.readLine prompt s = .error e s') :
    (mk s last).answer (.readLine prompt) = (.line (.error e), ⟨s', last⟩) := by
  unfold answer perform
  dsimp only
  rw [h]

/-- A request to run a line is answered with the outcome of its program. -/
theorem exists_answer_run_of_ok {outcome : Outcome} (last : Option Program)
    (h : runSource line s = .ok outcome s') :
    ∃ last', (mk s last).answer (.run line) = (.outcome (.ok outcome), ⟨s', last'⟩) := by
  obtain ⟨p, u, read, ran⟩ := of_bind_eq_ok h
  obtain ⟨spelled, rfl⟩ := of_ofExcept_eq_ok read
  refine ⟨some p, ?_⟩
  simp only [answer, spelled, runProgram, perform, ran]

theorem exists_answer_run_of_error {e : Error} (last : Option Program)
    (h : runSource line s = .error e s') :
    ∃ last', (mk s last).answer (.run line) = (.outcome (.error e), ⟨s', last'⟩) := by
  rcases of_bind_eq_error h with unread | ⟨p, u, read, ran⟩
  · obtain ⟨wrong, rfl⟩ := of_ofExcept_eq_error unread
    exact ⟨last, by simp only [answer, wrong]⟩
  · obtain ⟨spelled, rfl⟩ := of_ofExcept_eq_ok read
    exact ⟨some p, by simp only [answer, spelled, runProgram, perform, ran]⟩

end Dialogue

/-! ## Courses -/

namespace Session

open Effect

variable {s s₁ s₂ s' : Session} {line : String} {rounds : List Round} {closing : Closing}

/-- Only the outer world keeps a session from reading a line. -/
theorem exists_io_of_readLine {prompt : String} {e : Error}
    (h : readLine prompt s = .error e s₁) : ∃ failure, e = .io failure := by
  rcases of_bind_eq_error h with shown | ⟨_, u, _, taken⟩
  · rcases of_bind_eq_error shown with wrote | ⟨_, v, _, flushed⟩
    · exact io_of_ofDevice wrote
    · exact io_of_ofDevice flushed
  · exact io_of_ofDevice taken

/-- An error of a line that was read is on line 1. -/
theorem placed_of_runSource {e : Error} (read : readLine programPrompt s = .ok (some line) s₁)
    (ran : runSource line s₁ = .error e s₂) :
    e.line? = some 1 ∨ ∃ failure, e = .io failure := by
  cases on : e.line? with
  | none => exact .inr (Error.eq_io_of_line? on)
  | some n =>
    rw [line_of_runSource (isLine_of_readLine read) ran on]
    exact .inl rfl

namespace Course

/-- Where nothing more is requested, nothing more happens. -/
theorem done (requests : closing.requests = []) (replies : closing.replies = []) :
    Course s [] closing s where
  answers last := ⟨last, by rw [requests, replies]; rfl⟩
  length_le := Nat.zero_le _
  placed := nofun

/-- A session that finds no line has no rounds. -/
theorem of_end (read : readLine programPrompt s = .ok none s₁) : Course s [] .exhausted s₁ where
  answers last := ⟨last, by
    simp only [List.flatMap_nil, List.nil_append, Closing.requests, Closing.replies,
      Dialogue.answers, Dialogue.answer_readLine_of_ok last read]⟩
  length_le := Nat.zero_le _
  placed := nofun

theorem of_error {failure : IoFailure}
    (read : readLine programPrompt s = .error (.io failure) s₁) :
    Course s [] (.unread failure) s₁ where
  answers last := ⟨last, by
    simp only [List.flatMap_nil, List.nil_append, Closing.requests, Closing.replies,
      Dialogue.answers, Dialogue.answer_readLine_of_error last read]⟩
  length_le := Nat.zero_le _
  placed := nofun

/-- A round and the course of the session behind it. -/
theorem cons {result : Except Error Outcome}
    (read : readLine programPrompt s = .ok (some line) s₁)
    (ran : ∀ last, ∃ last', (Dialogue.mk s₁ last).answer (.run line) =
      (.outcome result, ⟨s₂, last'⟩))
    (behind : (runSource line).after s₁ = s₂)
    (here : ∀ e, result = .error e → e.line? = some 1 ∨ ∃ failure, e = .io failure)
    (later : Course s₂ rounds closing s') : Course s (⟨line, result⟩ :: rounds) closing s' where
  answers last := by
    obtain ⟨last₁, reply⟩ := ran last
    obtain ⟨last₂, replies⟩ := later.answers last₁
    refine ⟨last₂, ?_⟩
    simp only [List.flatMap_cons, Round.requests, Round.replies, List.cons_append,
      List.nil_append, Dialogue.answers, Dialogue.answer_readLine_of_ok last read, reply, replies]
  length_le := Nat.succ_le_of_lt
    (Nat.lt_of_le_of_lt later.length_le (bytes_lt_of_runSource read behind))
  placed := List.forall_mem_cons.mpr ⟨here, later.placed⟩

theorem of_ok {outcome : Outcome} (read : readLine programPrompt s = .ok (some line) s₁)
    (ran : runSource line s₁ = .ok outcome s₂) (later : Course s₂ rounds closing s') :
    Course s (⟨line, .ok outcome⟩ :: rounds) closing s' :=
  cons read (fun last => Dialogue.exists_answer_run_of_ok last ran) (after_of_ok ran) nofun later

theorem of_failed {e : Error} (read : readLine programPrompt s = .ok (some line) s₁)
    (ran : runSource line s₁ = .error e s₂) (later : Course s₂ rounds closing s') :
    Course s (⟨line, .error e⟩ :: rounds) closing s' := by
  refine cons read (fun last => Dialogue.exists_answer_run_of_error last ran) (after_of_error ran)
    ?_ later
  rintro _ ⟨⟩
  exact placed_of_runSource read ran

end Course

/-- Every session that reads its programs line by line has finitely many rounds and a closing. -/
theorem exists_course (s : Session) (errors : Writer) : ∃ rounds closing s' errors',
    s.runPrompt errors = ⟨closing.result, s', errors'⟩ ∧ Course s rounds closing s' ∧
      Round.Lead errors rounds closing errors' := by
  cases read : readLine programPrompt s with
  | error e s₁ =>
    obtain ⟨failure, rfl⟩ := exists_io_of_readLine read
    exact ⟨[], .unread failure, s₁, errors, runPrompt_of_error read, .of_error read,
      .unread errors failure⟩
  | ok found s₁ =>
    cases found with
    | none =>
      exact ⟨[], .exhausted, s₁, errors, runPrompt_of_end read, .of_end read, .exhausted errors⟩
    | some line =>
      have goesOn : s.runPrompt errors = _ := runPrompt_of_line read
      cases ran : runSource line s₁ with
      | ok outcome s₂ =>
        rw [ran] at goesOn
        cases outcome with
        | halted =>
          exact ⟨_, .halted, s₂, errors, goesOn, .of_ok read ran (.done rfl rfl),
            .halted errors line⟩
        | completed =>
          obtain ⟨rounds, closing, s', errors', ended, course, lead⟩ := s₂.exists_course errors
          exact ⟨_, closing, s', errors', goesOn.trans ended, .of_ok read ran course,
            .completed lead⟩
      | error e s₂ =>
        rcases report : errors.report e with ⟨failure | _, errors₁⟩
        · simp only [ran, report] at goesOn
          exact ⟨_, .untold failure, s₂, errors₁, goesOn, .of_failed read ran (.done rfl rfl),
            .untold report⟩
        · simp only [ran, report] at goesOn
          obtain ⟨rounds, closing, s', errors', ended, course, lead⟩ := s₂.exists_course errors₁
          exact ⟨_, closing, s', errors', goesOn.trans ended, .of_failed read ran course,
            .failed report lead⟩
termination_by s.reader.bytes.length
decreasing_by
  · exact bytes_lt_of_runSource read (after_of_ok ran)
  · exact bytes_lt_of_runSource read (after_of_error ran)

/-- Every turn takes a line off the reader, so no session goes on for ever. -/
theorem wellFounded_turn : WellFounded fun after before => Turn before after := by
  refine Subrelation.wf ?_ (measure fun state : Session × Writer => state.1.reader.bytes.length).wf
  intro after before turn
  cases turn with
  | completed read ran => exact bytes_lt_of_runSource read (after_of_ok ran)
  | failed read ran told => exact bytes_lt_of_runSource read (after_of_error ran)

/-- A session that reads its programs line by line is a dialogue that requests a line and runs it,
    round after round, and it comes to an end.  It ends well just if a program has halted or no line
    was left, and with an error only if the prompt cannot be shown, no line can be read behind it,
    or an error cannot be told; what fails in a program ends nothing by itself.  Each error of a
    program is told in a line of its own, in the order of the rounds, and unless the outer world has
    failed it is on line 1.  A line that is no program changes nothing. -/
theorem runPrompt_rounds (s : Session) (errors : Writer) :
    (WellFounded fun after before => Turn before after) ∧ ∃ rounds closing,
      Course s rounds closing (s.runPrompt errors).session ∧
      (s.runPrompt errors).result = closing.result ∧
      Round.Lead errors rounds closing (s.runPrompt errors).errors ∧
      ((s.runPrompt errors).result = .ok () ↔
        (∃ r ∈ rounds, r.result = .ok .halted) ∨ closing = .exhausted) ∧
      (∀ e, (s.runPrompt errors).result = .error e → ∃ failure, e = .io failure ∧
        (closing = .unread failure ∨ closing = .untold failure)) ∧
      ((∀ failure, closing ≠ .untold failure) → (s.runPrompt errors).errors.written =
        errors.written ++ rounds.flatMap Round.told) ∧
      (∀ failure, closing = .untold failure → ∃ before line e part,
        rounds = before ++ [⟨line, .error e⟩] ∧ part <+: Text.encode (e.describe ++ "\n") ∧
        (s.runPrompt errors).errors.written =
          errors.written ++ before.flatMap Round.told ++ part) ∧
      (∀ (d : Dialogue) (line : String) (e : Error), Program.ofSource line = .error e →
        d.answer (.run line) = (.outcome (.error e), d)) := by
  obtain ⟨rounds, closing, s', errors', ended, course, lead⟩ := s.exists_course errors
  rw [ended]
  refine ⟨wellFounded_turn, rounds, closing, course, rfl, lead, ?_, ?_, lead.written_eq, ?_, ?_⟩
  · rw [closing.result_eq_ok_iff, lead.eq_halted_iff]
  · intro e failed
    exact Closing.exists_of_result_eq_error failed
  · rintro failure rfl
    exact lead.exists_of_untold
  · intro d line e wrong
    simp only [Dialogue.answer, wrong]

end Session

end NumScript
