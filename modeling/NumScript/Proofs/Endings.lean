/-
  How the commands end.

  Both commands that read a file first make a program of it, and each of them does that for itself.
  If there is none, they end alike: with the status for an unreadable file or for a bad program,
  with the error described and nothing written, whatever stands in the input.  Otherwise writing the
  tree always succeeds, and running the program does what the program does
  (`Command.endings_agree`).

  The status says which stage has failed because the stages have errors of their own.  A text that
  is no program has a lexical or a syntactic error (`Program.status_of_ofSource`); a program that
  was read from a text fails with a runtime error, or because the outer world has failed
  (`Program.runtime_or_io_of_run`); and a session that reads its programs line by line only fails
  with the outer world, because the errors of its programs are told in it.
-/
import NumScript.CommandLine
import NumScript.Proofs.Diagnostics
import NumScript.Proofs.Rounds

namespace NumScript

/-! ## The errors of each stage -/

/-- The status for a text that is no program. -/
theorem Program.status_of_ofSource {source : String} {e : Error} (h : ofSource source = .error e) :
    e.status = 65 := by
  rcases exists_of_ofSource_error h with ⟨line, c, rfl, _⟩ |
    ⟨tokens, _, ⟨t, _, text, rfl⟩ | ⟨last, text, _, rfl⟩⟩
  · rfl
  · rfl
  · rfl

/-- A program that was read fails with a runtime error, or the outer world has failed. -/
theorem Program.runtime_or_io_of_run {source : String} {p : Program} {s s' : Session} {e : Error}
    (spelled : ofSource source = .ok p) (failed : p.run s = .error e s') :
    (∃ line cause text, e = .runtime line cause text) ∨ ∃ failure, e = .io failure := by
  by_cases outer : ∃ failure, e = .io failure
  · exact .inr outer
  refine .inl ?_
  obtain ⟨tokens, _, made⟩ := ofSource_eq_ok_iff.mp spelled
  obtain ⟨u, writer, fault, _⟩ := exists_fault failed fun failure same => outer ⟨failure, same⟩
  cases fault with
  | unbound => exact ⟨_, _, _, rfl⟩
  | zeroDivisor => exact ⟨_, _, _, rfl⟩
  | noInput => exact ⟨_, _, _, rfl⟩
  | notNumber => exact ⟨_, _, _, rfl⟩
  | noValue => exact ⟨_, _, _, rfl⟩
  | illFormed inside illFormed =>
    exact absurd ((isPart_of_evaluates made inside).wellFormed trivial) illFormed

/-! ## Files -/

namespace Command

/-- The text in a file with this content. -/
def textOf (content : Except IoFailure (List UInt8)) : Except IoFailure String :=
  match content with
  | .error failure => .error failure
  | .ok bytes =>
    match Text.decode? bytes with
    | some source => .ok source
    | none => .error .notUtf8

variable {content : Except IoFailure (List UInt8)} {source : String}

/-- A file that is no text cannot be loaded. -/
theorem load_of_unreadable {failure : IoFailure} (h : textOf content = .error failure) :
    load content = .error (.io failure) := by
  unfold textOf at h
  unfold load
  split at h
  · cases h
    rfl
  · split at h
    · cases h
    · cases h
      simp only [*]

/-- A file that is a text is loaded as the program that it spells. -/
theorem load_of_text (h : textOf content = .ok source) :
    load content = Program.ofSource source := by
  unfold textOf at h
  unfold load
  split at h
  · cases h
  · split at h
    · cases h
      simp only [*]
    · cases h

/-! ## Endings -/

/-- What a command leaves behind that has failed with this status, after this output. -/
def failed (status : UInt8) (output : List UInt8) (e : Error) : Ending :=
  ⟨status, output, Text.encode (e.describe ++ "\n")⟩

variable {path : String} {file : String → Except IoFailure (List UInt8)} {e : Error} {p : Program}

/-- A path that does not look like an option names a program to run. -/
theorem ofArgs_of_path (plain : ¬ "--".toList <+: path.toList) : ofArgs [path] = .run path := by
  have single : ofArgs [path] =
      if "--".toList.isPrefixOf path.toList then unknown else run path := by
    simp only [ofArgs]
  rw [single, if_neg fun option => plain (List.isPrefixOf_iff_prefix.mp option)]

/-- Without a program, both commands end with the error. -/
theorem perform_of_load_error (h : load (file path) = .error e) (input : List UInt8) :
    (outline path).perform file input = failed e.status [] e ∧
      (run path).perform file input = failed e.status [] e := by
  unfold perform
  simp only [h]
  exact ⟨rfl, rfl⟩

/-- A program is written, whatever the input is. -/
theorem perform_outline (h : load (file path) = .ok p) (input : List UInt8) :
    (outline path).perform file input = ⟨0, Text.encode (p.outline ++ "\n"), []⟩ := by
  unfold perform
  simp only [h]

/-- A program that comes to an end leaves its output and no error. -/
theorem perform_run_of_ok {input : List UInt8} {outcome : Outcome} {s : Session}
    (h : load (file path) = .ok p) (ran : p.run { reader := { bytes := input } } = .ok outcome s) :
    (run path).perform file input = ⟨0, s.writer.written, []⟩ := by
  unfold perform
  simp only [h, ran]
  rfl

/-- A program that fails leaves its output and the description of the error. -/
theorem perform_run_of_error {input : List UInt8} {s : Session}
    (h : load (file path) = .ok p) (ran : p.run { reader := { bytes := input } } = .error e s) :
    (run path).perform file input = failed e.status s.writer.written e := by
  unfold perform
  simp only [h, ran]
  rfl

/-- A session that reads its programs line by line fails only with the outer world. -/
theorem status_of_prompt (input : List UInt8) :
    (prompt.perform file input).status = 0 ∨ (prompt.perform file input).status = 74 := by
  let s : Session := { reader := { bytes := input }, prompt := some inputPrompt }
  obtain ⟨rounds, closing, s', errors', ended, _⟩ := s.exists_course {}
  have ending : prompt.perform file input =
      conclude closing.result s'.writer.written errors'.written := by
    show conclude (s.runPrompt {}).result _ _ = _
    rw [ended]
  rw [ending]
  cases closing with
  | halted => exact .inl rfl
  | exhausted => exact .inl rfl
  | unread failure => exact .inr rfl
  | untold failure => exact .inr rfl

/-- A file is run as its text is. -/
theorem runSource_of_ofSource {input : List UInt8} (h : Program.ofSource source = .ok p) :
    Effect.runSource source { reader := { bytes := input } } =
      p.run { reader := { bytes := input } } := by
  unfold Effect.runSource
  rw [h]
  rfl

/-- The commands agree with each other and with what they are made of.  If the file cannot be read,
    or its text is no program, writing its tree and running it end alike, with status 74 or 65,
    without output and with the error described, whatever the input is; and otherwise the tree is
    written with status 0.  Then running the file writes what running its text on this input does,
    and ends with status 0 if that comes to an end, with 70 if it fails with a runtime error, and
    with 74 if the outer world fails.  Without arguments the status is 0 or 74. -/
theorem endings_agree (plain : ¬ "--".toList <+: path.toList)
    (file : String → Except IoFailure (List UInt8)) :
    (∀ failure, textOf (file path) = .error failure → ∀ input,
      (ofArgs ["--ast", path]).perform file input = failed 74 [] (.io failure) ∧
      (ofArgs [path]).perform file input = failed 74 [] (.io failure)) ∧
    (∀ source e, textOf (file path) = .ok source → Program.ofSource source = .error e → ∀ input,
      (ofArgs ["--ast", path]).perform file input = failed 65 [] e ∧
      (ofArgs [path]).perform file input = failed 65 [] e) ∧
    (∀ source p, textOf (file path) = .ok source → Program.ofSource source = .ok p → ∀ input,
      (ofArgs ["--ast", path]).perform file input = ⟨0, Text.encode (p.outline ++ "\n"), []⟩ ∧
      (∀ outcome s, Effect.runSource source { reader := { bytes := input } } = .ok outcome s →
        (ofArgs [path]).perform file input = ⟨0, s.writer.written, []⟩) ∧
      (∀ e s, Effect.runSource source { reader := { bytes := input } } = .error e s →
        ((∃ line cause text, e = .runtime line cause text) ∧
          (ofArgs [path]).perform file input = failed 70 s.writer.written e) ∨
        ((∃ failure, e = .io failure) ∧
          (ofArgs [path]).perform file input = failed 74 s.writer.written e))) ∧
    (∀ input, ((ofArgs ["--ast", path]).perform file input).status ≠ 0 ↔
      (∃ failure, textOf (file path) = .error failure) ∨
      ∃ source e, textOf (file path) = .ok source ∧ Program.ofSource source = .error e) ∧
    (∀ input, ((ofArgs []).perform file input).status = 0 ∨
      ((ofArgs []).perform file input).status = 74) := by
  have unreadable {failure : IoFailure} (h : textOf (file path) = .error failure)
      (input : List UInt8) : (outline path).perform file input = failed 74 [] (.io failure) ∧
        (run path).perform file input = failed 74 [] (.io failure) :=
    perform_of_load_error (load_of_unreadable h) input
  have wrong {source : String} {e : Error} (h : textOf (file path) = .ok source)
      (bad : Program.ofSource source = .error e) (input : List UInt8) :
      (outline path).perform file input = failed 65 [] e ∧
        (run path).perform file input = failed 65 [] e := by
    rw [← Program.status_of_ofSource bad]
    exact perform_of_load_error ((load_of_text h).trans bad) input
  have outlines : ofArgs ["--ast", path] = .outline path := rfl
  rw [outlines, ofArgs_of_path plain]
  refine ⟨fun _ => unreadable, fun _ _ => wrong, ?_, ?_, status_of_prompt⟩
  · intro source p text spelled input
    have loaded := (load_of_text text).trans spelled
    refine ⟨perform_outline loaded input, ?_, ?_⟩
    · intro outcome s ran
      rw [runSource_of_ofSource spelled] at ran
      exact perform_run_of_ok loaded ran
    · intro e s ran
      rw [runSource_of_ofSource spelled] at ran
      rw [perform_run_of_error loaded ran]
      rcases Program.runtime_or_io_of_run spelled ran with ⟨line, cause, text, rfl⟩ |
        ⟨failure, rfl⟩
      · exact .inl ⟨⟨line, cause, text, rfl⟩, rfl⟩
      · exact .inr ⟨⟨failure, rfl⟩, rfl⟩
  · intro input
    constructor
    · intro nonzero
      cases text : textOf (file path) with
      | error failure => exact .inl ⟨failure, rfl⟩
      | ok source =>
        cases made : Program.ofSource source with
        | error e => exact .inr ⟨source, e, rfl, made⟩
        | ok p =>
          rw [perform_outline ((load_of_text text).trans made)] at nonzero
          exact absurd rfl nonzero
    · rintro (⟨failure, text⟩ | ⟨source, e, text, bad⟩)
      · rw [(unreadable text input).1]
        exact (by decide : (74 : UInt8) ≠ 0)
      · rw [(wrong text bad input).1]
        exact (by decide : (65 : UInt8) ≠ 0)

/-- A file with the text `x = y` has a tree, which is written, and fails when it is run. -/
theorem endings_agree_of_unbound :
    let file : String → Except IoFailure (List UInt8) := fun _ => .ok (Text.encode "x = y")
    ¬ "--".toList <+: "unbound.npl".toList ∧
      (ofArgs ["--ast", "unbound.npl"]).perform file [] =
        ⟨0, Text.encode "(program (= x y))\n", []⟩ ∧
      (ofArgs ["unbound.npl"]).perform file [] =
        failed 70 [] (.runtime 1 .name "Name 'y' is not defined.") := by
  intro file
  have plain : ¬ "--".toList <+: "unbound.npl".toList := by decide
  have text : textOf (file "unbound.npl") = .ok "x = y" := by
    unfold textOf
    simp only [file, Text.decode?_encode]
  have spelled : Program.ofSource "x = y" = .ok ⟨[.expression
      (.assign ⟨.identifier, "x", 1⟩ (.var ⟨.identifier, "y", 1⟩))]⟩ := rfl
  have ran : Effect.runSource "x = y" { reader := { bytes := [] } } =
      .error (.runtime 1 .name "Name 'y' is not defined.") { reader := { bytes := [] } } := rfl
  obtain ⟨_, _, both, _⟩ := endings_agree plain file
  obtain ⟨outlined, _, fails⟩ := both "x = y" _ text spelled []
  refine ⟨plain, outlined, ?_⟩
  rcases fails _ _ ran with ⟨_, ended⟩ | ⟨⟨failure, no⟩, _⟩
  · exact ended
  · cases no

end Command

end NumScript
