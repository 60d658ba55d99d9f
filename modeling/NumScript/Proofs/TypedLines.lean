/-
  Programs that stand on one line each.

  A text of several lines can be read in two ways: as one program, or line by line.  Whole, it makes
  the statements of its lines one after the other, each on its own line
  (`ProgramLine.ofSource_script`).  On a reader, its bytes are those of its first line, up to the
  line end, and then those of the others, because in UTF-8 the byte that ends a line is part of no
  other character (`Text.lineEnd_not_mem_encode`); so the first line is what is taken, and the
  others are left (`Reader.readLine_ofLines`).

  All tokens of a single line are on line 1.  So moving its program to line 1 leaves it as it is
  (`Program.reline_of_line`).
-/
import NumScript.Console
import NumScript.Proofs.Joining

namespace NumScript

/-! ## Lines of text -/

/-- The lines, each followed by a line end. -/
def Text.ofLines : List String → String
  | [] => ""
  | line :: rest => line ++ "\n" ++ ofLines rest

/-- A reader of lines. -/
def Reader.ofLines (lines : List String) : Reader :=
  { bytes := Text.encode (Text.ofLines lines) }

namespace Text

/-- Only the line end is encoded with its byte. -/
theorem eq_of_lineEnd_mem {c : Char} (h : lineEnd ∈ String.utf8EncodeChar c) : c = '\n' := by
  have byte {n : Nat} (same : lineEnd = UInt8.ofNat n) : n % 256 = 10 := by
    have values := congrArg UInt8.toNat same
    rw [UInt8.toNat_ofNat'] at values
    exact values.symm
  unfold String.utf8EncodeChar at h
  dsimp only at h
  -- all bytes of a longer encoding are 128 or more
  split at h
  · have code := byte (List.mem_singleton.mp h)
    refine Char.ext (UInt32.toNat_inj.mp ?_)
    show c.val.toNat = 10
    omega
  · split at h
    · simp only [List.mem_cons, List.not_mem_nil, or_false] at h
      rcases h with h | h <;> have code := byte h <;> omega
    · split at h
      · simp only [List.mem_cons, List.not_mem_nil, or_false] at h
        rcases h with h | h | h <;> have code := byte h <;> omega
      · simp only [List.mem_cons, List.not_mem_nil, or_false] at h
        rcases h with h | h | h | h <;> have code := byte h <;> omega

/-- A line without line end is encoded without one. -/
theorem lineEnd_not_mem_encode {line : String} (whole : '\n' ∉ line.toList) :
    lineEnd ∉ encode line := by
  intro mem
  obtain ⟨c, there, mem⟩ := List.mem_flatMap.mp mem
  exact whole (eq_of_lineEnd_mem mem ▸ there)

end Text

namespace Reader

variable {line : String}

/-- A line is read up to its line end, and what stands behind that is left. -/
theorem readLine_append (whole : '\n' ∉ line.toList) (more : List UInt8)
    (fault : Option IoFailure) :
    readLine ⟨Text.encode line ++ lineEnd :: more, fault⟩ =
      (.ok (some (line ++ "\n")), ⟨more, fault⟩) := by
  have next := nextLine_append (Text.lineEnd_not_mem_encode whole) more fault
  have joined := nextLine_append_bytes_skipLine ⟨Text.encode line ++ lineEnd :: more, fault⟩
  have ended : lineEnd ∈ Text.encode line ++ [lineEnd] :=
    List.mem_append_right _ (List.mem_singleton_self _)
  have decoded : lineText.decode (Text.encode line ++ [lineEnd]) = .ok (some (line ++ "\n")) := by
    rw [lineText.decode, show Text.encode line ++ [lineEnd] = Text.encode (line ++ "\n") from
      (Text.encode_append line "\n").symm, Text.decode?_encode]
  have text : lineText ⟨Text.encode line ++ lineEnd :: more, fault⟩ =
      .ok (some (line ++ "\n")) := by
    unfold lineText
    rw [next]
    cases fault with
    | none => exact (if_neg (List.ne_nil_of_mem ended)).trans decoded
    | some failure => exact (if_pos ended).trans decoded
  have left : (skipLine ⟨Text.encode line ++ lineEnd :: more, fault⟩).bytes = more := by
    rw [next, List.append_assoc] at joined
    exact (List.cons.inj (List.append_cancel_left joined)).2
  exact Prod.ext text (congrArg (Reader.mk · fault) left)

/-- The last line is read to the end of the input. -/
theorem readLine_last (whole : '\n' ∉ line.toList) (some_line : line ≠ "") :
    readLine ⟨Text.encode line, none⟩ = (.ok (some line), ⟨[], none⟩) := by
  have next : nextLine ⟨Text.encode line, none⟩ = Text.encode line :=
    nextLine_of_not_mem (Text.lineEnd_not_mem_encode whole)
  have some_bytes : Text.encode line ≠ [] := by
    intro none
    have decoded := Text.decode?_encode line
    rw [none, show ([] : List UInt8) = Text.encode "" from rfl, Text.decode?_encode] at decoded
    exact some_line (Option.some.inj decoded).symm
  have text : lineText ⟨Text.encode line, none⟩ = .ok (some line) := by
    unfold lineText
    rw [next]
    show (if Text.encode line = [] then _ else _) = _
    rw [if_neg some_bytes, lineText.decode, Text.decode?_encode]
  have left : (skipLine ⟨Text.encode line, none⟩).bytes = [] := by
    show (Text.encode line).drop (nextLine ⟨Text.encode line, none⟩).length = []
    rw [next, List.drop_length]
  exact Prod.ext text (congrArg (Reader.mk · none) left)

/-- The first of some lines is read, and the others are left. -/
theorem readLine_ofLines (whole : '\n' ∉ line.toList) (rest : List String) :
    (ofLines (line :: rest)).readLine = (.ok (some (line ++ "\n")), ofLines rest) := by
  have bytes : ofLines (line :: rest) =
      ⟨Text.encode line ++ lineEnd :: Text.encode (Text.ofLines rest), none⟩ := by
    rw [ofLines, Text.ofLines, Text.encode_append, Text.encode_append,
      show Text.encode "\n" = [lineEnd] from rfl, List.append_assoc]
    rfl
  rw [bytes, readLine_append whole]
  rfl

theorem readLine_ofLines_nil : (ofLines []).readLine = (.ok none, ofLines []) := rfl

end Reader

/-! ## Tokens of one line -/

namespace Source

/-- No piece of a single line ends a line. -/
theorem lineEnds_of_line {text : List Char} (whole : '\n' ∉ text) :
    ∀ piece ∈ pieces text, piece.lineEnds = 0 := by
  intro piece mem
  refine if_neg fun ends => whole ?_
  rw [← flatMap_text_pieces text]
  exact List.mem_flatMap.mpr ⟨piece, mem, ends ▸ List.mem_singleton_self _⟩

/-- Without line ends all items are on the line of the first. -/
theorem itemsFrom_reline_self {pieces : List Piece} (h : ∀ piece ∈ pieces, piece.lineEnds = 0)
    (line : Nat) :
    (itemsFrom line pieces).map (Item.reline fun _ => line) = itemsFrom line pieces := by
  induction pieces with
  | nil => rfl
  | cons piece rest ih =>
    have here := piece.item?_reline (fun _ => line) line
    rw [itemsFrom, h piece List.mem_cons_self, Nat.add_zero, List.map_append,
      ih fun piece mem => h piece (List.mem_cons_of_mem _ mem)]
    refine congrArg (· ++ itemsFrom line rest) ?_
    cases item : piece.item? line with
    | none => rfl
    | some item' =>
      rw [item] at here
      exact congrArg Option.toList here.symm

end Source

/-! ## Programs of one line -/

namespace Program

/-- The program of a line is on line 1. -/
theorem reline_of_line {line : String} {p : Program} (whole : '\n' ∉ line.toList)
    (h : ofSource line = .ok p) : p.reline (fun _ => 1) = p := by
  obtain ⟨tokens, cut, made⟩ := ofSource_eq_ok_iff.mp h
  have same := Source.itemsFrom_reline_self (Source.lineEnds_of_line whole) 1
  have tokens_same : tokens.map (Token.reline fun _ => 1) = tokens := by
    have both := Source.tokensOf_reline (fun _ => 1) (Source.items line)
    rw [show (Source.items line).map _ = Source.items line from same,
      show Source.tokensOf (Source.items line) = .ok tokens from cut] at both
    exact (Except.ok.inj both).symm
  have relined := (Relabelling.lines fun _ => 1).ofTokens_map tokens
  rw [show tokens.map (Relabelling.lines fun _ => 1).token = tokens from tokens_same, made]
    at relined
  exact (Except.ok.inj relined).symm

/-- A line end behind a program is not seen. -/
theorem ofSource_line {line : String} {p : Program} (h : ofSource line = .ok p) :
    ofSource (line ++ "\n") = .ok p := by
  have joined := ofSource_append_blank (c := '\n') rfl h (show ofSource "" = .ok ⟨[]⟩ from rfl)
  rw [String.append_empty] at joined
  rw [show line ++ "\n" = line ++ '\n'.toString from rfl, joined]
  exact congrArg (fun body => Except.ok (Program.mk body)) (List.append_nil p.body)

/-! ## Programs on lines below each other -/

theorem reline_append (body body' : List Stmt) (line : Nat → Nat) :
    (Program.mk (body ++ body')).reline line =
      ⟨((Program.mk body).reline line).body ++ ((Program.mk body').reline line).body⟩ := by
  refine congrArg Program.mk ?_
  show Stmt.mapAll _ (body ++ body') = Stmt.mapAll _ body ++ Stmt.mapAll _ body'
  rw [Stmt.mapAll_eq_map, List.map_append, ← Stmt.mapAll_eq_map, ← Stmt.mapAll_eq_map]

end Program

/-- A line that is a program of its own and has no `input` in it. -/
structure ProgramLine where
  /-- The line, without its end. -/
  text : String
  /-- The program that it is. -/
  program : Program
  whole : '\n' ∉ text.toList
  spelled : Program.ofSource text = .ok program
  quiet : ∀ tokens, Source.tokens text = .ok tokens → ∀ t ∈ tokens, t.kind ≠ .inputWord

namespace ProgramLine

/-- The text of some lines. -/
def script (lines : List ProgramLine) : String :=
  Text.ofLines (lines.map text)

/-- The statements of each line, if the first is line `n + 1`. -/
def parts (n : Nat) : List ProgramLine → List (List Stmt)
  | [] => []
  | line :: rest => (line.program.reline (· + n)).body :: parts (n + 1) rest

/-- The statements of some lines, moved down, are those of the same lines further down. -/
theorem reline_parts (lines : List ProgramLine) (n k : Nat) :
    (Program.mk (parts n lines).flatten).reline (· + k) = ⟨(parts (n + k) lines).flatten⟩ := by
  induction lines generalizing n with
  | nil => rfl
  | cons line rest ih =>
    have here : (line.program.reline (· + n)).reline (· + k) =
        line.program.reline (· + (n + k)) := by
      rw [Program.reline_reline]
      exact congrArg line.program.reline (funext fun l => Nat.add_assoc l n k)
    rw [parts, List.flatten_cons, Program.reline_append, ih, here, Nat.add_right_comm]
    rfl

/-- The text of some lines is the program of their statements, each on its own line. -/
theorem ofSource_script (lines : List ProgramLine) :
    Program.ofSource (script lines) = .ok ⟨(parts 0 lines).flatten⟩ := by
  induction lines with
  | nil => rfl
  | cons line rest ih =>
    have one : (line.text.toList ++ ['\n']).count '\n' = 1 := by
      rw [Program.count_append_newline, List.count_eq_zero.mpr line.whole]
    have joined := Program.ofSource_append_blank (c := '\n') rfl line.spelled ih
    rw [one, reline_parts] at joined
    refine joined.trans (congrArg (fun body => Except.ok (Program.mk body)) ?_)
    show line.program.body ++ (parts (0 + 1) rest).flatten =
      (line.program.reline id).body ++ (parts (0 + 1) rest).flatten
    rw [Program.reline_id]

end ProgramLine

end NumScript
