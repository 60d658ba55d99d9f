/-
  The console: where a program reads lines and writes text.

  A reader is the bytes that are still to be read.  A writer is the bytes that have been written.
  Either can be faulty: a reader may fail where its bytes end, and a writer may take only so many
  bytes or flushes before each further one fails.  A fault is a value like any other, so that what
  a program does before, at and after a failure is part of its meaning.
-/
import NumScript.Error
import NumScript.Text.Utf8

namespace NumScript

/-- The byte that ends a line. -/
def lineEnd : UInt8 := 10

/-! ## Reading -/

/-- A source of bytes. -/
structure Reader where
  /-- The bytes that are still to be read. -/
  bytes : List UInt8
  /-- How reading fails at the end of the bytes; without it, that is the end of the input. -/
  fault : Option IoFailure := none

namespace Reader

/-- The bytes up to and including the first line end, or all if there is none. -/
def nextLine (r : Reader) : List UInt8 :=
  r.bytes.take ((r.bytes.takeWhile (· != lineEnd)).length + 1)

/-- The reader behind its next line. -/
def skipLine (r : Reader) : Reader :=
  { r with bytes := r.bytes.drop r.nextLine.length }

/-- The text of the next line, with its line end if it has one; `none` at the end of the input.  A
    fault shows where the line would need a byte more than there is, and hides what was read. -/
def lineText (r : Reader) : Except IoFailure (Option String) :=
  match r.fault with
  | some failure => if lineEnd ∈ r.nextLine then decode r.nextLine else .error failure
  | none => if r.nextLine = [] then .ok none else decode r.nextLine
where
  /-- A line as text. -/
  decode (line : List UInt8) : Except IoFailure (Option String) :=
    match Text.decode? line with
    | some text => .ok (some text)
    | none => .error .notUtf8

/-- Takes the next line off a reader.  The line is gone also if it is not text or cut short. -/
def readLine (r : Reader) : Except IoFailure (Option String) × Reader :=
  (r.lineText, r.skipLine)

/-- A line and what is behind it are all that there was. -/
theorem nextLine_append_bytes_skipLine (r : Reader) :
    r.nextLine ++ r.skipLine.bytes = r.bytes := by
  simp only [nextLine, skipLine, List.length_take]
  rw [List.take_eq_take_min, List.take_append_drop]

theorem bne_of_not_mem {bytes : List UInt8} (h : lineEnd ∉ bytes) :
    ∀ byte ∈ bytes, (byte != lineEnd) = true := by
  intro byte mem
  refine bne_iff_ne.mpr fun same => h ?_
  rw [← same]
  exact mem

/-- Bytes up to the first line end are the next line. -/
theorem nextLine_append {before : List UInt8} (h : lineEnd ∉ before) (after : List UInt8)
    (fault : Option IoFailure) :
    nextLine ⟨before ++ lineEnd :: after, fault⟩ = before ++ [lineEnd] := by
  have here : (before ++ lineEnd :: after).takeWhile (· != lineEnd) = before := by
    rw [List.takeWhile_append_of_pos (bne_of_not_mem h), List.takeWhile_cons_of_neg (by simp),
      List.append_nil]
  show List.take (((before ++ lineEnd :: after).takeWhile (· != lineEnd)).length + 1)
    (before ++ lineEnd :: after) = _
  rw [here, List.take_length_add_append]
  rfl

/-- Without a line end, all bytes are the next line. -/
theorem nextLine_of_not_mem {r : Reader} (h : lineEnd ∉ r.bytes) : r.nextLine = r.bytes := by
  have all : r.bytes.takeWhile (· != lineEnd) = r.bytes := by
    rw [← List.append_nil r.bytes, List.takeWhile_append_of_pos (bne_of_not_mem h),
      List.takeWhile_nil]
  rw [nextLine, all, List.take_of_length_le (Nat.le_succ _)]

/-- Only at the end of the bytes does a line take none of them. -/
theorem nextLine_eq_nil_iff (r : Reader) : r.nextLine = [] ↔ r.bytes = [] := by
  simp [nextLine]

end Reader

/-! ## Writing -/

/-- How much a faulty device still does, and how it fails after that. -/
structure Limit where
  /-- What is left. -/
  left : Nat
  /-- The failure once nothing is left. -/
  failure : IoFailure

/-- A sink for bytes. -/
structure Writer where
  /-- The bytes that have been written, first to last. -/
  written : List UInt8 := []
  /-- How many bytes are still taken, if not all. -/
  room : Option Limit := none
  /-- How many flushes still succeed, if not all. -/
  flushes : Option Limit := none

namespace Writer

/-- Writes bytes.  Where they do not all fit, those that fit are written before the failure. -/
def put (w : Writer) (bytes : List UInt8) : Except IoFailure Unit × Writer :=
  match w.room with
  | none => (.ok (), { w with written := w.written ++ bytes })
  | some limit =>
    let next :=
      { w with
        written := w.written ++ bytes.take limit.left
        room := some { limit with left := limit.left - bytes.length } }
    if bytes.length ≤ limit.left then (.ok (), next) else (.error limit.failure, next)

/-- Sees to it that everything written has arrived. -/
def flush (w : Writer) : Except IoFailure Unit × Writer :=
  match w.flushes with
  | none => (.ok (), w)
  | some limit =>
    if limit.left = 0 then (.error limit.failure, w)
    else (.ok (), { w with flushes := some { limit with left := limit.left - 1 } })

end Writer

end NumScript
