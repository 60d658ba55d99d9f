/-
  Reading programs off a list of tokens.

  A cursor stands between the tokens that have been read and those that are left.  Reading a program
  takes all tokens, or those up to the first that does not fit, that one included; so after an error
  reading can go on behind the misplaced token.
-/
import NumScript.Draft
import NumScript.Source

namespace NumScript

/-- A place in a list of tokens. -/
structure Cursor where
  /-- The tokens that are left. -/
  rest : List Token
  /-- The line of the last token that was read. -/
  line : Nat := 1

namespace Cursor

/-- Reads on from a draft: the program or the error, and the place reached. -/
def readFrom (d : Draft) (line : Nat) : List Token → Except Error Program × Cursor
  | [] => (d.finish line, ⟨[], line⟩)
  | t :: rest =>
    match d.step t with
    | .ok next => readFrom next t.line rest
    | .error e => (.error e, ⟨rest, t.line⟩)

/-- Reads a program: it goes up to the last token or to the first that does not fit. -/
def program (c : Cursor) : Except Error Program × Cursor :=
  readFrom .empty c.line c.rest

/-- What reading `n` programs one after the other gives. -/
def programs : Nat → Cursor → List (Except Error Program)
  | 0, _ => []
  | n + 1, c => c.program.1 :: programs n c.program.2

end Cursor

namespace Program

/-- The program that some tokens make. -/
def ofTokens (tokens : List Token) : Except Error Program :=
  (Cursor.program ⟨tokens, 1⟩).1

/-- The program that a source text spells: the first lexical error wins over syntax errors. -/
def ofSource (source : String) : Except Error Program :=
  (Source.tokens source).bind ofTokens

end Program

end NumScript
