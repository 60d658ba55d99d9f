/-
  Tokens: the words and signs that a program is written in.

  A token keeps the text it was written as and the line it starts on, and its kind says what it is.
  Five words are keywords; every other word is a name.  A number has its value in its kind.
-/

namespace NumScript

/-- What a token is. -/
inductive TokenKind where
  | leftParen | rightParen | leftBrace | rightBrace
  | minus | plus | slash | star
  | bang
  | equal | equalEqual
  | identifier
  /-- A literal and its value. -/
  | number (value : Float)
  | elseWord | haltWord | ifWord | inputWord | printWord
deriving DecidableEq

/-- A word or sign of a program. -/
structure Token where
  /-- What it is. -/
  kind : TokenKind
  /-- The text it was written as. -/
  lexeme : String
  /-- The line it starts on, the first being 1. -/
  line : Nat
deriving DecidableEq

namespace TokenKind

/-- The kind of a word: one of the five keywords, in exactly this case, or a name. -/
def ofWord (word : String) : TokenKind :=
  match word with
  | "else" => .elseWord
  | "halt" => .haltWord
  | "if" => .ifWord
  | "input" => .inputWord
  | "print" => .printWord
  | _ => .identifier

/-- The kind of a sign that is a token whatever follows it. -/
def ofSign? (c : Char) : Option TokenKind :=
  match c with
  | '(' => some .leftParen
  | ')' => some .rightParen
  | '{' => some .leftBrace
  | '}' => some .rightBrace
  | '-' => some .minus
  | '+' => some .plus
  | '*' => some .star
  | '/' => some .slash
  | '!' => some .bang
  | _ => none

/-- How tightly an operator between two operands binds: products before sums before comparison.
    Level 0 is for the tokens that are no such operator. -/
def level : TokenKind → Nat
  | .star | .slash => 3
  | .plus | .minus => 2
  | .equalEqual => 1
  | _ => 0

end TokenKind

end NumScript
