import IntScript.Position
import IntScript.Text.Quoted

/-! Tokens: the words of a source text, each with the position of its first
character. -/
namespace IntScript

inductive TokenKind where
  | number
  | string
  | identifier
  | assign
  | plus
  | minus
  | times
  | divide
  | lparen
  | rparen
  | comma
  | colon
  | newline
  | print
  | eof
deriving DecidableEq

/-- The name of a kind, as messages give it. -/
def TokenKind.name : TokenKind → String
  | .number => "NUMBER"
  | .string => "STRING"
  | .identifier => "IDENTIFIER"
  | .assign => "ASSIGN"
  | .plus => "PLUS"
  | .minus => "MINUS"
  | .times => "TIMES"
  | .divide => "DIVIDE"
  | .lparen => "LPAREN"
  | .rparen => "RPAREN"
  | .comma => "COMMA"
  | .colon => "COLON"
  | .newline => "NEWLINE"
  | .print => "PRINT"
  | .eof => "EOF"

structure Token where
  kind : TokenKind
  lexeme : String
  position : Position
deriving DecidableEq

namespace Token

/-- The token that stands at the end of every source. -/
def final (position : Position) : Token := ⟨.eof, "", position⟩

/-- One-line description of a token. -/
def describe (t : Token) : String :=
  "<" ++ t.kind.name ++ ": " ++ Text.quoted t.lexeme ++ " at " ++
    toString t.position.line ++ ":" ++ toString t.position.col ++ ">"

end Token
end IntScript
