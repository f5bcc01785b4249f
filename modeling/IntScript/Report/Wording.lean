import IntScript.Evaluation
import IntScript.Node.Grammar
import IntScript.Report
import IntScript.Text.Blank

/-! The wording of errors in a program. -/
namespace IntScript

/-- The text of a token as messages show it: a line feed is written as an escape. -/
def Token.shown (t : Token) : String := if t.kind = .newline then "\\n" else t.lexeme

def SyntaxError.template : SyntaxError → String
  | .expected wanted found =>
    "expected " ++ wanted.name ++ ", got " ++ found.kind.name ++ " ('\x7b\x7d')"
  | .noStatement found => "unexpected " ++ found.kind.name ++ " '\x7b\x7d' at start of statement"
  | .noOperand found => "unexpected " ++ found.kind.name ++ " '\x7b\x7d' in expression"

/-- A syntax error is reported at the token that was found. Its line is shown
unless there is nothing to see of the token. -/
def SyntaxError.notice (e : SyntaxError) : Notice where
  category := .syntaxError
  template := e.template
  values := [e.found.shown]
  place := .ofPosition e.found.position
  diagnosis := !(Text.strip e.found.lexeme).isEmpty

def UnknownCharacter.notice (u : UnknownCharacter) : Notice where
  category := .warning
  template := "unknown character '\x7b\x7d', skipping"
  values := [String.singleton u.char]
  place := .ofPosition u.position

/-- The notice of an error that is the program's own; trees that cannot be written
out and trees nested too deep have none. -/
def EvalError.notice? : EvalError → Option Notice
  | .unbound name place => some {
      category := .nameError, template := "variable '\x7b\x7d' is not defined",
      values := [name], place }
  | .stringOperand text place => some {
      category := .typeError
      template := "string \x7b\x7d cannot be evaluated as an integer expression"
      values := ["\"" ++ text ++ "\""], place }
  | .zeroDivision expr place => some {
      category := .arithmeticError, template := "division by zero in '\x7b\x7d'",
      values := [expr], place, diagnosis := false }
  | .notStatement expr place => some {
      category := .typeError, template := "'\x7b\x7d' is not a statement",
      values := [expr], place }
  | .notExpression expr place => some {
      category := .typeError, template := "'\x7b\x7d' is not an expression",
      values := [expr], place }
  | .operandStatement _ | .tooDeep => none

end IntScript
