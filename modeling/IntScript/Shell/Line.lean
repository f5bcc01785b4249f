import IntScript.Text.Blank
import IntScript.Token.Piece

/-! Lines typed at the prompt. A line may start with the name of a shell command;
a question mark in front asks for help. -/
namespace IntScript

inductive TypedLine where
  | empty
  /-- A line set off by an exclamation mark, which names no command. -/
  | setOff (line : String)
  | named (name argument line : String)
deriving DecidableEq

namespace TypedLine

/-- Splits the name in front of a line from what follows it. -/
def split (line : List Char) : TypedLine :=
  let name := line.takeWhile isWordChar
  .named (String.ofList name) (String.ofList (Text.stripChars (line.drop name.length)))
    (String.ofList line)

def read (typed : String) : TypedLine :=
  match Text.stripChars typed.toList with
  | [] => .empty
  | '!' :: rest => .setOff (String.ofList ('!' :: rest))
  | '?' :: rest => split ("help ".toList ++ rest)
  | line => split line

end TypedLine
end IntScript
