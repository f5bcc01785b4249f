/-! Lines of a text. Only the line feed separates lines; a text read from a file
first has its other line ends turned into line feeds. -/
namespace IntScript.Text

/-- The stretches between line feeds; a text without one is a single line. -/
def lines (text : String) : List String :=
  (text.toList.splitOn '\n').map String.ofList

def unifyBreaks : List Char → List Char
  | [] => []
  | '\r' :: '\n' :: rest => '\n' :: unifyBreaks rest
  | '\r' :: rest => '\n' :: unifyBreaks rest
  | c :: rest => c :: unifyBreaks rest

/-- The text with every carriage return, alone or before a line feed, replaced
by one line feed. -/
def unifyLineEnds (text : String) : String := String.ofList (unifyBreaks text.toList)

end IntScript.Text
