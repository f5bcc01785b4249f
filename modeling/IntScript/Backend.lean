import IntScript.Node

/-! Code generation. A backend takes the statements of a program and tells
whether it could lower them; none of these backends produces code. -/
namespace IntScript

inductive Backend where
  /-- Accepts every program in silence. -/
  | silent
  /-- Announces what a native backend would do. -/
  | announcing
deriving DecidableEq

namespace Backend

def announce (text : String) : String := "LLVM Backend: " ++ text ++ "\n"

/-- Lowers a program, if there is one; gives the text written and the success. -/
def lower : Backend → Option (List Node) → String × Bool
  | .silent, _ => ("", true)
  | .announcing, none =>
    (announce "Initializing code generation (mock)." ++ announce "No program to lower.", false)
  | .announcing, some program =>
    (announce "Initializing code generation (mock)." ++
      announce ("Processing " ++ toString program.length ++ " statement(s) (mock)...") ++
      announce "IR generation complete (mock).", true)

end Backend
end IntScript
