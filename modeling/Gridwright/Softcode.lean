/-!
# Literal text inside softcode

The interpreter that receives the generated commands evaluates brackets,
percent substitutions and function arguments wherever it meets them.  Text that
must come out as it was written is therefore escaped: each character the
evaluator acts upon gets a backslash in front, and a line break, however it is
spelled, becomes the substitution `%r`.
-/

namespace Gridwright.Softcode

/-- The characters the evaluator acts upon. -/
def specialChars : List Char :=
  ['\\', '$', '%', '(', ')', ',', ';', '[', ']', '^', '\x7b', '\x7d']

/-- The substitution that evaluates to a line break. -/
def lineBreak : List Char := ['%', 'r']

/-- One character as it has to be written to evaluate to itself. -/
def escapeChar (c : Char) : List Char :=
  if c = '\n' ∨ c = '\r' then lineBreak
  else if c ∈ specialChars then ['\\', c]
  else [c]

/-- A text as it has to be written to evaluate to itself.  A carriage return
followed by a line feed is one line break. -/
def escapeChars : List Char → List Char
  | [] => []
  | '\r' :: '\n' :: rest => lineBreak ++ escapeChars rest
  | c :: rest => escapeChar c ++ escapeChars rest

def escape (text : String) : String := String.ofList (escapeChars text.toList)

end Gridwright.Softcode
