/-!
# Hanging indents

A text of several lines is set under its first line: `Text.hanging` moves every
later line to the right, empty ones too.
-/

set_option autoImplicit false

namespace SqlSelect.Text

/-- The text with the lines after the first moved to the right. -/
def hanging (width : Nat) (s : String) : String :=
  let lineBreak := String.ofList ('\n' :: List.replicate width ' ')
  String.join (s.toList.map fun c => if c = '\n' then lineBreak else c.toString)

end SqlSelect.Text
