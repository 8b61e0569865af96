/-!
The lines of a text as they are shown to a reader.
-/

set_option autoImplicit false

namespace VisualBasic

/-- The lines that a text editor shows: a line feed ends a line, one carriage return before it
belongs to the break, and no line follows a final line feed. -/
def textLines : List Char → List (List Char)
  | [] => []
  | '\n' :: rest => [] :: textLines rest
  | '\r' :: '\n' :: rest => [] :: textLines rest
  | c :: rest =>
    match textLines rest with
    | [] => [[c]]
    | line :: lines => (c :: line) :: lines

end VisualBasic
