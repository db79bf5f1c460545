import TypeSchema.Text.Class

/-!
# Lines

A text is split at line feeds; a carriage return right before one belongs to the line's end, and a
line feed at the very end of the text opens no further line.
-/

namespace TypeSchema.Text

/-- The lines of a text, without their ends. -/
def lines : List Char → List (List Char)
  | [] => []
  | '\n' :: rest => [] :: lines rest
  | '\r' :: '\n' :: rest => [] :: lines rest
  | c :: rest =>
    match lines rest with
    | [] => [[c]]
    | line :: more => (c :: line) :: more

/-- A text without the white space at its start. -/
def trimStart (cs : List Char) : List Char := cs.dropWhile isWhite

/-- A text without the white space at its end. -/
def trimEnd (cs : List Char) : List Char := (cs.reverse.dropWhile isWhite).reverse

/-- A text without the white space at its two ends. -/
def trim (cs : List Char) : List Char := trimEnd (trimStart cs)

end TypeSchema.Text
