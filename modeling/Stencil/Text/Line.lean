/-!
# Lines and line endings

`splitOn` cuts a text at a separator and `lines` cuts it into lines.  `unixLines` reads every pair
of a carriage return and a newline as a newline.  `excerpt` keeps the end of a text for an error
message.
-/

namespace Stencil.Text

/-- The text with each carriage return and newline pair read as a newline. -/
def unixLines : List Char → List Char
  | [] => []
  | '\r' :: '\n' :: rest => '\n' :: unixLines rest
  | c :: rest => c :: unixLines rest

/-- The pieces of a text between the separators; there is one more of them than of separators. -/
def splitOn (sep : Char) : List Char → List (List Char)
  | [] => [[]]
  | c :: rest =>
    if c = sep then [] :: splitOn sep rest
    else
      match splitOn sep rest with
      | [] => [[c]]
      | piece :: others => (c :: piece) :: others

/-- The line without a carriage return at its end. -/
def chomp (line : List Char) : List Char :=
  if line.getLast? = some '\r' then line.dropLast else line

/-- The lines of a text: what follows the last newline is a line only when it is not empty, and a
carriage return before a newline belongs to the line ending. -/
def lines (cs : List Char) : List (List Char) :=
  let all := splitOn '\n' cs
  let ended := all.dropLast.map chomp
  match all.getLast? with
  | none | some [] => ended
  | some final => ended ++ [final]

/-- How many characters of a text an error message shows. -/
def excerptLength : Nat := 32

/-- The end of a text, as shown in error messages. -/
def excerpt (cs : List Char) : List Char :=
  cs.drop (cs.length - excerptLength)

theorem length_excerpt_le (cs : List Char) : (excerpt cs).length ≤ excerptLength := by
  simp only [excerpt, List.length_drop]
  omega

end Stencil.Text
