/-! Cutting a text at every occurrence of a character.

`split` leaves one piece more than there are marks, so a text without a mark is one piece, and a
text that ends in a mark has an empty last piece. `lines` drops that one. -/
namespace Aggregation.Text

/-- Put a character in front of the first piece. -/
def joinFirst (c : Char) : List (List Char) → List (List Char)
  | [] => [[c]]
  | piece :: rest => (c :: piece) :: rest

def split (mark : Char) : List Char → List (List Char)
  | [] => [[]]
  | c :: rest => if c = mark then [] :: split mark rest else joinFirst c (split mark rest)

/-- The pieces that a newline ends, and the last one if it is not empty. -/
def lines (cs : List Char) : List (List Char) :=
  let pieces := split '\n' cs
  if pieces.getLast? = some [] then pieces.dropLast else pieces

end Aggregation.Text
