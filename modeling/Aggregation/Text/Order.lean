/-! The order of texts by code points, and sorting by it.

Sorting is stable: of equal keys the one that came first stays first. -/
namespace Aggregation.Text

/-- Whether a text comes before another or equals it. -/
def precedes : List Char → List Char → Bool
  | [], _ => true
  | _ :: _, [] => false
  | a :: as, b :: bs =>
    if Nat.blt a.toNat b.toNat then true
    else if Nat.blt b.toNat a.toNat then false
    else precedes as bs

variable {α : Type}

/-- Put an item before the first that comes after it. -/
def insertSorted (key : α → List Char) (a : α) : List α → List α
  | [] => [a]
  | b :: rest =>
    if precedes (key b) (key a) then b :: insertSorted key a rest else a :: b :: rest

def sortedBy (key : α → List Char) (items : List α) : List α :=
  items.foldl (fun sorted a => insertSorted key a sorted) []

/-- Texts in order. -/
def sorted (texts : List String) : List String :=
  sortedBy String.toList texts

end Aggregation.Text
