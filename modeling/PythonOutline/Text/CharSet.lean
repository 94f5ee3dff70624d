/-! # Sets of characters

A set is kept as the inclusive ranges that were put into it; nothing is ever taken out. A reversed
range holds no character.
-/

namespace PythonOutline.Text

/-- Whether a code point lies in one of the inclusive ranges. -/
def inRanges (ranges : List (Nat × Nat)) (code : Nat) : Bool :=
  ranges.any fun (first, last) => first ≤ code && code ≤ last

/-- A set of characters, as the inclusive ranges it was built from. -/
structure CharSet where
  ranges : List (Nat × Nat)

namespace CharSet

/-- The set without characters. -/
def empty : CharSet :=
  ⟨[]⟩

/-- Adds every character from `first` to `last`, both included. -/
def insertRange (set : CharSet) (first last : Char) : CharSet :=
  ⟨(first.toNat, last.toNat) :: set.ranges⟩

/-- Adds one character. -/
def insert (set : CharSet) (c : Char) : CharSet :=
  set.insertRange c c

/-- Adds every character of a text. -/
def insertAll (set : CharSet) (text : List Char) : CharSet :=
  text.foldl insert set

/-- Whether a character is in the set. -/
def contains (set : CharSet) (c : Char) : Bool :=
  inRanges set.ranges c.toNat

end CharSet

end PythonOutline.Text
