/-!
# Texts in pieces

A text with marks in it is cut into the pieces between them: one more than there are marks, so a
mark at either end, or one right after another, has an empty piece beside it.  The blanks that a
piece has around it can be left off.
-/

namespace RollupBoundary.Text

/-- A text cut at each mark. -/
def cutAt (mark : Char) : List Char → List (List Char)
  | [] => [[]]
  | c :: cs =>
    if c = mark then [] :: cutAt mark cs
    else
      match cutAt mark cs with
      | [] => [[c]]
      | piece :: pieces => (c :: piece) :: pieces

/-- The characters that have the property `White_Space`. -/
def blanks : List Char :=
  ['\t', '\n', '\x0b', '\x0c', '\r', ' ', '\u0085', '\u00a0', '\u1680', '\u2000', '\u2001', '\u2002',
   '\u2003', '\u2004', '\u2005', '\u2006', '\u2007', '\u2008', '\u2009', '\u200a', '\u2028', '\u2029',
   '\u202f', '\u205f', '\u3000']

def isBlank (c : Char) : Bool :=
  blanks.contains c

/-- A text without the blanks in front of it and behind it. -/
def trim (cs : List Char) : List Char :=
  ((cs.dropWhile isBlank).reverse.dropWhile isBlank).reverse

end RollupBoundary.Text
