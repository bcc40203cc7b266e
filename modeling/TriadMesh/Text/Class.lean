/-!
# Classes of characters

A class is a sorted list of bounds: the characters from the first bound on belong to it, those from the
second on do not, and so on in turn. A class is thus a property of the Unicode character database,
written down once.
-/

namespace TriadMesh.Text

/-- Whether a character lies in the class with the given bounds. -/
def inClass (bounds : List Nat) (c : Char) : Bool := (bounds.takeWhile (· ≤ c.toNat)).length % 2 == 1

/-- The blanks: characters with the property `White_Space`. -/
def blankBounds : List Nat :=
  [9, 14, 32, 33, 133, 134, 160, 161, 5760, 5761, 8192, 8203, 8232, 8234, 8239, 8240, 8287, 8288, 12288,
   12289]

def isBlank (c : Char) : Bool := inClass blankBounds c

def trim (text : List Char) : List Char := ((text.dropWhile isBlank).reverse.dropWhile isBlank).reverse

end TriadMesh.Text
