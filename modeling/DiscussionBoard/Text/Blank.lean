/-!
# Blank characters

The characters with the Unicode property `White_Space`.
-/

namespace DiscussionBoard.Text

/-- First and last characters of the ranges of `White_Space`. -/
def blankRanges : List (Nat × Nat) :=
  [(0x09, 0x0d), (0x20, 0x20), (0x85, 0x85), (0xa0, 0xa0), (0x1680, 0x1680), (0x2000, 0x200a),
   (0x2028, 0x2029), (0x202f, 0x202f), (0x205f, 0x205f), (0x3000, 0x3000)]

def isBlank (c : Char) : Bool :=
  blankRanges.any fun range => range.1 ≤ c.toNat && c.toNat ≤ range.2

def skipBlanks (chars : List Char) : List Char :=
  chars.dropWhile isBlank

def dropTrailingBlanks (chars : List Char) : List Char :=
  (chars.reverse.dropWhile isBlank).reverse

def isAllBlank (text : String) : Bool :=
  text.toList.all isBlank

theorem isBlank_of_isWhitespace {c : Char} (hc : c.isWhitespace = true) : isBlank c = true := by
  simp only [Char.isWhitespace, Bool.or_eq_true, decide_eq_true_eq] at hc
  rcases hc with ((rfl | rfl) | rfl) | rfl <;> decide

end DiscussionBoard.Text
