/-!
# Blanks

The characters that count as white space, and the test whether a text has anything else.
-/

namespace GameHall

/-- The twenty-five white-space characters. -/
def isBlank (c : Char) : Bool :=
  let n := c.toNat
  (9 ≤ n && n ≤ 13) || n == 0x20 || n == 0x85 || n == 0xA0 || n == 0x1680 ||
    (0x2000 ≤ n && n ≤ 0x200A) || n == 0x2028 || n == 0x2029 || n == 0x202F || n == 0x205F ||
    n == 0x3000

/-- Whether a text consists of blanks. -/
def isBlankText (s : String) : Bool := s.toList.all isBlank

end GameHall
