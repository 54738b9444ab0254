/-!
# White space

* `isBlank`: the characters with the Unicode property `White_Space`;
* `dropBlank`: text without the white space in front; `isBlankText`: nothing but white space.
-/

namespace PoolKeeper.Text

/-- The characters with the property `White_Space`. -/
def isBlank (c : Char) : Bool :=
  let n := c.toNat
  (0x9 ≤ n && n ≤ 0xD) || n == 0x20 || n == 0x85 || n == 0xA0 || n == 0x1680
    || (0x2000 ≤ n && n ≤ 0x200A) || n == 0x2028 || n == 0x2029 || n == 0x202F
    || n == 0x205F || n == 0x3000

/-- Text without the white space in front of it. -/
def dropBlank (cs : List Char) : List Char := cs.dropWhile isBlank

/-- There is nothing to see. -/
def isBlankText (s : String) : Bool := s.toList.all isBlank

end PoolKeeper.Text
