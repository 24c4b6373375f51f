/-!
White space as Unicode defines it (the property `White_Space`), and trimming by it. Case folding
here touches ASCII letters only.
-/

namespace ArenaPeak.Text

/-- The characters with the property `White_Space`. -/
def isBlank (c : Char) : Bool :=
  let n := c.toNat
  (9 ≤ n && n ≤ 13) || n == 0x20 || n == 0x85 || n == 0xA0 || n == 0x1680 ||
    (0x2000 ≤ n && n ≤ 0x200A) || n == 0x2028 || n == 0x2029 || n == 0x202F || n == 0x205F ||
    n == 0x3000

def dropEnd (p : Char → Bool) (cs : List Char) : List Char :=
  (cs.reverse.dropWhile p).reverse

def strip (p : Char → Bool) (cs : List Char) : List Char :=
  dropEnd p (cs.dropWhile p)

def trim (cs : List Char) : List Char :=
  strip isBlank cs

/-- ASCII letters become small letters; nothing else changes. -/
def lower (cs : List Char) : List Char :=
  cs.map Char.toLower

end ArenaPeak.Text
