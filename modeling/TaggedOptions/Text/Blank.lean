/-! # White space and the mark of the byte order

The characters with the property White_Space.  A short flag may be any single character outside
this set, so the set is spelled out in full and not cut down to the plain ASCII blanks.  Manifests
have only two blanks within a line, and a mark may start their texts.
-/

namespace TaggedOptions.Text

def isBlank (c : Char) : Bool :=
  let n := c.toNat
  (9 ≤ n && n ≤ 13) || n == 0x20 || n == 0x85 || n == 0xa0 || n == 0x1680 ||
    (0x2000 ≤ n && n ≤ 0x200a) || n == 0x2028 || n == 0x2029 || n == 0x202f ||
    n == 0x205f || n == 0x3000

def isSpaceOrTab (c : Char) : Bool := c = ' ' || c = '\t'

def byteOrderMark : Char := '\ufeff'

def withoutMark : List Char → List Char
  | [] => []
  | c :: rest => if c = byteOrderMark then rest else c :: rest

end TaggedOptions.Text
