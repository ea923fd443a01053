/-! # Blank characters

`isBlank` is the Unicode `White_Space` property: the characters that trimming removes and that
separate the parts of a lenient timestamp. It is the ASCII blanks tab to carriage return and space,
next line, no-break space and the Unicode spaces and separators.
-/
namespace ChangeLedger

/-- The Unicode `White_Space` property. -/
def isBlank (c : Char) : Bool :=
  let n := c.toNat
  (0x09 ≤ n && n ≤ 0x0D) || n == 0x20 || n == 0x85 || n == 0xA0 || n == 0x1680 ||
    (0x2000 ≤ n && n ≤ 0x200A) || n == 0x2028 || n == 0x2029 || n == 0x202F || n == 0x205F ||
    n == 0x3000

def dropBlanks (cs : List Char) : List Char := cs.dropWhile isBlank

def trimBlanks (cs : List Char) : List Char := (dropBlanks cs.reverse).reverse |> dropBlanks

def utf8Length (cs : List Char) : Nat := (cs.map Char.utf8Size).foldr (· + ·) 0

end ChangeLedger
