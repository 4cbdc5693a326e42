/-
Characters that are not shown.

A character is ignorable when it has the Unicode property Default_Ignorable_Code_Point:
nothing is drawn for it where it is not supported.  Most ignorable characters are format
characters, variation selectors or unassigned; the Hangul fillers are letters, which no
rule about general categories finds.
-/
namespace TheoryScript.Text

/-- The ranges of the Default_Ignorable_Code_Point property, both ends included. -/
def ignorableRanges : List (Nat × Nat) :=
  [(0x00AD, 0x00AD), (0x034F, 0x034F), (0x061C, 0x061C), (0x115F, 0x1160), (0x17B4, 0x17B5),
    (0x180B, 0x180F), (0x200B, 0x200F), (0x202A, 0x202E), (0x2060, 0x206F), (0x3164, 0x3164),
    (0xFE00, 0xFE0F), (0xFEFF, 0xFEFF), (0xFFA0, 0xFFA0), (0xFFF0, 0xFFF8), (0x1BCA0, 0x1BCA3),
    (0x1D173, 0x1D17A), (0xE0000, 0xE0FFF)]

/-- Whether nothing is drawn for a character. -/
def isIgnorable (c : Char) : Bool :=
  ignorableRanges.any fun range => range.1 ≤ c.toNat && c.toNat ≤ range.2

end TheoryScript.Text
