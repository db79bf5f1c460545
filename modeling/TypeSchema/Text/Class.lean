import TypeSchema.Text.Class.Alphabetic
import TypeSchema.Text.Class.Numeric
import TypeSchema.Text.Class.Extending
import TypeSchema.Text.Class.Unprintable

/-!
# Classes of characters

The classes that decide which names are identifiers, what is trimmed from documentation, and which
characters a diagnostic writes as they are. ASCII is decided without the tables.
-/

namespace TypeSchema.Text

/-- White space: the characters with the property White_Space. -/
def isWhite (c : Char) : Bool :=
  inRanges [(0x09, 0x0d), (0x20, 0x20), (0x85, 0x85), (0xa0, 0xa0), (0x1680, 0x1680),
    (0x2000, 0x200a), (0x2028, 0x2029), (0x202f, 0x202f), (0x205f, 0x205f), (0x3000, 0x3000)] c

/-- Whether a character is ASCII. -/
def isAscii (c : Char) : Bool := decide (c.toNat < 0x80)

/-- Letters and what counts as one. -/
def isAlphabetic (c : Char) : Bool :=
  if isAscii c then c.isAlpha else inRanges alphabeticRanges c

/-- Numbers of every kind. -/
def isNumeric (c : Char) : Bool :=
  if isAscii c then c.isDigit else inRanges numericRanges c

/-- Letters and numbers. -/
def isAlphanumeric (c : Char) : Bool := isAlphabetic c || isNumeric c

/-- Marks that combine with the character before them. -/
def isExtending (c : Char) : Bool := !isAscii c && inRanges extendingRanges c

/-- Characters with a glyph of their own; of the separators only the space is one. -/
def isPrintable (c : Char) : Bool :=
  if isAscii c then decide (0x20 ≤ c.toNat) && decide (c.toNat < 0x7f)
  else !inRanges unprintableRanges c

end TypeSchema.Text
