import TypeSchema.Text.Class

/-!
# Escaped strings

The written form of a string in diagnostics. Besides quotes and backslashes it escapes every
character that would not be seen: controls, unprintable characters and marks that combine with the
character before them.
-/

namespace TypeSchema.Text

/-- A character by its code point, in braces. -/
def codePointEscape (c : Char) : List Char :=
  '\\' :: 'u' :: '\x7b' :: (Nat.toDigits 16 c.toNat ++ ['\x7d'])

/-- The written form of one character. -/
def escapedChar (c : Char) : List Char :=
  if c = '\x00' then ['\\', '0']
  else if c = '\t' then ['\\', 't']
  else if c = '\r' then ['\\', 'r']
  else if c = '\n' then ['\\', 'n']
  else if c = '\\' then ['\\', '\\']
  else if c = '"' then ['\\', '"']
  else if isExtending c then codePointEscape c
  else if isPrintable c then [c]
  else codePointEscape c

/-- The written form of a string, with the quotes around it. -/
def escaped (s : String) : String :=
  String.ofList ('"' :: (s.toList.flatMap escapedChar ++ ['"']))

end TypeSchema.Text
