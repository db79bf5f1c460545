/-!
# Quoted strings

The written form of a string in the serialized form and in printed types: quotes around it, a
backslash before a quote or a backslash, short escapes for five controls, and `\u00xx` for the other
characters below the space. Everything else stands as it is.
-/

namespace TypeSchema.Text

/-- One hexadecimal digit, in lower case. -/
def hexDigit (n : Nat) : Char := Nat.digitChar (n % 16)

/-- The written form of one character inside quotes. -/
def quotedChar (c : Char) : List Char :=
  if c = '"' then ['\\', '"']
  else if c = '\\' then ['\\', '\\']
  else if c = '\x08' then ['\\', 'b']
  else if c = '\x0c' then ['\\', 'f']
  else if c = '\n' then ['\\', 'n']
  else if c = '\r' then ['\\', 'r']
  else if c = '\t' then ['\\', 't']
  else if c.toNat < 0x20 then ['\\', 'u', '0', '0', hexDigit (c.toNat / 16), hexDigit c.toNat]
  else [c]

/-- The written form of a string, without the quotes around it. -/
def quotedBody (cs : List Char) : List Char := cs.flatMap quotedChar

/-- The written form of a string. -/
def quoted (s : String) : String :=
  String.ofList ('"' :: (quotedBody s.toList ++ ['"']))

end TypeSchema.Text
