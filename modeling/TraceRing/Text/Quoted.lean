import TraceRing.Text.Printable

/-!
# Quoted text

A text between double quotes that a reader takes back as it was: quotes, backslashes and the usual
controls are escaped by a backslash, and every other character that cannot be seen on its own, or
that joins the character before it, by its code point in lower-case hexadecimal.
-/

namespace TraceRing.Text

/-- A code point escaped in hexadecimal. -/
def escapeCode (c : Char) : List Char :=
  ['\\', 'u', '\x7b'] ++ Nat.toDigits 16 c.toNat ++ ['\x7d']

/-- A character inside quotes. -/
def quoteChar (c : Char) : List Char :=
  if c = '"' then ['\\', '"']
  else if c = '\\' then ['\\', '\\']
  else if c = '\n' then ['\\', 'n']
  else if c = '\r' then ['\\', 'r']
  else if c = '\t' then ['\\', 't']
  else if c = Char.ofNat 0 then ['\\', '0']
  else if isJoining c || !isPrintable c then escapeCode c
  else [c]

/-- A text between double quotes. -/
def quoted (text : String) : String :=
  "\"" ++ String.ofList (text.toList.flatMap quoteChar) ++ "\""

end TraceRing.Text
