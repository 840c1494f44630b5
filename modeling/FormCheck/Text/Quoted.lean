import FormCheck.Text.Printable

/-!
# Quoted texts

Messages show a path in double quotes. A quote and a backslash inside it stand behind a backslash,
and a character that is not printable is written as an escape.
-/
namespace FormCheck.Text

/-- One character of a quoted text. -/
def quoteChar (c : Char) : List Char :=
  if c = '"' then ['\\', '"']
  else if c = '\\' then ['\\', '\\']
  else if c = '\t' then ['\\', 't']
  else if c = '\n' then ['\\', 'n']
  else if c = '\r' then ['\\', 'r']
  else if c = '\x00' then ['\\', '0']
  else if isPrintable c then [c]
  else "\\u".toList ++ '{' :: Nat.toDigits 16 c.toNat ++ ['}']

/-- A text in quotes. -/
def quoted (s : String) : String :=
  String.ofList ('"' :: s.toList.flatMap quoteChar ++ ['"'])

end FormCheck.Text
