import DocPath.Text.Unprintable

/-! Text in quotes for messages: quotes, backslashes and the common controls have short escapes,
other characters that cannot be shown are given by number, and everything else stands for
itself. -/

namespace DocPath.Text

def numericEscape (letter : Char) : List Char :=
  ['\\', 'u', '{'] ++ Nat.toDigits 16 letter.toNat ++ ['}']

def escape (letter : Char) : List Char :=
  if letter = '\x00' then ['\\', '0']
  else if letter = '\t' then ['\\', 't']
  else if letter = '\n' then ['\\', 'n']
  else if letter = '\r' then ['\\', 'r']
  else if letter = '"' then ['\\', '"']
  else if letter = '\\' then ['\\', '\\']
  else if isUnprintable letter then numericEscape letter
  else [letter]

def quoted (text : String) : String :=
  String.ofList ('"' :: (text.toList.flatMap escape ++ ['"']))

end DocPath.Text
