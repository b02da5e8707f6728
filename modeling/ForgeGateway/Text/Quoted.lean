import ForgeGateway.Bytes.Hex
import ForgeGateway.Text.Printable

/-! # Quoted text

`quoted s` is `s` between double quotes with everything that a terminal would not show
plainly written as an escape: the usual short ones, and `\u{…}` with the lower-case
hexadecimal code point for characters that are not graphic or that extend the one before. -/

namespace ForgeGateway.Text

/-- `\u{…}` for the code point of `c`. -/
def codePointEscape (c : Char) : List Char :=
  '\\' :: 'u' :: '\x7b' :: (Hex.natDigits c.toNat).toList ++ ['\x7d']

/-- How `c` is written between the quotes. -/
def escaped (c : Char) : List Char :=
  if c = '\x00' then ['\\', '0']
  else if c = '\t' then ['\\', 't']
  else if c = '\r' then ['\\', 'r']
  else if c = '\n' then ['\\', 'n']
  else if c = '\\' then ['\\', '\\']
  else if c = '"' then ['\\', '"']
  else if isExtending c then codePointEscape c
  else if isGraphic c then [c]
  else codePointEscape c

/-- `s` in double quotes, with escapes. -/
def quoted (s : String) : String :=
  String.ofList ('"' :: s.toList.flatMap escaped ++ ['"'])

end ForgeGateway.Text
