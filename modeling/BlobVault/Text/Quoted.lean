import BlobVault.Text.Hex
import BlobVault.Text.Visible

/-!
# Quoted text

Messages show a text that came from outside between double quotes, so that its ends and its
invisible characters can be seen: quotes and backslashes are escaped by a backslash, the common
controls have a letter, and every other hidden character is written by its code point.
-/

namespace BlobVault.Quoted

/-- The lower-case hexadecimal digits of a number, without leading zeros. -/
def hexDigits (n : Nat) : List Char :=
  (Nat.toDigits 16 n)

/-- The written form of one character between quotes. -/
def escape (c : Char) : List Char :=
  if c = '\x00' then ['\\', '0']
  else if c = '\t' then ['\\', 't']
  else if c = '\r' then ['\\', 'r']
  else if c = '\n' then ['\\', 'n']
  else if c = '\\' then ['\\', '\\']
  else if c = '"' then ['\\', '"']
  else if Visible.isVisible c then [c]
  else ['\\', 'u', '\x7b'] ++ hexDigits c.toNat ++ ['\x7d']

/-- A text between double quotes. -/
def quote (s : String) : String :=
  String.ofList ('"' :: (s.toList.flatMap escape ++ ['"']))

/-- Texts in brackets, separated by commas. -/
def bracket (items : List String) : String :=
  "[" ++ ", ".intercalate items ++ "]"

/-- A character between single quotes. -/
def quoteChar (c : Char) : String :=
  if c = '\x27' then "'\\''"
  else if c = '"' then "'\"'"
  else String.ofList ('\x27' :: (escape c ++ ['\x27']))

end BlobVault.Quoted
