import Freehold.Text.Hidden

/-!
# Quoted text

A text is quoted by writing it between double quotes.  A quote or a backslash
inside it gets a backslash, five control characters have short names, hidden
characters are written by their number in lower-case hexadecimal, and everything
else stands for itself.
-/

namespace Freehold
namespace Text

def hexDigits (n : Nat) : List Char := Nat.toDigits 16 n

def byNumber (c : Char) : List Char :=
  ['\\', 'u', '\x7b'] ++ hexDigits c.toNat ++ ['\x7d']

def quotedChar (c : Char) : List Char :=
  if c = '\x00' then ['\\', '0']
  else if c = '\t' then ['\\', 't']
  else if c = '\r' then ['\\', 'r']
  else if c = '\n' then ['\\', 'n']
  else if c = '\\' then ['\\', '\\']
  else if c = '"' then ['\\', '"']
  else if isHidden c then byNumber c
  else [c]

def quoted (text : String) : String :=
  String.ofList ('"' :: text.toList.flatMap quotedChar ++ ['"'])

end Text
end Freehold
