import Aggregation.Text.Digits
import Aggregation.Text.Hidden

/-! Texts in quotes, so that every character can be seen.

The quote and the backslash are escaped by a backslash, and so are the hidden characters, most of
them by their code point. -/
namespace Aggregation.Text.Quoted

/-- The code point in hexadecimal digits between braces. -/
def codePoint (c : Char) : List Char :=
  '\\' :: 'u' :: '\x7b' :: hexadecimal c.toNat ++ ['\x7d']

def character (c : Char) : List Char :=
  if c = '"' then ['\\', '"']
  else if c = '\\' then ['\\', '\\']
  else if c = '\n' then ['\\', 'n']
  else if c = '\r' then ['\\', 'r']
  else if c = '\t' then ['\\', 't']
  else if c.toNat = 0 then ['\\', '0']
  else if isHidden c then codePoint c
  else [c]

def text (cs : List Char) : List Char :=
  '"' :: cs.flatMap character ++ ['"']

end Aggregation.Text.Quoted
