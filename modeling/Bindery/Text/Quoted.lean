import Bindery.Text.GraphemeExtend
import Bindery.Text.Printable

/-!
# Quoted text for logs

A text between double quotes on one line, in which each character shows where it stands: quotes and
backslashes are escaped, and a character that shows nothing of its own, or joins the one before it,
is written by its code point.

* `joinsPrevious` sets apart the two characters that extend the one before them and still stand in a
  place of their own.
-/

namespace Bindery.Text

/-- The voiced and the semi-voiced sound mark of halfwidth kana, which are as wide as a letter. -/
def isHalfwidthSoundMark (c : Char) : Bool := c = '\uFF9E' || c = '\uFF9F'

/-- The character is drawn together with the one before it. -/
def joinsPrevious (c : Char) : Bool := isGraphemeExtend c && !isHalfwidthSoundMark c

/-- A character as it is written between the quotes. -/
def escapeForLog (c : Char) : List Char :=
  if c = '"' then ['\\', '"']
  else if c = '\\' then ['\\', '\\']
  else if c = '\x00' then ['\\', '0']
  else if c = '\t' then ['\\', 't']
  else if c = '\n' then ['\\', 'n']
  else if c = '\r' then ['\\', 'r']
  else if joinsPrevious c || !isPrintable c then
    ['\\', 'u', '{'] ++ Nat.toDigits 16 c.toNat ++ ['}']
  else [c]

/-- A text between quotes. -/
def quoteForLog (s : String) : String :=
  String.ofList ('"' :: (s.toList.flatMap escapeForLog ++ ['"']))

end Bindery.Text
