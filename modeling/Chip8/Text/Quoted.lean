/-
**Quoted text.**

Messages quote what they cannot vouch for: a character between single quotes, a text between double
quotes.  Backslash, the quote in use and the common controls are written with a backslash, any
other character that would not show is written by its code point.

Main definitions:

* `Chip8.Quoted.escape` — how one character is written inside quotes of a given kind;
* `Chip8.Quoted.char` — a character between single quotes;
* `Chip8.Quoted.text` — a text between double quotes.
-/
import Chip8.Text.Hex
import Chip8.Text.Printable

set_option relaxedAutoImplicit false
set_option autoImplicit false

namespace Chip8.Quoted

/-- How a character is written between two `quote`s. -/
def escape (quote c : Char) : List Char :=
  if c = quote ∨ c = '\\' then ['\\', c]
  else if c = Char.ofNat 0 then ['\\', '0']
  else if c = '\t' then ['\\', 't']
  else if c = '\r' then ['\\', 'r']
  else if c = '\n' then ['\\', 'n']
  else if Printable.isPlain c then [c]
  else ['\\', 'u', '\x7b'] ++ Hex.digits c.toNat ++ ['\x7d']

/-- A character between single quotes. -/
def char (c : Char) : String :=
  String.ofList ('\'' :: escape '\'' c ++ ['\''])

/-- A text between double quotes. -/
def text (s : String) : String :=
  String.ofList ('"' :: s.toList.flatMap (escape '"') ++ ['"'])

end Chip8.Quoted
