import Chip8.Text.Hex
import Chip8.Text.Printable

/-! Quoted text, as shown in messages.

A text is set in single quotes, or in double quotes if it has a single quote and no double quote.
The quote in use and the backslash are escaped, tab, line feed and carriage return have short
escapes, and any other character that is not printable is written by its code point.
-/

set_option autoImplicit false

namespace Chip8.Text

def singleQuote : Char := '\x27'
def doubleQuote : Char := '\x22'
def backslash : Char := '\x5c'

/-- The quote that a text is set in. -/
def quoteFor (cs : List Char) : Char :=
  if cs.contains singleQuote && !cs.contains doubleQuote then doubleQuote else singleQuote

/-- A code point in lower-case hexadecimal behind an escape letter. -/
def escapeCode (letter : Char) (width : Nat) (c : Char) : List Char :=
  backslash :: letter :: (hexChars width c.toNat).map Char.toLower

/-- A character as it appears inside quotes. -/
def escape (quote c : Char) : List Char :=
  if c = quote || c = backslash then [backslash, c]
  else if c = '\t' then [backslash, 't']
  else if c = '\n' then [backslash, 'n']
  else if c = '\r' then [backslash, 'r']
  else if isPrintable c then [c]
  else if c.toNat < 0x100 then escapeCode 'x' 2 c
  else if c.toNat < 0x10000 then escapeCode 'u' 4 c
  else escapeCode 'U' 8 c

def quoted (s : String) : String :=
  let quote := quoteFor s.toList
  String.ofList (quote :: s.toList.flatMap (escape quote) ++ [quote])

end Chip8.Text
