import Offside.Text.Printable

/-!
# Quoted text

A text in double quotes, on one line, with every character made out: quotes and backslashes are
marked with a backslash, the usual control characters have letters, and what cannot be shown is
written as its code point in hexadecimal.
-/

namespace Offside

namespace Quoted

def codePoint (c : Char) : List Char :=
  ['\x5c', 'u', '\x7b'] ++ Nat.toDigits 16 c.toNat ++ ['\x7d']

def escape (c : Char) : List Char :=
  if c = '\x22' ∨ c = '\x5c' then ['\x5c', c]
  else if c = '\t' then ['\x5c', 't']
  else if c = '\n' then ['\x5c', 'n']
  else if c = '\r' then ['\x5c', 'r']
  else if c = '\x00' then ['\x5c', '0']
  else if isPrintable c then [c]
  else codePoint c

end Quoted

def quote (text : List Char) : List Char :=
  '\x22' :: text.flatMap Quoted.escape ++ ['\x22']

end Offside
