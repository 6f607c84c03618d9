import CMakeLint.Text.Basic
import CMakeLint.Text.Printable

/-!
Quoted texts, as messages show paths and arguments: printable characters stand for themselves, all others are written
as escapes.
-/
namespace CMakeLint.Text

/-- The low `width` hexadecimal digits of a number, the most significant first. -/
def hexDigits : Nat → Nat → Text
  | 0, _ => []
  | width + 1, n => hexDigits width (n / 16) ++ [Nat.digitChar (n % 16)]

/-- One character inside quotes. -/
def escapeChar (quote c : Char) : Text :=
  if c = '\\' || c = quote then ['\\', c]
  else if c = '\n' then ['\\', 'n']
  else if c = '\r' then ['\\', 'r']
  else if c = '\t' then ['\\', 't']
  else if isPrintable c then [c]
  else if c.toNat ≤ 0xFF then '\\' :: 'x' :: hexDigits 2 c.toNat
  else if c.toNat ≤ 0xFFFF then '\\' :: 'u' :: hexDigits 4 c.toNat
  else '\\' :: 'U' :: hexDigits 8 c.toNat

/-- Single quotes, unless the text has a single quote and no double one. -/
def quoteFor (t : Text) : Char :=
  if '\x27' ∈ t && '\x22' ∉ t then '\x22' else '\x27'

/-- A text in quotes. -/
def quoted (t : Text) : Text :=
  let quote := quoteFor t
  quote :: (t.flatMap (escapeChar quote) ++ [quote])

end CMakeLint.Text
