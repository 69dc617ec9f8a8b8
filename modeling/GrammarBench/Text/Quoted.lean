import GrammarBench.Text.Letter

/-!
# Quoted text

A text as a literal: between single quotes, or between double quotes when it holds a single quote and
no double one. The quote in use and the backslash are escaped, and so is every character that is not
printable.
-/

namespace GrammarBench.Text

/-- A number in lower-case hexadecimal digits, zeros in front up to a width. -/
def hex (width n : Nat) : List Char :=
  let digits := Nat.toDigits 16 n
  List.replicate (width - digits.length) '0' ++ digits

/-- The quote that a text stands in. -/
def quoteFor (s : List Char) : Char := if '\'' ∈ s ∧ '"' ∉ s then '"' else '\''

/-- One character of a literal that stands in the given quotes. -/
def quotedChar (quote c : Char) : List Char :=
  if c = quote || c = '\\' then ['\\', c]
  else if c = '\n' then ['\\', 'n']
  else if c = '\r' then ['\\', 'r']
  else if c = '\t' then ['\\', 't']
  else if isPrintable c then [c]
  else if c.toNat < 0x100 then '\\' :: 'x' :: hex 2 c.toNat
  else if c.toNat < 0x10000 then '\\' :: 'u' :: hex 4 c.toNat
  else '\\' :: 'U' :: hex 8 c.toNat

/-- A text as a literal. -/
def quoted (s : String) : String :=
  let quote := quoteFor s.toList
  String.ofList (quote :: s.toList.flatMap (quotedChar quote) ++ [quote])

/-- Some bytes as a literal. -/
def quotedBytes (bytes : List UInt8) : String :=
  let chars := bytes.map fun b => Char.ofNat b.toNat
  let quote := quoteFor chars
  String.ofList ('b' :: quote :: (chars.flatMap fun c =>
    if c.toNat < 127 then quotedChar quote c else '\\' :: 'x' :: hex 2 c.toNat) ++ [quote])

end GrammarBench.Text
