/-!
# Shortest decimal text of a number

A binary floating-point number is written with the fewest decimal digits that read back as the same
number; of several such texts the nearest is taken.

* `Binary.ofBits`: a finite positive number as an integer times a power of two.
* `shortest`: the digits and the exponent of the shortest text.
* `written`, `ofFloat`: the text: positional from 1e-4 up to 1e16, with an exponent otherwise.
* `toFloat`: the number of some digits and an exponent.
-/

namespace GrammarBench.Decimal

/-- The number `mantissa * 2 ^ exponent`; `evenEnds` says whether the ends of the interval that rounds
to it belong to it, `lowHalf` whether the next smaller number is only half as far away. -/
structure Binary where
  mantissa : Nat
  exponent : Int
  evenEnds : Bool
  lowHalf : Bool
  deriving Repr

/-- The parts of a finite number's bits, sign left out. -/
def Binary.ofBits (bits : Nat) : Binary :=
  let fraction : Nat := bits % Nat.pow 2 52
  let power : Nat := bits / Nat.pow 2 52 % Nat.pow 2 11
  if power = 0 then ⟨fraction, -1074, fraction % 2 = 0, false⟩
  else ⟨Nat.pow 2 52 + fraction, (power : Int) - 1075, fraction % 2 = 0, fraction = 0 && 1 < power⟩

structure Ratio where
  num : Nat
  den : Nat

/-- `m * 2 ^ e * 10 ^ (-k)` as a quotient. -/
def scaled (m : Nat) (e k : Int) : Ratio :=
  ⟨m * Nat.pow 2 e.toNat * Nat.pow 10 (-k).toNat, Nat.pow 2 (-e).toNat * Nat.pow 10 k.toNat⟩

/-- Whether `d * 10 ^ k` rounds to the number: it lies between the middles to its two neighbours. -/
def Binary.holds (b : Binary) (d : Nat) (k : Int) : Bool :=
  let x := scaled (4 * d) 0 (-k)
  let low := scaled (if b.lowHalf then 4 * b.mantissa - 1 else 4 * b.mantissa - 2) b.exponent 0
  let high := scaled (4 * b.mantissa + 2) b.exponent 0
  let l := low.num * x.den
  let h := high.num * x.den
  let xl := x.num * low.den
  let xh := x.num * high.den
  if b.evenEnds then l ≤ xl && xh ≤ h else l < xl && xh < h

def leading (b : Binary) : Int :=
  let v := scaled b.mantissa b.exponent 0
  if v.den ≤ v.num then ((Nat.toDigits 10 (v.num / v.den)).length : Int) - 1
  else
    let n := (Nat.toDigits 10 (v.den / v.num)).length
    if Nat.pow 10 (n - 1) * v.num = v.den then 1 - (n : Int) else -(n : Int)

/-- A decimal that reads back with the given number of digits. -/
def ofDigits? (b : Binary) (digits : Nat) : Option (Nat × Int) :=
  let k := leading b - digits + 1
  let v := scaled b.mantissa b.exponent k
  let low := v.num / v.den
  let candidates := [low, low + 1].filter (b.holds · k)
  let far (d : Nat) : Nat := max (d * v.den) v.num - min (d * v.den) v.num
  match candidates with
  | [] => none
  | [d] => some (d, k)
  | d :: d' :: _ => some (if far d' < far d then d' else d, k)

/-- The shortest decimal that reads back: seventeen digits always do. -/
def shortest (b : Binary) : Nat × Int :=
  ((List.range 17).findSome? fun n => ofDigits? b (n + 1)).getD (0, 0)

/-- Trailing zeros taken off the digits. -/
def stripZeros : Nat → Nat × Int → Nat × Int
  | 0, d => d
  | fuel + 1, (d, k) => if d ≠ 0 ∧ d % 10 = 0 then stripZeros fuel (d / 10, k + 1) else (d, k)

/-- The text of `d * 10 ^ k`: positional when the leading digit stands between the fourth place after
the point and the sixteenth before it, with a sign and two digits of exponent otherwise. -/
def written (d : Nat) (k : Int) : String :=
  let digits := Nat.toDigits 10 d
  let point := (digits.length : Int) + k
  let zeros (n : Int) : List Char := List.replicate n.toNat '0'
  String.ofList <|
    if -4 < point && point ≤ 16 then
      if point ≤ 0 then '0' :: '.' :: zeros (-point) ++ digits
      else if 0 ≤ k then digits ++ zeros k ++ ['.', '0']
      else digits.take point.toNat ++ '.' :: digits.drop point.toNat
    else
      let e := point - 1
      let size := Nat.toDigits 10 e.natAbs
      digits.take 1 ++ (if digits.length = 1 then [] else '.' :: digits.drop 1) ++
        'e' :: (if e < 0 then '-' else '+') :: (if size.length < 2 then '0' :: size else size)

def ofFloat (x : Float) : String :=
  if x.isNaN then "nan"
  else
    let bits := x.toBits.toNat
    let sign := if Nat.pow 2 63 ≤ bits then "-" else ""
    sign ++
      if x.isInf then "inf"
      else if bits % Nat.pow 2 63 = 0 then "0.0"
      else
        let (d, k) := stripZeros 20 (shortest (Binary.ofBits (bits % Nat.pow 2 63)))
        written d k

/-- The nearest floating-point number to `d * 10 ^ k`. -/
def toFloat (negative : Bool) (d : Nat) (k : Int) : Float :=
  let size := (Nat.toDigits 10 d).length
  let x :=
    if d = 0 then 0.0
    else if 400 < (size : Int) + k then 1.0 / 0.0
    else if (size : Int) + k < -400 then 0.0
    else Float.ofScientific d (k < 0) k.natAbs
  if negative then -x else x

end GrammarBench.Decimal
