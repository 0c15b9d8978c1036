/-! # The shortest decimal of a binary fraction

A double is `m · 2 ^ q`. The reals that round to it form an interval around it, whose ends belong to
it when `m` is even. The shortest decimal is the first of the grids with 1, 2, … 17 digits that has
a point in the interval; of two such points it is the one nearer to the double. All arithmetic is
exact, on natural numbers. -/

namespace PaperIndex.Decimal

/-- A positive double: `mantissa · 2 ^ exponent`. The half-way point below it is a quarter away
instead of a half when `atPower` holds: the mantissa is the least of its binade. -/
structure Binary where
  mantissa : Nat
  exponent : Int
  atPower : Bool
deriving DecidableEq, Repr

/-- A decimal `0.d₁d₂… · 10 ^ point`, with the digits as one number. -/
structure Digits where
  /-- The digits read as a number. -/
  number : Nat
  /-- How many digits there are. -/
  count : Nat
  /-- How many of them stand before the decimal point; it may be negative or exceed `count`. -/
  point : Int
deriving DecidableEq, Repr

/-- The bits of a finite double apart from its sign, if it is not zero. -/
def Binary.ofBits (bits : UInt64) : Option Binary :=
  let fraction := (bits &&& 0xFFFFFFFFFFFFF).toNat
  let power := ((bits >>> 52) &&& 0x7FF).toNat
  if power = 0 then
    if fraction = 0 then none else some ⟨fraction, -1074, false⟩
  else some ⟨Nat.pow 2 52 + fraction, (power : Int) - 1075, fraction = 0 && power != 1⟩

namespace Binary

/-- The double, and the ends of its interval, are `k · scale / unit` on the grid of step `10 ^ e`
for `k` four times the mantissa and its two half-way neighbours. -/
def scale (b : Binary) (e : Int) : Nat :=
  Nat.pow 2 (b.exponent - 2).toNat * Nat.pow 10 (-e).toNat

/-- The divisor that belongs to `scale`. -/
def unit (b : Binary) (e : Int) : Nat :=
  Nat.pow 2 (2 - b.exponent).toNat * Nat.pow 10 e.toNat

/-- Four times the lower end of the interval, in units of the last place. -/
def low (b : Binary) : Nat := if b.atPower then 4 * b.mantissa - 1 else 4 * b.mantissa - 2

/-- Four times the upper end of the interval, in units of the last place. -/
def high (b : Binary) : Nat := 4 * b.mantissa + 2

/-- Whether the decimal `d · 10 ^ e` rounds to the double. -/
def holds (b : Binary) (e : Int) (d : Nat) : Bool :=
  let x := d * b.unit e
  let lo := b.low * b.scale e
  let hi := b.high * b.scale e
  if b.mantissa % 2 = 0 then lo ≤ x && x ≤ hi else lo < x && x < hi

/-- The exponent of the first decimal digit: `10 ^ e ≤ m · 2 ^ q < 10 ^ (e + 1)`. -/
def leading (b : Binary) : Int :=
  let shifted := 4 * b.mantissa * b.scale (-330) / b.unit (-330)
  ((Nat.toDigits 10 shifted).length : Int) - 331

/-- The nearest point of the grid of step `10 ^ e` in the interval, if there is one. -/
def nearest? (b : Binary) (e : Int) : Option Nat :=
  let x := 4 * b.mantissa * b.scale e
  let u := b.unit e
  let d := x / u
  match b.holds e d, b.holds e (d + 1) with
  | true, true =>
    let below := x - d * u
    let above := (d + 1) * u - x
    some (if below < above then d else if above < below then d + 1
      else if d % 2 = 0 then d else d + 1)
  | true, false => some d
  | false, true => some (d + 1)
  | false, false => none

/-- The shortest decimal with at least `n` digits, tried for `fuel` further digits. -/
def shortestFrom (b : Binary) : Nat → Nat → Digits
  | 0, n => ⟨4 * b.mantissa * b.scale (b.leading - n + 1) / b.unit (b.leading - n + 1), n,
      b.leading + 1⟩
  | fuel + 1, n =>
    let e := b.leading - n + 1
    match b.nearest? e with
    | some d => if d = Nat.pow 10 n then ⟨1, 1, b.leading + 2⟩ else ⟨d, n, b.leading + 1⟩
    | none => shortestFrom b fuel (n + 1)

/-- The shortest decimal that rounds to the double. -/
def shortest (b : Binary) : Digits := b.shortestFrom 17 1

end Binary

/-! ### Layout -/

/-- How a decimal is laid out. -/
structure Layout where
  /-- The least exponent of a first digit that is written positionally. -/
  leastPositional : Int
  /-- The greatest such exponent. -/
  greatestPositional : Int

/-- The digits of a number, with zeros in front up to a width. -/
def padZeros (width n : Nat) : List Char :=
  let ds := Nat.toDigits 10 n
  List.replicate (width - ds.length) '0' ++ ds

/-- The text of a decimal: a point with a digit on both sides, or one digit before the point and a
signed exponent. -/
def Digits.render (l : Layout) (d : Digits) : String :=
  let ds := padZeros d.count d.number
  let e := d.point - 1
  if e < l.leastPositional || l.greatestPositional < e then
    let mantissa := match ds with
      | [] => []
      | [c] => [c]
      | c :: cs => c :: '.' :: cs
    let sign := if e < 0 then '-' else '+'
    String.ofList (mantissa ++ 'e' :: sign :: Nat.toDigits 10 e.natAbs)
  else if d.point ≤ 0 then
    String.ofList ('0' :: '.' :: List.replicate (-d.point).toNat '0' ++ ds)
  else
    let k := d.point.toNat
    if ds.length ≤ k then
      String.ofList (ds ++ List.replicate (k - ds.length) '0' ++ ['.', '0'])
    else String.ofList (ds.take k ++ '.' :: ds.drop k)

/-- The text of the finite double with the given bits. -/
def textOfBits (l : Layout) (bits : UInt64) : String :=
  let sign := if bits >>> 63 = 1 then "-" else ""
  match Binary.ofBits bits with
  | none => sign ++ "0.0"
  | some b => sign ++ b.shortest.render l

end PaperIndex.Decimal
