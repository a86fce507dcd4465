import GatedLog.Text.Digits

/-!
# Shortest decimals

The fewest decimal digits that read back as a given binary number, and of those the nearest. A
binary number stands for the interval of reals that round to it, ends included when its significand
is even. For one digit, two digits and so on up to seventeen, the two neighbours of the number on
that decimal grid are tried: the first grid with a hit wins.
-/

namespace GatedLog.Decimal

/-- A positive real `digits × 10 ^ scale`, the digits without zeros at the end. -/
structure Scientific where
  digits : List Char
  scale : Int
  deriving DecidableEq, Repr

/-- The reals that round to one binary number: four times their bounds, over a common denominator. -/
structure Interval where
  low : Nat
  value : Nat
  high : Nat
  denominator : Nat
  closed : Bool
  deriving DecidableEq, Repr

/-- A power of ten. -/
def tenTo (n : Nat) : Nat := Nat.pow 10 n

namespace Interval

/-- The interval of `significand × 2 ^ exponent`; the reals below it are half as far apart when the
significand is the smallest of its binade. -/
def ofBinary (significand : Nat) (exponent : Int) (smallest : Bool) : Interval :=
  let shift := exponent.toNat
  { low := (4 * significand - if smallest then 1 else 2) <<< shift
    value := (4 * significand) <<< shift
    high := (4 * significand + 2) <<< shift
    denominator := 4 <<< (-exponent).toNat
    closed := significand % 2 == 0 }

/-- Whether `n × 10 ^ scale` lies in the interval. -/
def holds (i : Interval) (n : Nat) (scale : Int) : Bool :=
  let x := n * tenTo scale.toNat * i.denominator
  let unit := tenTo (-scale).toNat
  if i.closed then i.low * unit ≤ x && x ≤ i.high * unit else i.low * unit < x && x < i.high * unit

/-- The place of the first digit of the value: searched downwards from `fuel`. -/
def leading (i : Interval) : Nat → Int → Int
  | 0, e => e
  | fuel + 1, e =>
    if tenTo e.toNat * i.denominator ≤ i.value * tenTo (-e).toNat then e else leading i fuel (e - 1)

/-- The neighbour of the value on the grid of `10 ^ scale` that lies in the interval, the nearer one
of two, the even one of two as near. -/
def nearest? (i : Interval) (scale : Int) : Option Nat :=
  let unit := tenTo scale.toNat * i.denominator
  let value := i.value * tenTo (-scale).toNat
  let below := value / unit
  let rest := value % unit
  let preferBelow := 2 * rest < unit || (2 * rest == unit && below % 2 == 0)
  match below != 0 && i.holds below scale, i.holds (below + 1) scale with
  | true, true => some (if preferBelow then below else below + 1)
  | true, false => some below
  | false, true => some (below + 1)
  | false, false => none

/-- Tries grids of more and more digits. -/
def search (i : Interval) : Nat → Int → Nat × Int
  | 0, scale => (i.value * tenTo (-scale).toNat / (tenTo scale.toNat * i.denominator), scale)
  | fuel + 1, scale =>
    match i.nearest? scale with
    | some n => (n, scale)
    | none => search i fuel (scale - 1)

end Interval

/-- Moves the zeros at the end of the digits into the scale. -/
def Scientific.normal (digits : List Char) (scale : Int) : Scientific :=
  let kept := (digits.reverse.dropWhile (· == '0')).reverse
  ⟨kept, scale + (digits.length - kept.length)⟩

/-- The shortest decimal of `significand × 2 ^ exponent`. -/
def shortest (significand : Nat) (exponent : Int) (smallest : Bool) : Scientific :=
  let i := Interval.ofBinary significand exponent smallest
  let found := i.search 17 (i.leading 700 309)
  Scientific.normal (Text.decimalNat found.1) found.2

/-- Which places are written positionally, and how the others are. -/
structure Layout where
  firstPositional : Int
  lastPositional : Int
  exponentMark : List Char
  positiveSign : List Char

/-- The text of a decimal: positional in the range of the layout, with one digit after the point at
least, and with an exponent elsewhere. -/
def Layout.write (l : Layout) (d : Scientific) : List Char :=
  let place := d.scale + d.digits.length - 1
  if l.firstPositional ≤ place ∧ place ≤ l.lastPositional then
    if place < 0 then '0' :: '.' :: (List.replicate (-place - 1).toNat '0' ++ d.digits)
    else
      let whole := d.digits.take (place.toNat + 1)
      let fraction := d.digits.drop (place.toNat + 1)
      whole ++ List.replicate (place.toNat + 1 - whole.length) '0' ++
        '.' :: if fraction.isEmpty then ['0'] else fraction
  else
    let fraction := d.digits.drop 1
    d.digits.take 1 ++ (if fraction.isEmpty then [] else '.' :: fraction) ++ l.exponentMark ++
      (if place < 0 then [] else l.positiveSign) ++ Text.decimal place

/-- The text of a finite double; zero is `0.0` with its sign. -/
def Layout.writeFloat (l : Layout) (f : Float) : List Char :=
  let bits : Nat := f.toBits.toNat
  let field : Nat := bits >>> 52 % 0x800
  let fraction : Nat := bits % (1 <<< 52)
  let sign := if bits >>> 63 = 0 then [] else ['-']
  if field = 0 ∧ fraction = 0 then sign ++ ['0', '.', '0']
  else if field = 0 then sign ++ l.write (shortest fraction (-1074) false)
  else sign ++ l.write (shortest ((1 <<< 52) + fraction) ((field : Int) - 1075) (fraction == 0 && 1 < field))

end GatedLog.Decimal
