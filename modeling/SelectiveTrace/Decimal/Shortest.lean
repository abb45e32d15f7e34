/-! The fewest decimal digits that read back as a given double. A finite double is `m · 2 ^ q`; the
numbers that round to it form an interval around it, which holds its ends exactly when `m` is even.
For each count of digits the two decimals nearest to the double are tried against the interval. -/
namespace SelectiveTrace.Decimal

/-- The magnitude `mantissa · 2 ^ power` of a finite double. -/
structure Binary where
  mantissa : Nat
  power : Int

structure Scaled where
  digits : Nat
  power : Int

def ratio (b : Nat) (e : Int) : Nat × Nat :=
  if 0 ≤ e then (Nat.pow b e.toNat, 1) else (1, Nat.pow b (-e).toNat)

structure Interval where
  low : Nat
  value : Nat
  high : Nat
  closed : Bool

/-- Half a unit below and above, but a quarter below a power of two that has a smaller neighbour. -/
def Binary.interval (b : Binary) : Interval :=
  let narrow := b.mantissa = Nat.pow 2 52 ∧ -1074 < b.power
  { low := 4 * b.mantissa - (if narrow then 1 else 2)
    value := 4 * b.mantissa
    high := 4 * b.mantissa + 2
    closed := b.mantissa % 2 = 0 }

def Interval.contains (i : Interval) (unit point : Nat) : Bool :=
  if i.closed then i.low * unit ≤ point && point ≤ i.high * unit
  else i.low * unit < point && point < i.high * unit

/-- The decimal on the grid `10 ^ grid` that lies in the interval of `b` and nearest to `b`; of two
equally near ones the larger. -/
def onGrid? (b : Binary) (grid : Int) : Option Scaled :=
  let i := b.interval
  let (binary, binaryUnder) := ratio 2 (b.power - 2)
  let (decimal, decimalUnder) := ratio 10 grid
  let unit := binary * decimalUnder
  let step := decimal * binaryUnder
  let below := i.value * unit / step
  let above := below + 1
  let lowFits := i.contains unit (below * step)
  let highFits := i.contains unit (above * step)
  let highNearer := above * step - i.value * unit ≤ i.value * unit - below * step
  if highFits && (highNearer || !lowFits) then some ⟨above, grid⟩
  else if lowFits then some ⟨below, grid⟩
  else none

def orderUp (num den : Nat) : Nat → Int → Int
  | 0, k => k
  | fuel + 1, k => if num < den * Nat.pow 10 k.toNat then k else orderUp num den fuel (k + 1)

def orderDown (num den : Nat) : Nat → Int → Int
  | 0, k => k
  | fuel + 1, k => if num * Nat.pow 10 (1 - k).toNat < den then orderDown num den fuel (k - 1) else k

/-- The number of digits before the point; below one, minus the number of zeros behind it. -/
def Binary.order (b : Binary) : Int :=
  let (num, den) := ratio 2 b.power
  let num := num * b.mantissa
  if den ≤ num then orderUp num den 400 1 else orderDown num den 400 0

def search (b : Binary) : Nat → Int → Scaled
  | 0, grid => ⟨0, grid⟩
  | count + 1, grid =>
    match onGrid? b grid with
    | some d => d
    | none => search b count (grid - 1)

/-- The search starts at the least power of ten above the magnitude, which may be what it is nearest
to; seventeen digits always suffice. -/
def Binary.shortest (b : Binary) : Scaled :=
  search b 19 b.order

def fields (f : Float) : Bool × Nat × Nat :=
  let bits := f.toBits.toNat
  (bits / Nat.pow 2 63 % 2 = 1, bits / Nat.pow 2 52 % 2048, bits % Nat.pow 2 52)

inductive Reading where
  | nan
  | infinite (negative : Bool)
  | finite (negative : Bool) (magnitude : Binary)

def reading (f : Float) : Reading :=
  let (negative, exponent, fraction) := fields f
  if exponent = 2047 then if fraction = 0 then .infinite negative else .nan
  else if exponent = 0 then .finite negative ⟨fraction, -1074⟩
  else .finite negative ⟨fraction + Nat.pow 2 52, exponent - 1075⟩

def Binary.whole? (b : Binary) : Option Nat :=
  let (num, den) := ratio 2 b.power
  if b.mantissa * num % den = 0 then some (b.mantissa * num / den) else none

def Scaled.positional (d : Scaled) : String :=
  let ds := (toString d.digits).toList
  if 0 ≤ d.power then String.ofList (ds ++ List.replicate d.power.toNat '0')
  else
    let places := (-d.power).toNat
    let padded := List.replicate (places + 1 - ds.length) '0' ++ ds
    let whole := padded.take (padded.length - places)
    let part := padded.drop (padded.length - places)
    String.ofList (whole ++ '.' :: part)

end SelectiveTrace.Decimal
