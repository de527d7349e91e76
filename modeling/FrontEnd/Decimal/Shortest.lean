/-!
# Shortest decimals

A double stands for every real number that rounds to it. Of the decimals among them, `shortest?`
finds one with the fewest digits, and of those the one nearest to the double; of two that are
equally near it takes the even one. All comparisons are exact.
-/

namespace FrontEnd.Decimal

/-- A finite number, `mantissa * 2 ^ exponent`. -/
structure Binary where
  mantissa : Nat
  exponent : Int
  /-- The neighbour below is half as far away as the neighbour above. -/
  narrowBelow : Bool

/-- The number `digits * 10 ^ exponent`. -/
structure Dec where
  digits : Nat
  exponent : Int

/-- The finite number with the given bits, sign apart. -/
def Binary.ofBits (bits : Nat) : Binary :=
  let fraction : Nat := bits % (1 <<< 52)
  let biased : Nat := (bits >>> 52) % (1 <<< 11)
  if biased = 0 then ⟨fraction, -1074, false⟩
  else ⟨(1 <<< 52) + fraction, (biased : Int) - 1075, fraction == 0 && 1 < biased⟩

/-- The number `n` followed by `k` decimal zeros. -/
def shiftDigits (n k : Nat) : Nat :=
  n * Nat.pow 10 k

/-- Compares `a * 10 ^ i` with `b * 2 ^ j`. -/
def compareScaled (a : Nat) (i : Int) (b : Nat) (j : Int) : Ordering :=
  compare (shiftDigits a i.toNat <<< (-j).toNat) (shiftDigits b (-i).toNat <<< j.toNat)

/-- Whether a decimal rounds to a binary number. The ends of the range round to it exactly if its
mantissa is even. -/
def Binary.readsBack (x : Binary) (d : Dec) : Bool :=
  let low := 4 * x.mantissa - (if x.narrowBelow then 1 else 2)
  let high := 4 * x.mantissa + 2
  let closed := x.mantissa % 2 == 0
  let above := compareScaled d.digits d.exponent low (x.exponent - 2)
  let below := compareScaled d.digits d.exponent high (x.exponent - 2)
  (above == .gt || closed && above == .eq) && (below == .lt || closed && below == .eq)

/-- The number of decimal digits of a natural number. -/
def digitCount (n : Nat) : Nat :=
  (Nat.toDigits 10 n).length

/-- A binary number as a fraction of natural numbers. -/
def Binary.ratio (x : Binary) : Nat × Nat :=
  (x.mantissa <<< x.exponent.toNat, 1 <<< (-x.exponent).toNat)

/-- The least `k` with `x < 10 ^ k`, for a positive `x`. -/
def Binary.scale (x : Binary) : Int :=
  let (num, den) := x.ratio
  if den ≤ num then digitCount (num / den)
  else 1 - (digitCount ((den + num - 1) / num - 1) : Int)

/-- The nearest decimal with the given exponent that reads back, if one does. -/
def Binary.nearest? (x : Binary) (exponent : Int) : Option Dec :=
  let (num, den) := x.ratio
  let num := shiftDigits num (-exponent).toNat
  let den := shiftDigits den exponent.toNat
  let floor := num / den
  let twice := 2 * (num % den)
  let below : Dec := ⟨floor, exponent⟩
  let above : Dec := ⟨floor + 1, exponent⟩
  let belowFirst := twice < den || twice == den && floor % 2 == 0
  let (first, second) := if belowFirst then (below, above) else (above, below)
  if x.readsBack first then some first
  else if x.readsBack second then some second
  else none

/-- Moves zeros at the end of the digits, at most `fuel` of them, into the exponent. -/
def Dec.trim : Nat → Dec → Dec
  | 0, d => d
  | fuel + 1, d =>
    if d.digits % 10 = 0 then Dec.trim fuel ⟨d.digits / 10, d.exponent + 1⟩ else d

/-- A decimal with the fewest digits that reads back, for a positive number. Seventeen digits are
always enough. -/
def Binary.shortest? (x : Binary) : Option Dec :=
  ((List.range 17).findSome? fun n => x.nearest? (x.scale - (n + 1 : Nat))).map (Dec.trim 17)

end FrontEnd.Decimal
