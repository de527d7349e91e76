import FrontEnd.Decimal.Shortest

/-!
# The text of a number

Numbers between `1e-5` and `1e16` are written out with at least one place after the point; others
have one digit before the point and an exponent with its sign, as in `9.9e-6` and `1e+16`.
-/

namespace FrontEnd.Decimal

/-- Puts zeros before or after a text. -/
def zeros (n : Nat) : String :=
  String.ofList (List.replicate n '0')

/-- A decimal without an exponent. -/
def Dec.positional (d : Dec) : String :=
  let digits := Nat.toDigits 10 d.digits
  let point := digits.length + d.exponent
  if 0 ≤ d.exponent then String.ofList digits ++ zeros d.exponent.toNat ++ ".0"
  else if 0 < point then
    String.ofList (digits.take point.toNat) ++ "." ++ String.ofList (digits.drop point.toNat)
  else "0." ++ zeros (-point).toNat ++ String.ofList digits

/-- A decimal with an exponent. -/
def Dec.scientific (d : Dec) : String :=
  let digits := Nat.toDigits 10 d.digits
  let exponent := digits.length - 1 + d.exponent
  let fraction := if digits.length ≤ 1 then "" else "." ++ String.ofList (digits.drop 1)
  let sign := if exponent < 0 then "" else "+"
  String.ofList (digits.take 1) ++ fraction ++ "e" ++ sign ++ toString exponent

/-- The text of a decimal. -/
def Dec.text (d : Dec) : String :=
  let leading := (Nat.toDigits 10 d.digits).length - 1 + d.exponent
  if -5 ≤ leading ∧ leading < 16 then d.positional else d.scientific

/-- The text of a double that is not negative, if it is finite. -/
def text? (x : Float) : Option String :=
  if x.isInf || x.isNaN then none
  else if x == 0.0 then some "0.0"
  else (Binary.ofBits x.toBits.toNat).shortest?.map Dec.text

/-- The bits of a double, in sixteen hexadecimal digits. -/
def bits (x : Float) : String :=
  let digits := Nat.toDigits 16 x.toBits.toNat
  zeros (16 - digits.length) ++ String.ofList digits

end FrontEnd.Decimal
