/-! # The shortest decimal of a binary number

`shortest m q` gives the decimal `d * 10 ^ k` with the fewest digits that reads back as the
double `m * 2 ^ q`, and of those the one nearest to it. The doubles next to it are half a
unit of `m` away on each side, a quarter on the lower side if `m` is a power of two at the
start of its binade; the ends of that interval read back as the double if `m` is even.

`floatText` writes a double with these digits: positional between `1e-6` and `1e21`, always
with a point, and with an exponent elsewhere. -/

namespace ForgeGateway.Text

/-- The significand and exponent of a finite double that is not negative. -/
def significand (bits : UInt64) : Nat × Int :=
  let e := (bits >>> 52).toNat % 2048
  let f := bits.toNat % 4503599627370496
  if e = 0 then (f, -1074) else (f + 4503599627370496, (e : Int) - 1075)

/-- A fraction of natural numbers. -/
structure Fraction where
  num : Nat
  den : Nat

/-- `n * 2 ^ q`. -/
def Fraction.scale2 (n : Nat) (q : Int) : Fraction :=
  if 0 ≤ q then ⟨n * Nat.pow 2 q.toNat, 1⟩ else ⟨n, Nat.pow 2 (-q).toNat⟩

/-- The exponent of the first decimal digit of a positive fraction. -/
def Fraction.leadingExponent (v : Fraction) : Int :=
  if v.den ≤ v.num then (Nat.toDigits 10 (v.num / v.den)).length - 1
  else
    let n := (Nat.toDigits 10 (v.den / v.num)).length - 1
    if v.den ≤ v.num * Nat.pow 10 n then -(n : Int) else -((n : Int) + 1)

/-- `c * 10 ^ k` compared with `n / den`, where the same `den` belongs to all. -/
def atLeast (den : Nat) (c : Nat) (k : Int) (n : Nat) : Bool :=
  n * Nat.pow 10 (-k).toNat ≤ c * den * Nat.pow 10 k.toNat

/-- Twice the distance of `c * 10 ^ k` and `v`, in units that do not depend on `c`. -/
def distance (v : Fraction) (c : Nat) (k : Int) : Nat :=
  let a := c * v.den * Nat.pow 10 k.toNat
  let b := v.num * Nat.pow 10 (-k).toNat
  (a - b) + (b - a)

/-- The point of the decimal grid `10 ^ k` that reads back as the double, if there is one. -/
def gridPoint? (v : Fraction) (low high : Nat) (closed : Bool) (k : Int) : Option Nat :=
  let floor := v.num * Nat.pow 10 (-k).toNat / (v.den * Nat.pow 10 k.toNat)
  let inside := fun c =>
    if closed then atLeast v.den c k low && !atLeast v.den c k (high + 1) ||
        (atLeast v.den c k high && c * v.den * Nat.pow 10 k.toNat == high * Nat.pow 10 (-k).toNat)
    else atLeast v.den c k low && c * v.den * Nat.pow 10 k.toNat != low * Nat.pow 10 (-k).toNat &&
        !atLeast v.den c k high
  match inside floor, inside (floor + 1) with
  | true, true => some (if distance v floor k ≤ distance v (floor + 1) k then floor else floor + 1)
  | true, false => some floor
  | false, true => some (floor + 1)
  | false, false => none

/-- Looks for a point on finer and finer grids, `n` of them. -/
def search (v : Fraction) (low high : Nat) (closed : Bool) : Nat → Int → Nat × Int
  | 0, k => (v.num * Nat.pow 10 (-k).toNat / (v.den * Nat.pow 10 k.toNat), k)
  | n + 1, k =>
    match gridPoint? v low high closed k with
    | some c => (c, k)
    | none => search v low high closed n (k - 1)

/-- Digits and exponent of the shortest decimal of `m * 2 ^ q`. -/
def shortest (m : Nat) (q : Int) : Nat × Int :=
  let v := Fraction.scale2 (4 * m) (q - 2)
  let unit := (Fraction.scale2 1 (q - 2)).num
  let low := v.num - (if m = 4503599627370496 then 1 else 2) * unit
  let high := v.num + 2 * unit
  search v low high (m % 2 = 0) 17 v.leadingExponent

/-- The digits `ds` of a number `0.ds * 10 ^ point`, written out. -/
def placePoint (ds : List Char) (point : Int) : String :=
  let n := ds.length
  if (n : Int) ≤ point ∧ point ≤ 21 then
    String.ofList (ds ++ List.replicate (point.toNat - n) '0' ++ ['.', '0'])
  else if 0 < point ∧ point ≤ 21 then
    String.ofList (ds.take point.toNat ++ '.' :: ds.drop point.toNat)
  else if -6 < point ∧ point ≤ 0 then
    String.ofList ('0' :: '.' :: List.replicate (-point).toNat '0' ++ ds)
  else
    let mark := "e" ++ toString (point - 1)
    match ds with
    | [d] => String.ofList [d] ++ mark
    | d :: rest => String.ofList (d :: '.' :: rest) ++ mark
    | [] => mark

/-- A finite double that is not negative, as text. -/
def floatText (x : Float) : String :=
  let (m, q) := significand x.toBits
  if m = 0 then "0.0"
  else
    let (c, k) := shortest m q
    let ds := Nat.toDigits 10 c
    placePoint ds (ds.length + k)

end ForgeGateway.Text
