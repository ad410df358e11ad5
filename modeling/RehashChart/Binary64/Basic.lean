/-! # Binary64 numbers

A finite number is stored exactly, in the one form that the format gives it, so equal values with
equal signs are equal terms. `ofRat` is the only place where anything is rounded: to the nearest
number, a tie to the even significand, and to an infinity from `2 ^ 1024 - 2 ^ 970` on.
-/

namespace RehashChart

namespace Binary64

/-- The number of significands: they have 53 bits. -/
def significands : Nat := 9007199254740992

/-- The least significand that needs all of its bits. -/
def fullSignificand : Nat := 4503599627370496

/-- The stored form of a magnitude: a full significand, or the least exponent. -/
def Canonical (mantissa : Nat) (exponent : Int) : Prop :=
  mantissa < significands ∧ -1074 ≤ exponent ∧ exponent ≤ 971 ∧
    (fullSignificand ≤ mantissa ∨ exponent = -1074)

instance (mantissa : Nat) (exponent : Int) : Decidable (Canonical mantissa exponent) :=
  inferInstanceAs (Decidable (_ ∧ _))

end Binary64

/-- A floating point number; `finite` stands for `± mantissa * 2 ^ exponent`. -/
inductive Binary64 where
  | nan
  | infinity (negative : Bool)
  | finite (negative : Bool) (mantissa : Nat) (exponent : Int)
      (canonical : Binary64.Canonical mantissa exponent)
  deriving DecidableEq

namespace Binary64

/-! ## Exact values -/

def scaled (base : Nat) (n e : Int) : Rat :=
  if 0 ≤ e then ((n * (Nat.pow base e.toNat : Nat) : Int) : Rat)
  else mkRat n (Nat.pow base (-e).toNat)

def shifted (n e : Int) : Rat := scaled 2 n e

def tenTo (k : Int) : Rat := scaled 10 1 k

def toRat : Binary64 → Rat
  | finite negative m e _ => shifted (if negative then -(m : Int) else m) e
  | _ => 0

def isFinite : Binary64 → Bool
  | finite .. => true
  | _ => false

def isNegative : Binary64 → Bool
  | nan => false
  | infinity negative => negative
  | finite negative .. => negative

def zero (negative : Bool) : Binary64 := finite negative 0 (-1074) (by decide)

instance : Inhabited Binary64 := ⟨zero false⟩

/-! ## Rounding -/

/-- The quotient of two natural numbers, rounded to the nearest integer, a tie to the even one. -/
def nearestEven (num den : Nat) : Nat :=
  let q := num / den
  let twice := 2 * (num % den)
  if twice < den then q else if den < twice then q + 1 else q + q % 2

def scaledBy (num den : Nat) (k : Int) : Nat × Nat :=
  if 0 ≤ k then (num, den * Nat.pow 2 k.toNat) else (num * Nat.pow 2 (-k).toNat, den)

def floorLog2 (num den : Nat) : Int :=
  let k : Int := (num.log2 : Int) - den.log2
  let (n, d) := scaledBy num den k
  if n < d then k - 1 else k

def unitExponent (num den : Nat) : Int := max (-1074) (floorLog2 num den - 52)

/-- Puts a rounded significand into its stored form; `2 ^ 53` carries into the exponent, and what
is too large is an infinity. -/
def ofParts (negative : Bool) (m : Nat) (e : Int) : Binary64 :=
  if h : Canonical m e then finite negative m e h
  else if h : Canonical (m / 2) (e + 1) then finite negative (m / 2) (e + 1) h
  else infinity negative

def ofQuotient (negative : Bool) (num den : Nat) : Binary64 :=
  if num = 0 then zero negative
  else
    let e := unitExponent num den
    let (n, d) := scaledBy num den e
    ofParts negative (nearestEven n d) e

/-- The number nearest to `q`; a zero gets the sign asked for. -/
def ofRat (negativeZero : Bool) (q : Rat) : Binary64 :=
  ofQuotient (if q.num = 0 then negativeZero else decide (q.num < 0)) q.num.natAbs q.den

def ofNat (n : Nat) : Binary64 := ofQuotient false n 1

def ofInt (n : Int) : Binary64 := ofQuotient (decide (n < 0)) n.natAbs 1

/-! ## Order

A NaN is neither less than nor equal to anything. -/

def lt : Binary64 → Binary64 → Bool
  | nan, _ => false
  | _, nan => false
  | infinity s, infinity t => s && !t
  | infinity s, _ => s
  | _, infinity t => !t
  | x, y => decide (x.toRat < y.toRat)

def eq : Binary64 → Binary64 → Bool
  | nan, _ => false
  | _, nan => false
  | infinity s, infinity t => s == t
  | infinity _, _ => false
  | _, infinity _ => false
  | x, y => decide (x.toRat = y.toRat)

def le (x y : Binary64) : Bool := lt x y || eq x y

end Binary64

end RehashChart
