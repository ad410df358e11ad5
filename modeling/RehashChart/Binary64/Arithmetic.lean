import RehashChart.Binary64.Basic

/-! # Arithmetic on binary64 numbers

Every operation is its exact result, rounded once. What has no value is a NaN, and a NaN stays one.
-/

namespace RehashChart.Binary64

def neg : Binary64 → Binary64
  | nan => nan
  | infinity s => infinity (!s)
  | finite s m e h => finite (!s) m e h

def abs : Binary64 → Binary64
  | nan => nan
  | infinity _ => infinity false
  | finite _ m e h => finite false m e h

/-- Two zeros sum to a negative zero only if both are negative. -/
def add : Binary64 → Binary64 → Binary64
  | nan, _ => nan
  | _, nan => nan
  | infinity s, infinity t => if s = t then infinity s else nan
  | infinity s, _ => infinity s
  | _, infinity t => infinity t
  | x, y => ofRat (x.isNegative && y.isNegative) (x.toRat + y.toRat)

def sub (x y : Binary64) : Binary64 := add x y.neg

def mul (x y : Binary64) : Binary64 :=
  let s := x.isNegative != y.isNegative
  match x, y with
  | nan, _ => nan
  | _, nan => nan
  | infinity _, infinity _ => infinity s
  | infinity _, y => if y.toRat = 0 then nan else infinity s
  | x, infinity _ => if x.toRat = 0 then nan else infinity s
  | x, y => ofRat s (x.toRat * y.toRat)

def div (x y : Binary64) : Binary64 :=
  let s := x.isNegative != y.isNegative
  match x, y with
  | nan, _ => nan
  | _, nan => nan
  | infinity _, infinity _ => nan
  | infinity _, _ => infinity s
  | _, infinity _ => zero s
  | x, y =>
      if y.toRat = 0 then (if x.toRat = 0 then nan else infinity s)
      else ofRat s (x.toRat / y.toRat)

instance : Neg Binary64 := ⟨neg⟩
instance : Add Binary64 := ⟨add⟩
instance : Sub Binary64 := ⟨sub⟩
instance : Mul Binary64 := ⟨mul⟩
instance : Div Binary64 := ⟨div⟩
instance : OfNat Binary64 n := ⟨ofNat n⟩

/-! ## Whole numbers near a number -/

/-- The integer nearest to `q`; one half goes away from zero. -/
def roundAway (q : Rat) : Int :=
  if q < 0 then -((-q + mkRat 1 2).floor) else (q + mkRat 1 2).floor

/-- Applies a rounding to integers; the result keeps the sign of its argument, also as a zero. -/
def toWhole (f : Rat → Int) : Binary64 → Binary64
  | finite s m e h => ofRat s (f (finite s m e h).toRat : Int)
  | x => x

def floor (x : Binary64) : Binary64 := x.toWhole Rat.floor

def ceil (x : Binary64) : Binary64 := x.toWhole Rat.ceil

def round (x : Binary64) : Binary64 := x.toWhole roundAway

def truncated (q : Rat) : Int := if q < 0 then q.ceil else q.floor

/-- The whole part of a number, brought into `lo..hi`; a NaN counts as zero. -/
def clampTo (lo hi : Int) : Binary64 → Int
  | nan => 0
  | infinity s => if s then lo else hi
  | finite s m e h => max lo (min hi (truncated (finite s m e h).toRat))

def toNat64 (x : Binary64) : Nat := (x.clampTo 0 (UInt64.size - 1)).toNat

def toNat32 (x : Binary64) : Nat := (x.clampTo 0 (UInt32.size - 1)).toNat

def toInt32 (x : Binary64) : Int := x.clampTo (-2147483648) 2147483647

end RehashChart.Binary64
