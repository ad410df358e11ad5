import RehashChart.Binary64.Arithmetic

/-! # Key points of an axis

On the vertical axis the ticks are the multiples of a step that is one, two or five times a power of
ten, at most twelve of them. On the horizontal axis the step starts at a power of ten near the
length of the axis and shrinks as long as the points do not outnumber a limit.
-/

namespace RehashChart.KeyPoints

/-! ## Whole numbers from zero on -/

def maxSteps : Binary64 := 11

def stepsIn (range : Binary64) (step : Nat) : Binary64 := (range / Binary64.ofNat step).ceil

/-- The first of the next three steps that makes few enough of them. -/
def shorterCount? (range : Binary64) (step : Nat) : Option Nat :=
  [2 * step, 5 * step, 10 * step].find? fun longer => (stepsIn range longer).lt maxSteps

/-- Makes the step longer until the range has few enough of them, at most `decades` times by ten. -/
def lengthenStep (range : Binary64) : Nat → Nat → Nat
  | 0, step => step
  | decades + 1, step =>
      if maxSteps.lt (stepsIn range step) then
        match shorterCount? range step with
        | some longer => longer
        | none => lengthenStep range decades (10 * step)
      else step

/-- The step for the range from zero to `last`. Twenty decades lead beyond any number of 64 bits. -/
def wholeStep (last : Nat) : Nat := lengthenStep (Binary64.ofNat last) 20 1

def whole (last : Nat) : List Nat :=
  let step := wholeStep last
  (List.range (last / step + 1)).map fun k => k * step

/-! ## Numbers of a range -/

/-- The distance between one and the next number. -/
def epsilon : Binary64 := .ofRat false (Binary64.shifted 1 (-52))

/-- What `a` exceeds a multiple of `b > 0` by; zero also if that is `b` up to the last digit. -/
def remainder (a b : Binary64) : Binary64 :=
  let r := a - (a / b).floor * b
  if (r - b).abs.lt epsilon then 0 else r

def firstMultiple (lo step : Binary64) : Binary64 :=
  let m := lo - remainder lo step
  if m.lt lo then m + step else m

def lastMultiple (hi step : Binary64) : Binary64 := hi - remainder hi step

def countOf (lo hi whole part : Binary64) : Binary64 :=
  let step := whole / part
  (1 + (lastMultiple hi step - firstMultiple lo step) / whole * part).round

/-- The step after trying to shorten it by each of `parts` in turn, and whether none of them made
too many points. -/
def shortenBy (lo hi : Binary64) (limit : Nat) (whole : Binary64) :
    List Binary64 → Binary64 → Binary64 × Bool
  | [], step => (step, true)
  | part :: parts, step =>
      if limit < (countOf lo hi whole part).toNat64 then (step, false)
      else shortenBy lo hi limit whole parts (whole / part)

/-- Shortens the step as far as the limit allows, at most `decades` times by ten. The second number
is the grain to which points are rounded; it stays the tenth part of the power of ten in use. -/
def shortenStep (lo hi : Binary64) (limit : Nat) :
    Nat → Binary64 → Binary64 → Binary64 × Binary64
  | 0, step, grain => (step, grain)
  | decades + 1, step, grain =>
      match shortenBy lo hi limit step [2, 5, 10] step with
      | (shorter, false) => (shorter, grain)
      | (_, true) => shortenStep lo hi limit decades (step / 10) (grain / 10)

def powerOfTen (k : Int) : Binary64 := .ofRat false (Binary64.tenTo k)

/-- The step and the grain for a range whose length has the given power of ten. The tenth part of
the length, taken more than twenty times over, makes more points than any limit of 64 bits. -/
def fractionalStep (lo hi : Binary64) (limit : Nat) (decade : Int) : Binary64 × Binary64 :=
  let step := powerOfTen decade
  let grain := step / 10
  let tooMany := limit < 1 + ((hi - lo) / step).floor.toNat64
  let (step, grain) := if tooMany then (step * 10, grain * 10) else (step, grain)
  shortenStep lo hi limit 22 step grain

def settled (grain relative : Binary64) : Binary64 :=
  if ((relative / grain).round * grain).lt 0 then relative + grain else relative

/-- The points from `base + relative` on, in steps, as long as they are not beyond `last`. The
counter bounds the loop and nothing else. -/
def walk (base last step grain : Binary64) : Nat → Binary64 → List Binary64
  | 0, _ => []
  | count + 1, relative =>
      if Binary64.le (-epsilon) (last - relative - base) then
        let here := settled grain relative
        (here + base) :: walk base last step grain count (here + step)
      else []

def baseOf (lo step grain : Binary64) : Binary64 := (firstMultiple lo step / grain).floor * grain

def pointsIn (lo hi step grain : Binary64) (count : Nat) : List Binary64 :=
  let base := baseOf lo step grain
  walk base (lastMultiple hi step) step grain count (firstMultiple lo step - base)

def decadeOf (x : Binary64) : Int := (Nat.toDigits 10 x.toNat64).length - 1

def fractionalIn (lo hi : Binary64) (limit : Nat) (decade : Int) : List Binary64 :=
  if limit = 0 then []
  else
    let (step, grain) := fractionalStep lo hi limit decade
    pointsIn lo hi step grain limit

/-- At most `limit` points of the range `lo..hi`, which is at least one long. -/
def fractional (lo hi : Binary64) (limit : Nat) : List Binary64 :=
  fractionalIn lo hi limit (decadeOf (hi - lo))

end RehashChart.KeyPoints
