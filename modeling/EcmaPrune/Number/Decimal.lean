import EcmaPrune.Number

/-! Decimal text of numbers: the fewest digits that read back, always in positional notation. -/

namespace EcmaPrune.Number

-- Powers of integers are the ones that come with the language, whatever else is imported.
attribute [local instance (high)] instPowNat

/-- A positive decimal `0.d₁d₂… * 10 ^ point`, given by its digits and the place of its point. -/
structure Digits where
  digits : List Char
  point : Int
deriving DecidableEq, Repr

/-- The reals between two ends, given in units of `2 ^ -1076`, with or without the ends. -/
structure Interval where
  low : Nat
  high : Nat
  closed : Bool

/--
The reals that round to a positive finite number, in units of `2 ^ -1076`.

The lower neighbour is half as far at the start of a binade. A tie goes to the even number, so the
ends belong to the interval exactly when the last bit of the number is zero.
-/
def interval (x : Number) : Interval :=
  let gap := 2 ^ (x.exponentField - 1)
  let value := 4 * x.magnitude
  let below := if x.fractionField = 0 && 1 < x.exponentField then gap else 2 * gap
  ⟨value - below, value + 2 * gap, x.fractionField % 2 == 0⟩

/-- Whether the fraction `num / den` lies in an interval. -/
def Interval.contains (range : Interval) (num den : Nat) : Bool :=
  if range.closed then range.low * den ≤ num && num ≤ range.high * den
  else range.low * den < num && num < range.high * den

/--
The neighbours of a number on the grid of multiples of `10 ^ step`, tested against its interval.

Of two grid points that read back the nearer is taken, and the upper one if both are as near.
-/
def gridPoint? (x : Number) (step : Int) : Option Nat :=
  -- Lengths are fractions of `2 ^ -1076` over `den`, so that one grid step is `unit` of them.
  let unit := (if 0 ≤ step then 10 ^ step.toNat else 1) * 2 ^ (unitPlaces + 2)
  let den := if 0 ≤ step then 1 else 10 ^ (-step).toNat
  let value := 4 * x.magnitude * den
  let below := value / unit
  let fitsBelow := x.interval.contains (below * unit) den
  let fitsAbove := x.interval.contains ((below + 1) * unit) den
  if fitsBelow && fitsAbove then
    some (if 2 * (value % unit) < unit then below else below + 1)
  else if fitsBelow then some below
  else if fitsAbove then some (below + 1)
  else none

/-- The number of decimal places at which the smallest positive double has its first digit. -/
abbrev unitDigits : Nat := 324

/-- The number of decimal digits before the point, counted negatively below one tenth. -/
def pointOf (x : Number) : Int :=
  let whole := x.magnitude / 2 ^ unitPlaces
  if 0 < whole then (Nat.toDigits 10 whole).length
  else
    -- This scaling makes every positive double an integer of at least one digit.
    (Nat.toDigits 10 (x.magnitude * 10 ^ unitDigits / 2 ^ unitPlaces)).length - unitDigits

/-- The digits of the coarsest grid with a point that reads back, trying `count` digits first. -/
def shortestFrom (x : Number) : Nat → Nat → Digits
  | 0, count => ⟨Nat.toDigits 10 x.magnitude, count⟩
  | fuel + 1, count =>
    let step := x.pointOf - count
    match x.gridPoint? step with
    | some point =>
      let digits := Nat.toDigits 10 point
      ⟨digits, step + digits.length⟩
    | none => shortestFrom x fuel (count + 1)

/-- The shortest digits that read back as a positive finite number; seventeen always do. -/
def shortest (x : Number) : Digits := x.shortestFrom 17 1

/-- Digits written out around their point, with no exponent and no needless zero or point. -/
def Digits.positional (d : Digits) : String :=
  let digits := (d.digits.reverse.dropWhile (· == '0')).reverse
  if d.point ≤ 0 then String.ofList ("0.".toList ++ List.replicate (-d.point).toNat '0' ++ digits)
  else
    let whole := d.point.toNat
    if digits.length ≤ whole then
      String.ofList (digits ++ List.replicate (whole - digits.length) '0')
    else String.ofList (digits.take whole ++ '.' :: digits.drop whole)

/-- The text of a number without its sign. -/
def magnitudeText (x : Number) : String :=
  if x.isInfinite then "Infinity"
  else if x.isZero then "0"
  else x.shortest.positional

/-- The text of a number; negative zero keeps its sign and a NaN has none. -/
def text (x : Number) : String :=
  if x.isNaN then "NaN"
  else if x.isNegative then "-" ++ x.magnitudeText
  else x.magnitudeText

/-- The number nearest to decimal digits with an optional point, if the text is just that. -/
def ofDecimal? (negative : Bool) (chars : List Char) : Option Number :=
  let whole := chars.takeWhile Char.isDigit
  let rest := chars.dropWhile Char.isDigit
  let fraction := rest.drop 1
  if whole.isEmpty then none
  else if rest.isEmpty then some (nearest negative (Nat.ofDigitChars 10 whole 0) 1)
  else if rest.head? == some '.' && !fraction.isEmpty && fraction.all Char.isDigit then
    some (nearest negative (Nat.ofDigitChars 10 (whole ++ fraction) 0) (10 ^ fraction.length))
  else none

/--
Reads a text that is exactly how some number prints.

Every printed form is a word or plain decimal digits, so no other spelling has to be understood.
-/
def ofText? (source : String) : Option Number :=
  let read :=
    if source == "NaN" then some nan
    else if source == "Infinity" then some (infinity false)
    else if source == "-Infinity" then some (infinity true)
    else match source.toList with
      | '-' :: digits => ofDecimal? true digits
      | digits => ofDecimal? false digits
  read.filter (fun x => x.text == source)

end EcmaPrune.Number
