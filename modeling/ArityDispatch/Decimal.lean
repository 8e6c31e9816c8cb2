/-!
# Shortest decimals

A number `m / 2 ^ s` stands for every real number nearer to it than to its neighbours. The
shortest decimal of such a number is the one with the fewest places among the decimals in
that span. `places` points of the grid are tried in turn, and on each grid only the two
points next to the number matter: if the span holds any point of the grid, it holds one of
these. Of two hits the nearer is taken, and the upper one of two that are equally near.
-/

namespace ArityDispatch.Decimal

/-- The reals that are rounded to `m / 2 ^ s`: down to a half step below it, or a quarter
where the step below is half as wide, and up to a half step above it. Both ends belong to
the span when `closed` is set. -/
structure Span where
  m : Nat
  s : Nat
  narrow : Bool
  closed : Bool
deriving Repr

/-- Whether `n / 10 ^ places` lies in the span, in units of `1 / (4 · 2 ^ s)`. -/
def Span.holds (i : Span) (places n : Nat) : Bool :=
  let low := (4 * i.m - if i.narrow then 1 else 2) * Nat.pow 10 places
  let high := (4 * i.m + 2) * Nat.pow 10 places
  let point := 4 * (n * Nat.pow 2 i.s)
  if i.closed then low ≤ point && point ≤ high else low < point && point < high

/-- The grid point of the span that is nearest to its number, if the span holds any. -/
def Span.nearest? (i : Span) (places : Nat) : Option Nat :=
  let scaled := i.m * Nat.pow 10 places
  let below := scaled / Nat.pow 2 i.s
  let excess := scaled % Nat.pow 2 i.s
  match i.holds places below, i.holds places (below + 1) with
  | false, false => none
  | true, false => some below
  | false, true => some (below + 1)
  | true, true => some (if Nat.pow 2 i.s ≤ 2 * excess then below + 1 else below)

/-- Tries `fuel` grids from `places` on. -/
def Span.search (i : Span) : Nat → Nat → Option (Nat × Nat)
  | 0, _ => none
  | fuel + 1, places =>
    match i.nearest? places with
    | some n => some (n, places)
    | none => i.search fuel (places + 1)

/-- The shortest decimal `n / 10 ^ places`. The number itself has `s` places, so that the
search never runs past the grid with `s` of them. -/
def Span.shortest (i : Span) : Nat × Nat :=
  (i.search (i.s + 1) 0).getD (i.m * Nat.pow 5 i.s, i.s)

/-- The decimal digits of a number. -/
def digits (n : Nat) : List Char := Nat.toDigits 10 n

/-- `n / 10 ^ places` with a point and exactly `places` digits after it. -/
def positional (n places : Nat) : List Char :=
  let fraction := digits (n % Nat.pow 10 places)
  digits (n / Nat.pow 10 places) ++ '.' :: List.replicate (places - fraction.length) '0' ++ fraction

end ArityDispatch.Decimal
