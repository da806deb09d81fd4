import ComplexityGauge.Text.Basic

/-!
# Ratings

How severe a complexity label is, for a display that colours its results.

## Main definitions

* `Rating` — the three degrees
* `Rating.ofTimeLabel` — the rating of any text taken as a time label
* `Rating.ofSpace` — the rating of every space label
-/

namespace ComplexityGauge

open Text

/-- How severe a label is. -/
inductive Rating | good | fair | poor
  deriving DecidableEq, Repr

namespace Rating

/-- All ratings, the best first. -/
def all : List Rating := [good, fair, poor]

/-- The name of a rating. -/
def name : Rating → Text
  | good => "Good".toList
  | fair => "Fair".toList
  | poor => "Poor".toList

/-- The position of a rating, the best being lowest. -/
def rank : Rating → Nat
  | good => 0
  | fair => 1
  | poor => 2

/-- Labels that make any text holding them poor. -/
def poorLabels : List Text := ["O(2^n)".toList, "O(n!)".toList]

/-- Labels that make any text holding them, and no poor one, fair. -/
def fairLabels : List Text := ["O(n³)".toList, "O(n²)".toList]

/-- The rating of a time label, found by searching it for the labels known to be severe. -/
def ofTimeLabel (label : Text) : Rating :=
  if poorLabels.any (occurs · label) then poor
  else if fairLabels.any (occurs · label) then fair
  else good

/-- Every space label is rated good. -/
def ofSpace : Rating := good

end Rating

end ComplexityGauge
