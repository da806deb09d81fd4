import ComplexityGauge.Text.Basic

/-!
# Allowed origins

The list of origins whose pages may use the service, written with commas between its entries. A
star among them stands for every origin.

## Main definitions

* `Origins.ofText` — the origins of a list
* `Origins.allowAll`, `Origins.allows` — which origins a list allows
-/

namespace ComplexityGauge.Origins

open Text

/-- The entry that stands for every origin. -/
def star : Text := ['*']

/-- The entries of a list, trimmed, without the empty ones. -/
def entries (list : Text) : List Text :=
  ((list.splitOn ',').map trim).filter fun entry => !entry.isEmpty

/-- The origins of a list: the star alone if it is an entry, and otherwise all entries. -/
def ofText (list : Text) : List Text :=
  if (entries list).contains star then [star] else entries list

/-- The origins include the star. -/
def allowAll (origins : List Text) : Bool := origins.contains star

/-- The origin may use the service: it is listed character for character, or all are allowed. -/
def allows (origins : List Text) (origin : Text) : Bool :=
  allowAll origins || origins.contains origin

end ComplexityGauge.Origins
