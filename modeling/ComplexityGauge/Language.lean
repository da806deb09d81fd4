import ComplexityGauge.Text.Lowercase

/-!
# Language hints

A caller may say in which language a source text is written. The hint is kept for display and for
choosing an example; it never changes an analysis.

## Main definitions

* `Language` — the hints that are known, `auto` standing for all others
* `Language.ofHint` — the language that a hint names
* `Language.ofExampleName`, `Language.snippet`, `exampleFor` — the example texts
-/

namespace ComplexityGauge

open Text

/-- The known languages; `auto` is the absence of a hint. -/
inductive Language | auto | python | javascript | pseudocode
  deriving DecidableEq, Repr

namespace Language

/-- All languages. -/
def all : List Language := [auto, python, javascript, pseudocode]

/-- The name of a language. -/
def name : Language → Text
  | auto => "auto".toList
  | python => "python".toList
  | javascript => "javascript".toList
  | pseudocode => "pseudocode".toList

/-- The language that a hint names, up to blanks at its ends and letter case. A hint that names
no language is no hint. -/
def ofHint (hint : Text) : Language :=
  (all.find? fun l => l.name = normalize hint).getD auto

/-- The language that a hint names, if there is a hint. -/
def ofHint? (hint : Option Text) : Language := ofHint (hint.getD [])

/-- The languages that have an example, in the order of their listing. -/
def withExample : List Language := [python, javascript, pseudocode]

/-- The language whose example is shown where no language fits. -/
def defaultExample : Language := pseudocode

/-- The language whose example belongs to a name. -/
def ofExampleName (t : Text) : Language :=
  (withExample.find? fun l => l.name = normalize t).getD defaultExample

/-- A binary search. -/
def pythonSnippet : Text := unlines (List.map String.toList
  ["def binary_search(arr, target):",
   "    left, right = 0, len(arr) - 1",
   "    while left <= right:",
   "        mid = (left + right) // 2",
   "        if arr[mid] == target:",
   "            return mid",
   "        elif arr[mid] < target:",
   "            left = mid + 1",
   "        else:",
   "            right = mid - 1",
   "    return -1"])

/-- Fibonacci numbers by iteration. Its blank line keeps its indentation. -/
def javascriptSnippet : Text := unlines (List.map String.toList
  ["function fibonacci(n) \x7b",
   "    if (n <= 1) return n;",
   "    ",
   "    let prev = 0, curr = 1;",
   "    for (let i = 2; i <= n; i++) \x7b",
   "        let next = prev + curr;",
   "        prev = curr;",
   "        curr = next;",
   "    \x7d",
   "    return curr;",
   "\x7d"])

/-- Two loops, one of them nested. Its blank line keeps its indentation. -/
def pseudocodeSnippet : Text := unlines (List.map String.toList
  ["for i = 0 to n-1:",
   "    for j = 0 to n-1:",
   "        print(i, j)",
   "        ",
   "for k = 0 to n-1:",
   "    print(k)"])

/-- The example of a language. -/
def snippet : Language → Text
  | python => pythonSnippet
  | javascript => javascriptSnippet
  | pseudocode | auto => pseudocodeSnippet

end Language

/-- The example for a language given by name. -/
def exampleFor (t : Text) : Text := (Language.ofExampleName t).snippet

end ComplexityGauge
