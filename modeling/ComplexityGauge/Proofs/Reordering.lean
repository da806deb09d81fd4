import ComplexityGauge.Proofs.Mentions
import Mathlib.Data.List.Infix

/-!
# Lines in another order

What the order of the lines of a text decides, and what it does not. A definition is found on a
line of its own and its call on any line, so recursion does not depend on the order. Nor does which
kinds of data structure are mentioned, and the space class and its explanation are chosen from the
kinds whatever order these stand in. Only the deepest nesting depends on the order, and only so
far: the whole text is one of the windows over which the nesting is a maximum, every opening line
is another, and no window adds more than the opening lines that it holds.

## Main definitions

* `Signals.openingLines`, `Signals.closingLines` — the numbers of lines of either effect
* `Signals.leastNesting` — the lower bound on the deepest nesting

## Main results

* `SpaceClass.deciding?_congr` — the space class does not see the order of the kinds
* `Signals.leastNesting_le`, `Signals.maxNestedLoops_le` — the two bounds
* `Analysis.ofText_reordered` — the result for a text with its lines in another order
-/

namespace ComplexityGauge

open Text

/-! ### Decision tables -/

section Tables

variable {s t : Signals}

/-- The decision table for space asks which kinds there are and not in which order. -/
theorem SpaceClass.deciding?_congr
    (h : ∀ kind, kind ∈ s.dataStructures ↔ kind ∈ t.dataStructures) :
    deciding? s = deciding? t := by
  simp only [deciding?, h]

theorem SpaceClass.ofSignals_congr
    (h : ∀ kind, kind ∈ s.dataStructures ↔ kind ∈ t.dataStructures) :
    ofSignals s = ofSignals t ∧ explanation s = explanation t := by
  unfold ofSignals explanation
  rw [deciding?_congr h]
  exact ⟨rfl, rfl⟩

end Tables

/-! ### Counting lines -/

/-- The line closes a block and opens no loop. -/
def Line.closesOnly (line : Text) : Bool := !opensLoop line && closesBlock line

/-- The weights of a list of lines add up to the difference of the two counts. -/
theorem Line.sum_map_weight (ls : List Text) :
    (ls.map weight).sum = (ls.countP opensLoop : ℤ) - ls.countP closesOnly := by
  induction ls with
  | nil => rfl
  | cons l ls ih =>
    rw [List.map_cons, List.sum_cons, List.countP_cons, List.countP_cons, ih, weight, closesOnly]
    -- A line that does both counts as opening on either side.
    cases opensLoop l <;> cases closesBlock l <;> simp <;> omega

namespace Signals

variable {code other : Text}

/-- The number of lines that open a loop. -/
def openingLines (code : Text) : ℕ := (normalLines code).countP Line.opensLoop

/-- The number of lines that close a block and open no loop. -/
def closingLines (code : Text) : ℕ := (normalLines code).countP Line.closesOnly

/-- The least that the lines of a text can nest, in whatever order they stand: the loops that the
closing lines cannot close, and one loop if there is any. -/
def leastNesting (code : Text) : ℕ :=
  max (openingLines code - closingLines code) (if openingLines code = 0 then 0 else 1)

theorem sum_weights (code : Text) :
    (weights code).sum = (openingLines code : ℤ) - closingLines code :=
  Line.sum_map_weight _

/-- A window of lines adds no more than there are opening lines in the whole text. -/
theorem le_openingLines_of_mem_windowSums {n : ℤ} (h : n ∈ windowSums (weights code)) :
    n ≤ openingLines code := by
  obtain ⟨window, hwindow, rfl⟩ := h
  obtain ⟨ls, hls, rfl⟩ := List.infix_map_iff.mp hwindow
  have hcount : ls.countP Line.opensLoop ≤ openingLines code := hls.sublist.countP_le
  rw [Line.sum_map_weight]
  omega

theorem maxNestedLoops_le (code : Text) : (ofText code).maxNestedLoops ≤ openingLines code :=
  Int.ofNat_le.mp (le_openingLines_of_mem_windowSums (measures_nesting code).deepest.1)

/-- The window of all lines and the window of one opening line bound the nesting from below. -/
theorem leastNesting_le (code : Text) : leastNesting code ≤ (ofText code).maxNestedLoops := by
  have hgreatest := (measures_nesting code).deepest.2
  apply max_le
  · have hall : (openingLines code : ℤ) - closingLines code ≤ (ofText code).maxNestedLoops :=
      hgreatest ⟨weights code, List.infix_rfl, sum_weights code⟩
    omega
  · split_ifs with hnone
    · exact Nat.zero_le _
    · obtain ⟨line, hline, hopens⟩ := List.countP_pos_iff.mp (Nat.pos_of_ne_zero hnone)
      have hweight : Line.weight line = 1 := if_pos hopens
      have hwindow : [Line.weight line] <:+: weights code :=
        (List.singleton_infix_iff _ _).mpr (List.mem_map_of_mem hline)
      have hone : (1 : ℤ) ≤ (ofText code).maxNestedLoops :=
        hgreatest ⟨_, hwindow, by rw [List.sum_singleton, hweight]⟩
      omega

theorem maxNestedLoops_eq_zero_iff : (ofText code).maxNestedLoops = 0 ↔ openingLines code = 0 := by
  have hlow := leastNesting_le code
  have hhigh := maxNestedLoops_le code
  rw [leastNesting] at hlow
  split_ifs at hlow <;> omega

/-! ### Another order -/

section Reordered

/-! The lines of `other` are those of `code` in another order. -/

variable (h : (lines other).Perm (lines code))

include h

theorem normalLines_perm : (normalLines other).Perm (normalLines code) := h.map normalize

theorem openingLines_eq_of_perm : openingLines other = openingLines code :=
  (normalLines_perm h).countP_eq _

theorem closingLines_eq_of_perm : closingLines other = closingLines code :=
  (normalLines_perm h).countP_eq _

theorem leastNesting_eq_of_perm : leastNesting other = leastNesting code := by
  rw [leastNesting, leastNesting, openingLines_eq_of_perm h, closingLines_eq_of_perm h]

/-- Recursion is a matter of two lines, a definition and a call, wherever either of them stands. -/
theorem hasRecursion_eq_of_perm : (ofText other).hasRecursion = (ofText code).hasRecursion := by
  rw [Bool.eq_iff_iff, hasRecursion_iff_exists_lines, hasRecursion_iff_exists_lines]
  simp only [h.mem_iff]

theorem mem_dataStructures_iff_of_perm (kind : DataStructure) :
    kind ∈ (ofText other).dataStructures ↔ kind ∈ (ofText code).dataStructures := by
  rw [mem_dataStructures_iff, mem_dataStructures_iff]
  exact ((normalLines_perm h).flatMap_right _).mem_iff

/-- The kinds come in another order at most. -/
theorem dataStructures_perm : (ofText other).dataStructures.Perm (ofText code).dataStructures :=
  (List.perm_ext_iff_of_nodup (nodup_eraseDups _) (nodup_eraseDups _)).mpr
    (mem_dataStructures_iff_of_perm h)

theorem maxNestedLoops_bounds_of_perm :
    leastNesting code ≤ (ofText other).maxNestedLoops ∧
      (ofText other).maxNestedLoops ≤ openingLines code := by
  rw [← leastNesting_eq_of_perm h, ← openingLines_eq_of_perm h]
  exact ⟨leastNesting_le other, maxNestedLoops_le other⟩

end Reordered

end Signals

namespace Analysis

/-- A text with its lines in another order has the same recursion, the same kinds of data structure
in some order, the same space class with the same explanation, and the same answer to whether its
time label is the highest or the lowest. The depth of its nesting lies within bounds that the lines
set in whatever order they stand, and time class and report differ from those of the text by this
depth and the order of the kinds alone. -/
theorem ofText_reordered {code : Text} {ls : List Text} (h : ls.Perm (lines code)) :
    (Signals.ofText (unlines ls)).hasRecursion = (Signals.ofText code).hasRecursion ∧
      (∀ kind, kind ∈ (Signals.ofText (unlines ls)).dataStructures ↔
        kind ∈ (Signals.ofText code).dataStructures) ∧
      (ofText (unlines ls)).space.label = (ofText code).space.label ∧
      (ofText (unlines ls)).spaceExplanation = (ofText code).spaceExplanation ∧
      ((ofText (unlines ls)).time.label = "O(2^n)".toList ↔
        (ofText code).time.label = "O(2^n)".toList) ∧
      ((ofText (unlines ls)).time.label = "O(1)".toList ↔
        (ofText code).time.label = "O(1)".toList) ∧
      ∃ n kinds, Signals.leastNesting code ≤ n ∧ n ≤ Signals.openingLines code ∧
        kinds.Perm (Signals.ofText code).dataStructures ∧
        Signals.ofText (unlines ls) = ⟨n, (Signals.ofText code).hasRecursion, kinds⟩ ∧
        (ofText (unlines ls)).time.label =
          (if (Signals.ofText code).hasRecursion then TimeClass.exponential
            else TimeClass.ofDepth n).label ∧
        (ofText (unlines ls)).report =
          Report.heading ++ "\n\n".toList ++ Report.loopsBullet n ++
            Report.recursionBullet (Signals.ofText code).hasRecursion ++
            Report.structuresBullet kinds ++ ['\n'] ++ Report.note := by
  have hnewline : ∀ l ∈ ls, '\n' ∉ l := by
    intro l hl
    exact newline_notMem_of_mem_lines (h.mem_iff.mp hl)
  have hne : ls ≠ [] := by
    rintro rfl
    exact lines_ne_nil code h.nil_eq.symm
  have hperm : (lines (unlines ls)).Perm (lines code) := by
    rw [lines_unlines hne hnewline]
    exact h
  have hrecursion := Signals.hasRecursion_eq_of_perm hperm
  have hkinds := Signals.mem_dataStructures_iff_of_perm hperm
  obtain ⟨hspace, hexplanation⟩ := SpaceClass.ofSignals_congr hkinds
  obtain ⟨hlow, hhigh⟩ := Signals.maxNestedLoops_bounds_of_perm hperm
  have hsignals : Signals.ofText (unlines ls) =
      ⟨(Signals.ofText (unlines ls)).maxNestedLoops, (Signals.ofText code).hasRecursion,
        (Signals.ofText (unlines ls)).dataStructures⟩ := by
    rw [← hrecursion]
  refine ⟨hrecursion, hkinds, congrArg SpaceClass.label hspace, hexplanation, ?highest, ?lowest,
    _, _, hlow, hhigh, Signals.dataStructures_perm hperm, hsignals, ?time, ?report⟩
  case highest =>
    refine TimeClass.label_eq_exponential_iff.trans ?_
    rw [hrecursion]
    exact TimeClass.label_eq_exponential_iff.symm
  case lowest =>
    refine TimeClass.label_eq_constant_iff.trans ?_
    rw [hrecursion, Signals.maxNestedLoops_eq_zero_iff, Signals.openingLines_eq_of_perm hperm,
      ← Signals.maxNestedLoops_eq_zero_iff]
    exact TimeClass.label_eq_constant_iff.symm
  case time =>
    rw [← hrecursion]
    rfl
  case report =>
    rw [← hrecursion]
    rfl

/-- Two loops one behind the other become one inside the other when the line that closes the first
moves to the end. -/
theorem ofText_reordered_closingLast :
    ["for x".toList, "for y".toList, "end".toList].Perm (lines "for x\nend\nfor y".toList) ∧
      ∃ n kinds, 1 ≤ n ∧ n ≤ 2 ∧
        Signals.ofText "for x\nfor y\nend".toList = ⟨n, false, kinds⟩ := by
  have hperm : ["for x".toList, "for y".toList, "end".toList].Perm
      (lines "for x\nend\nfor y".toList) := by decide
  obtain ⟨-, -, -, -, -, -, n, kinds, hlow, hhigh, -, hsignals, -⟩ := ofText_reordered hperm
  refine ⟨hperm, n, kinds, hlow, hhigh, ?_⟩
  have hrecursion : (Signals.ofText "for x\nend\nfor y".toList).hasRecursion = false := by decide
  rw [hrecursion] at hsignals
  exact hsignals

/-- The two orders reach the two bounds. -/
example : (Signals.ofText "for x\nend\nfor y".toList).maxNestedLoops = 1 ∧
    (Signals.ofText "for x\nfor y\nend".toList).maxNestedLoops = 2 := by decide

end Analysis

end ComplexityGauge
