import ComplexityGauge.Proofs.Lines
import ComplexityGauge.Signals
import Mathlib.Algebra.Order.Ring.Int
import Mathlib.Data.Nat.Cast.Order.Ring
import Mathlib.Order.Bounds.Image

/-!
# Loop nesting as a maximum over windows

Every line is given a weight: one if it opens a loop, minus one if it only closes a block, zero
otherwise. The count of open loops is kept from going below zero, so it is not the sum of the
weights so far. It is the largest sum over the windows of lines that end at the current line, and
the deepest nesting is the largest sum over all windows. The empty window is among them, which is
why neither falls below zero.

The step lemma `Nesting.Measures.step` keeps both maxima at once; the law for two texts one behind
the other follows from how the windows of a joined list lie.

## Main definitions

* `LoopEffect.weight`, `Line.weight` — the weight of a line
* `windowSums`, `endSums`, `startSums` — the sums over the windows of a list of weights, over
  those at its end and over those at its start
* `Nesting.Measures` — the counts are the largest sums
* `peak` — the largest sum over a window at the start

## Main results

* `Nesting.measures_ofEffects` — the counts are the largest sums after any sequence of lines
* `Signals.measures_nestingAfter` — the same for the first lines of a text
* `Nesting.deepest_append` — the deepest nesting of two sequences one behind the other
-/

namespace ComplexityGauge

open Text

/-- What a line adds to the number of open loops where that number may fall below zero. -/
def LoopEffect.weight : LoopEffect → ℤ
  | .opens => 1
  | .closes => -1
  | .neutral => 0

/-- The weight of a line. A line that shows both loop patterns counts as opening only. -/
def Line.weight (line : Text) : ℤ :=
  if opensLoop line then 1 else if closesBlock line then -1 else 0

theorem Line.weight_loopEffect (line : Text) : (loopEffect line).weight = weight line := by
  unfold loopEffect weight
  split_ifs <;> rfl

/-! ### Windows -/

/-- The sums over the windows of a list: its contiguous parts, the empty one included. -/
def windowSums (ws : List ℤ) : Set ℤ := {s | ∃ window, window <:+: ws ∧ window.sum = s}

/-- The sums over the windows that end where the list ends. -/
def endSums (ws : List ℤ) : Set ℤ := {s | ∃ window, window <:+ ws ∧ window.sum = s}

/-- The sums over the windows that start where the list starts. -/
def startSums (ws : List ℤ) : Set ℤ := {s | ∃ window, window <+: ws ∧ window.sum = s}

theorem endSums_subset_windowSums (ws : List ℤ) : endSums ws ⊆ windowSums ws :=
  fun _ ⟨window, hwindow, hs⟩ => ⟨window, hwindow.isInfix, hs⟩

@[simp] theorem endSums_nil : endSums [] = {0} := by
  ext s
  simp [endSums, eq_comm]

@[simp] theorem windowSums_nil : windowSums [] = {0} := by
  ext s
  simp [windowSums, eq_comm]

@[simp] theorem startSums_nil : startSums [] = {0} := by
  ext s
  simp [startSums, eq_comm]

/-- A window at the end of a longer list is empty or a window at the end of the shorter one with
the last weight added. -/
theorem endSums_concat (ws : List ℤ) (w : ℤ) :
    endSums (ws ++ [w]) = insert 0 ((· + w) '' endSums ws) := by
  ext s
  constructor
  · rintro ⟨window, hwindow, rfl⟩
    rcases List.suffix_concat_iff.mp hwindow with rfl | ⟨front, rfl, hfront⟩
    · exact Or.inl rfl
    · -- The window ends with `w`, and the rest of it is a window at the end of `ws`.
      exact Or.inr ⟨front.sum, ⟨front, hfront, rfl⟩, by simp⟩
  · rintro (rfl | ⟨_, ⟨front, hfront, rfl⟩, rfl⟩)
    · exact ⟨[], List.nil_suffix, rfl⟩
    · exact ⟨front ++ [w], List.suffix_concat_iff.mpr (Or.inr ⟨front, rfl, hfront⟩), by simp⟩

theorem startSums_cons (w : ℤ) (ws : List ℤ) :
    startSums (w :: ws) = insert 0 ((w + ·) '' startSums ws) := by
  ext s
  constructor
  · rintro ⟨window, hwindow, rfl⟩
    rcases List.prefix_cons_iff.mp hwindow with rfl | ⟨back, rfl, hback⟩
    · exact Or.inl rfl
    · exact Or.inr ⟨back.sum, ⟨back, hback, rfl⟩, by simp⟩
  · rintro (rfl | ⟨_, ⟨back, hback, rfl⟩, rfl⟩)
    · exact ⟨[], List.nil_prefix, rfl⟩
    · exact ⟨w :: back, List.prefix_cons_iff.mpr (Or.inr ⟨back, rfl, hback⟩), by simp⟩

/-- A window of a longer list ends with the list or is a window of the shorter one. -/
theorem windowSums_concat (ws : List ℤ) (w : ℤ) :
    windowSums (ws ++ [w]) = endSums (ws ++ [w]) ∪ windowSums ws := by
  ext s
  constructor
  · rintro ⟨window, hwindow, hs⟩
    rcases List.infix_concat_iff.mp hwindow with h | h
    · exact Or.inl ⟨window, h, hs⟩
    · exact Or.inr ⟨window, h, hs⟩
  · rintro (h | ⟨window, h, hs⟩)
    · exact endSums_subset_windowSums _ h
    · exact ⟨window, List.infix_append_of_infix_left h, hs⟩

/-- A window of a joined list lies in one of the two lists or reaches across the joint. -/
theorem windowSums_append (us vs : List ℤ) :
    windowSums (us ++ vs) =
      windowSums us ∪ windowSums vs ∪ Set.image2 (· + ·) (endSums us) (startSums vs) := by
  ext s
  constructor
  · rintro ⟨window, hwindow, rfl⟩
    rcases List.infix_append_iff.mp hwindow with h | h | ⟨front, back, rfl, hfront, hback⟩
    · exact Or.inl (Or.inl ⟨window, h, rfl⟩)
    · exact Or.inl (Or.inr ⟨window, h, rfl⟩)
    · -- Across the joint: a window at the end of `us` and one at the start of `vs`.
      exact Or.inr ⟨front.sum, ⟨front, hfront, rfl⟩, back.sum, ⟨back, hback, rfl⟩,
        List.sum_append.symm⟩
  · rintro ((⟨window, h, rfl⟩ | ⟨window, h, rfl⟩) |
      ⟨_, ⟨front, hfront, rfl⟩, _, ⟨back, hback, rfl⟩, rfl⟩)
    · exact ⟨window, List.infix_append_of_infix_left h, rfl⟩
    · exact ⟨window, List.infix_append_of_infix_right h, rfl⟩
    · exact ⟨front ++ back, List.infix_append_iff.mpr (Or.inr (Or.inr ⟨front, back, rfl, hfront,
        hback⟩)), List.sum_append⟩

/-- The largest sum over a window at the start of a list. -/
def peak : List ℤ → ℤ
  | [] => 0
  | w :: ws => max 0 (w + peak ws)

theorem isGreatest_peak (ws : List ℤ) : IsGreatest (startSums ws) (peak ws) := by
  induction ws with
  | nil =>
    rw [startSums_nil]
    exact isGreatest_singleton
  | cons w ws ih =>
    have hadd : Monotone (w + ·) := fun _ _ h => Int.add_le_add_left h w
    have hshifted := Monotone.map_isGreatest hadd ih
    rw [startSums_cons]
    exact hshifted.insert 0

/-! ### The two counts -/

namespace Nesting

variable {n : Nesting} {ws : List ℤ}

/-- The counts are the largest sums over windows of the weights: the open loops over windows at the
end, the deepest nesting over all windows. -/
structure Measures (n : Nesting) (ws : List ℤ) : Prop where
  depth : IsGreatest (endSums ws) (n.depth : ℤ)
  deepest : IsGreatest (windowSums ws) (n.deepest : ℤ)

theorem Measures.depth_le_deepest (h : n.Measures ws) : n.depth ≤ n.deepest :=
  Int.ofNat_le.mp (h.deepest.2 (endSums_subset_windowSums ws h.depth.1))

/-- The number of open loops follows the weights and stops at zero. -/
theorem depth_step (n : Nesting) (e : LoopEffect) :
    ((n.step e).depth : ℤ) = max 0 (n.depth + e.weight) := by
  cases e <;> simp only [step, LoopEffect.weight] <;> omega

theorem deepest_step (hn : n.depth ≤ n.deepest) (e : LoopEffect) :
    (n.step e).deepest = max (n.step e).depth n.deepest := by
  cases e <;> simp only [step] <;> omega

/-- One more line deepens the nesting by one level at most. -/
theorem deepest_step_eq_or (hn : n.depth ≤ n.deepest) (e : LoopEffect) :
    (n.step e).deepest = n.deepest ∨ (n.step e).deepest = n.deepest + 1 := by
  cases e with
  | opens =>
    simp only [step]
    omega
  | closes => exact Or.inl rfl
  | neutral => exact Or.inl rfl

/-- One more line: the window sums at the end shift by its weight, and the windows that are new
all end at it. -/
theorem Measures.step (h : n.Measures ws) (e : LoopEffect) :
    (n.step e).Measures (ws ++ [e.weight]) := by
  have hdepth : IsGreatest (endSums (ws ++ [e.weight])) ((n.step e).depth : ℤ) := by
    have hadd : Monotone (· + e.weight) := fun _ _ hle => Int.add_le_add_right hle e.weight
    have hshifted := Monotone.map_isGreatest hadd h.depth
    rw [endSums_concat, depth_step]
    -- The empty window stops the number at zero.
    exact hshifted.insert 0
  refine ⟨hdepth, ?_⟩
  rw [windowSums_concat, deepest_step h.depth_le_deepest, Nat.cast_max]
  exact hdepth.union h.deepest

/-- After any sequence of lines the counts are the largest window sums. -/
theorem measures_ofEffects (es : List LoopEffect) :
    (ofEffects es).Measures (es.map LoopEffect.weight) := by
  -- One line at a time from the front: the last line of `es` is the step.
  induction es using List.reverseRecOn with
  | nil =>
    refine ⟨?_, ?_⟩ <;> simp [isGreatest_singleton]
  | append_singleton es e ih =>
    rw [ofEffects_concat, List.map_append, List.map_singleton]
    exact ih.step e

/-- The deepest nesting of two sequences one behind the other is reached in the first, in the
second, or at the peak of the second on top of the loops that the first leaves open. -/
theorem deepest_append (es fs : List LoopEffect) :
    ((ofEffects (es ++ fs)).deepest : ℤ) =
      max (max ((ofEffects es).deepest : ℤ) (ofEffects fs).deepest)
        ((ofEffects es).depth + peak (fs.map LoopEffect.weight)) := by
  have hjoined := (measures_ofEffects (es ++ fs)).deepest
  rw [List.map_append, windowSums_append] at hjoined
  have hes := measures_ofEffects es
  have hfs := measures_ofEffects fs
  refine hjoined.unique ((hes.deepest.union hfs.deepest).union ?_)
  -- Across the joint the largest sum is the sum of the largest on either side.
  have hleft : ∀ x : ℤ, Monotone (x + ·) := fun x _ _ h => Int.add_le_add_left h x
  have hright : ∀ y : ℤ, Monotone (· + y) := fun y _ _ h => Int.add_le_add_right h y
  exact IsGreatest.image2 (f := fun x y : ℤ => x + y) hright hleft hes.depth (isGreatest_peak _)

end Nesting

/-! ### The lines of a text -/

namespace Signals

/-- The weights of the lines of a text. -/
def weights (code : Text) : List ℤ := (normalLines code).map Line.weight

/-- The counts after the first `k` lines of a text. -/
def nestingAfter (code : Text) (k : ℕ) : Nesting :=
  Nesting.ofEffects (((normalLines code).map Line.loopEffect).take k)

/-- The counts after all lines are the counts of the text. -/
theorem nestingAfter_length (code : Text) :
    nestingAfter code (lines code).length = nesting code := by
  rw [nestingAfter, nesting, List.take_of_length_le (by simp [normalLines])]

theorem weights_eq_map (code : Text) :
    weights code = ((normalLines code).map Line.loopEffect).map LoopEffect.weight := by
  rw [weights, List.map_map]
  exact List.map_congr_left fun line _ => (Line.weight_loopEffect line).symm

theorem measures_nestingAfter (code : Text) (k : ℕ) :
    (nestingAfter code k).Measures ((weights code).take k) := by
  rw [weights_eq_map, ← List.map_take]
  exact Nesting.measures_ofEffects _

theorem measures_nesting (code : Text) : (nesting code).Measures (weights code) := by
  have h := measures_nestingAfter code (lines code).length
  have hall : (weights code).length ≤ (lines code).length := by simp [weights, normalLines]
  rwa [nestingAfter_length, List.take_of_length_le hall] at h

/-- One more line is one more step. -/
theorem nestingAfter_succ {code line : Text} {k : ℕ} (h : (normalLines code)[k]? = some line) :
    nestingAfter code (k + 1) = (nestingAfter code k).step (Line.loopEffect line) := by
  rw [nestingAfter, List.take_add_one, List.getElem?_map, h, Option.map_some, Option.toList_some,
    Nesting.ofEffects_concat, nestingAfter]

/-- Behind the last line nothing changes any more. -/
theorem nestingAfter_succ_of_none {code : Text} {k : ℕ} (h : (normalLines code)[k]? = none) :
    nestingAfter code (k + 1) = nestingAfter code k := by
  rw [nestingAfter, List.take_add_one, List.getElem?_map, h, Option.map_none, Option.toList_none,
    List.append_nil, nestingAfter]

/-- The largest number of open loops so far never goes down again. -/
theorem deepest_nestingAfter_le (code : Text) (k : ℕ) :
    (nestingAfter code k).deepest ≤ (nestingAfter code (k + 1)).deepest := by
  cases h : (normalLines code)[k]? with
  | none => rw [nestingAfter_succ_of_none h]
  | some line =>
    rw [nestingAfter_succ h, Nesting.deepest_step (measures_nestingAfter code k).depth_le_deepest]
    exact le_max_right _ _

/-- The deepest nesting of a text is the largest weight over the windows of its lines, and after
every line the number of open loops is the largest weight over the windows that end there. The
deepest nesting never goes down, and a line that opens a loop does so even if it closes a block. -/
theorem maxNestedLoops_isGreatest_windowSums (code : Text) :
    IsGreatest (windowSums (weights code)) ((ofText code).maxNestedLoops : ℤ) ∧
      (∀ k, IsGreatest (endSums ((weights code).take k)) ((nestingAfter code k).depth : ℤ)) ∧
      (∀ k, (nestingAfter code k).deepest ≤ (nestingAfter code (k + 1)).deepest) ∧
      ∀ k line, (normalLines code)[k]? = some line → Line.opensLoop line = true →
        (nestingAfter code (k + 1)).depth = (nestingAfter code k).depth + 1 := by
  refine ⟨(measures_nesting code).deepest, fun k => (measures_nestingAfter code k).depth,
    deepest_nestingAfter_le code, ?_⟩
  intro k line hline hopens
  have heffect : Line.loopEffect line = .opens := if_pos hopens
  rw [nestingAfter_succ hline, heffect, Nesting.step]

/-- A line with a loop keyword and a block end behind a line that closes too much. -/
theorem nesting_for_end_after_closing :
    Line.opensLoop "for x: end".toList = true ∧ Line.closesBlock "for x: end".toList = true ∧
      (nestingAfter "\x7d\nfor x: end".toList 2).depth =
        (nestingAfter "\x7d\nfor x: end".toList 1).depth + 1 :=
  ⟨by decide, by decide,
    (maxNestedLoops_isGreatest_windowSums "\x7d\nfor x: end".toList).2.2.2 1 "for x: end".toList
      (by decide) (by decide)⟩

end Signals

end ComplexityGauge
