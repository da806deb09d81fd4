import ComplexityGauge.Analysis
import ComplexityGauge.Proofs.Concatenation
import ComplexityGauge.Proofs.Verdicts

/-!
# Properly closed loops

Where every loop is closed by a line of its own, the deepest nesting found in a text is the depth to
which the loops really stand in each other. A text of this kind is written out from a forest: a
sequence of loops and other lines, where the body of a loop is a forest again.

The count of open loops starts at zero in a text and at any number inside a body, so the law for a
forest is proved for every count to start from: the lines of the forest leave the count where it was
and reach as far above it as the forest is high.

## Main definitions

* `LineOf` — a line with a given effect on the nesting
* `LoopForest` — loops and other lines one behind the other
* `LoopForest.height`, `LoopForest.lines`, `LoopForest.text` — the depth to which loops stand in
  each other, and the forest written out
* `Signals.ShowsClosedLoops` — what a text shows of closed loops of a given height

## Main results

* `LoopForest.foldl_step_effects` — the lines of a forest from any count of open loops
* `LoopForest.showsClosedLoops` — the height of a forest shows in its text, alone or behind another
-/

namespace ComplexityGauge

open Text

/-- A line with the given effect on the nesting, in the form in which it is searched. -/
structure LineOf (effect : LoopEffect) where
  text : Text
  newline_notMem : '\n' ∉ text
  loopEffect_normalize : Line.loopEffect (normalize text) = effect

/-- A sequence of loops and neutral lines. A loop is a line that opens it, a body that is such a
sequence again, and a line that closes it. -/
inductive LoopForest
  | nil
  | line (first : LineOf .neutral) (rest : LoopForest)
  | loop (opening : LineOf .opens) (body : LoopForest) (closing : LineOf .closes)
      (rest : LoopForest)

namespace LoopForest

/-- The number of loops that stand in each other where they do so most. -/
def height : LoopForest → Nat
  | nil => 0
  | line _ rest => rest.height
  | loop _ body _ rest => max (body.height + 1) rest.height

/-- The lines of a forest, from the first to the last. -/
def lines : LoopForest → List Text
  | nil => []
  | line first rest => first.text :: rest.lines
  | loop opening body closing rest =>
    opening.text :: (body.lines ++ closing.text :: rest.lines)

/-- The forest written out line by line. -/
def text (f : LoopForest) : Text := unlines f.lines

/-- What the lines of a forest do to the nesting. -/
def effects (f : LoopForest) : List LoopEffect :=
  f.lines.map fun line => Line.loopEffect (normalize line)

@[simp] theorem effects_nil : effects nil = [] := rfl

@[simp] theorem effects_line (first : LineOf .neutral) (rest : LoopForest) :
    (line first rest).effects = .neutral :: rest.effects := by
  rw [effects, lines, List.map_cons, first.loopEffect_normalize, effects]

@[simp] theorem effects_loop (opening : LineOf .opens) (body : LoopForest)
    (closing : LineOf .closes) (rest : LoopForest) :
    (loop opening body closing rest).effects =
      .opens :: (body.effects ++ .closes :: rest.effects) := by
  rw [effects, lines, List.map_cons, List.map_append, List.map_cons, opening.loopEffect_normalize,
    closing.loopEffect_normalize, effects, effects]

theorem newline_notMem_of_mem_lines {f : LoopForest} {l : Text} (h : l ∈ f.lines) : '\n' ∉ l := by
  induction f with
  | nil => exact absurd h List.not_mem_nil
  | line first rest ih =>
    rcases List.mem_cons.mp h with rfl | h
    · exact first.newline_notMem
    · exact ih h
  | loop opening body closing rest ihbody ihrest =>
    rcases List.mem_cons.mp h with rfl | h
    · exact opening.newline_notMem
    · rcases List.mem_append.mp h with h | h
      · exact ihbody h
      · rcases List.mem_cons.mp h with rfl | h
        · exact closing.newline_notMem
        · exact ihrest h

/-- From any number of open loops, the lines of a forest come back to that number and reach as far
above it as the forest is high. -/
theorem foldl_step_effects (f : LoopForest) {n : Nesting} (hn : n.depth ≤ n.deepest) :
    f.effects.foldl Nesting.step n = ⟨n.depth, max n.deepest (n.depth + f.height)⟩ := by
  induction f generalizing n with
  | nil =>
    have hdeepest : max n.deepest n.depth = n.deepest := max_eq_left hn
    rw [effects_nil, List.foldl_nil, height, Nat.add_zero, hdeepest]
  | line first rest ih =>
    -- A neutral line leaves the counts as they are.
    rw [effects_line, List.foldl_cons, Nesting.step, ih hn, height]
  | loop opening body closing rest ihbody ihrest =>
    -- The body starts one level deeper, and what follows the loop starts where the loop did.
    have hopen : n.depth + 1 ≤ max n.deepest (n.depth + 1) := le_max_right _ _
    have hclosed : n.depth ≤
        max (max n.deepest (n.depth + 1)) (n.depth + 1 + body.height) := by omega
    rw [effects_loop, List.foldl_cons, List.foldl_append, List.foldl_cons, Nesting.step,
      ihbody hopen, Nesting.step]
    simp only [Nat.add_sub_cancel]
    rw [ihrest hclosed, height]
    simp only [Nesting.mk.injEq, true_and]
    omega

end LoopForest

namespace Signals

variable {code front : Text}

/-- Lines written out are read as they are. No lines at all are read as one empty line, which is
neutral. -/
theorem foldl_step_unlines {ls : List Text} (h : ∀ l ∈ ls, '\n' ∉ l) (n : Nesting) :
    ((normalLines (unlines ls)).map Line.loopEffect).foldl Nesting.step n =
      (ls.map fun l => Line.loopEffect (normalize l)).foldl Nesting.step n := by
  by_cases hls : ls = []
  · subst hls
    rfl
  · rw [normalLines, lines_unlines hls h, List.map_map]
    rfl

/-- Behind another text, the lines of a forest start from the loops that the text leaves open. -/
theorem nesting_append_forest (front : Text) (f : LoopForest) :
    nesting (front ++ '\n' :: f.text) =
      ⟨(nesting front).depth, max (nesting front).deepest ((nesting front).depth + f.height)⟩ := by
  have hlines : ∀ l ∈ f.lines, '\n' ∉ l := fun _ => LoopForest.newline_notMem_of_mem_lines
  have hfront : (nesting front).depth ≤ (nesting front).deepest :=
    (measures_nesting front).depth_le_deepest
  rw [← f.foldl_step_effects hfront, nesting, normalLines_append_newline, List.map_append,
    Nesting.ofEffects, List.foldl_append, LoopForest.text, foldl_step_unlines hlines]
  rfl

theorem nesting_forest (f : LoopForest) : nesting f.text = ⟨0, f.height⟩ := by
  have hlines : ∀ l ∈ f.lines, '\n' ∉ l := fun _ => LoopForest.newline_notMem_of_mem_lines
  have hstart : ({} : Nesting).depth ≤ ({} : Nesting).deepest := Nat.le_refl 0
  have hfold := f.foldl_step_effects hstart
  rw [nesting, Nesting.ofEffects, LoopForest.text, foldl_step_unlines hlines]
  refine hfold.trans ?_
  simp only [Nat.zero_add, Nat.zero_max]

/-- What a text shows of loops that are all closed and of which no more than `height` stand in each
other: that number, no loop left open, and the time label for that number unless the text counts as
recursive. -/
structure ShowsClosedLoops (code : Text) (height : Nat) : Prop where
  maxNestedLoops : (ofText code).maxNestedLoops = height
  depth : (nesting code).depth = 0
  label : (ofText code).hasRecursion = false → (Analysis.ofText code).time.label =
    if height = 0 then "O(1)".toList
    else if height = 1 then "O(n)".toList
    else if height = 2 then "O(n²)".toList
    else "O(n³)".toList

theorem showsClosedLoops_of_nesting {height : Nat} (h : nesting code = ⟨0, height⟩) :
    ShowsClosedLoops code height := by
  have hmax : (ofText code).maxNestedLoops = height := by rw [ofText, h]
  refine ⟨hmax, by rw [h], ?_⟩
  intro hrecursion
  have htime : (Analysis.ofText code).time = TimeClass.ofDepth height := by
    change TimeClass.ofSignals (ofText code) = TimeClass.ofDepth height
    -- Without recursion the depth of the nesting decides.
    rw [TimeClass.ofSignals, hrecursion, hmax]
    rfl
  rw [htime, TimeClass.label_ofDepth]

end Signals

open Signals

/-- The height of a forest of closed loops shows in its text, and also behind a text that leaves no
loop open and in which no more loops stand in each other. -/
theorem LoopForest.showsClosedLoops (f : LoopForest) :
    ShowsClosedLoops f.text f.height ∧
      ∀ front, (nesting front).depth = 0 → (ofText front).maxNestedLoops ≤ f.height →
        ShowsClosedLoops (front ++ '\n' :: f.text) f.height := by
  refine ⟨showsClosedLoops_of_nesting (nesting_forest f), ?_⟩
  intro front hdepth hmax
  have hdeepest : max (nesting front).deepest f.height = f.height := max_eq_right hmax
  refine showsClosedLoops_of_nesting ?_
  rw [nesting_append_forest, hdepth, Nat.zero_add, hdeepest]

/-- A loop over cells in a loop over rows, with a line between the two openings. -/
def LoopForest.rowsAndCells : LoopForest :=
  .loop ⟨"for row \x7b".toList, by decide, by decide⟩
    (.line ⟨"x = 1".toList, by decide, by decide⟩
      (.loop ⟨"while cell do".toList, by decide, by decide⟩ .nil
        ⟨"end".toList, by decide, by decide⟩ .nil))
    ⟨"\x7d".toList, by decide, by decide⟩ .nil

/-- Two loops behind a text with a surplus closing line and a loop of its own. -/
theorem LoopForest.label_rowsAndCells :
    (nesting "end\nfor x\nend".toList).depth = 0 ∧
      (ofText "end\nfor x\nend".toList).maxNestedLoops ≤ rowsAndCells.height ∧
      (ofText ("end\nfor x\nend".toList ++ '\n' :: rowsAndCells.text)).hasRecursion = false ∧
      (Analysis.ofText ("end\nfor x\nend".toList ++ '\n' :: rowsAndCells.text)).time.label =
        "O(n²)".toList := by
  have hdepth : (nesting "end\nfor x\nend".toList).depth = 0 := by decide
  have hmax : (ofText "end\nfor x\nend".toList).maxNestedLoops ≤ rowsAndCells.height := by decide
  have hrecursion :
      (ofText ("end\nfor x\nend".toList ++ '\n' :: rowsAndCells.text)).hasRecursion = false := by
    decide
  exact ⟨hdepth, hmax, hrecursion,
    ((showsClosedLoops rowsAndCells).2 _ hdepth hmax).label hrecursion⟩

end ComplexityGauge
