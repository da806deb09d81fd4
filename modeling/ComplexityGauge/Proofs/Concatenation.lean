import ComplexityGauge.Proofs.Nesting
import ComplexityGauge.Proofs.Recursion
import Mathlib.Data.List.Range

/-!
# Two texts one behind the other

The signals of two texts with a line feed between them, from what is known of either. Each of the
three follows a law of its own: the deepest nesting may be reached across the joint, on top of the
loops that the first text leaves open; the second text adds the kinds of data structure that the
first does not mention; and a definition in either text may be called in the other.

Adding the lines of a text one at a time is the case where the second text is a single line.

## Main definitions

* `Signals.Grows` — how signals may change when a text goes on for another line

## Main results

* `Signals.maxNestedLoops_append_newline`, `Signals.dataStructures_append_newline`,
  `Signals.hasRecursion_append_newline` — the three laws
* `Signals.isChain_ofPrefixes` — signals only ever grow along the lines of a text
-/

namespace ComplexityGauge.Signals

open Text

variable {a b name : Text}

theorem normalLines_append_newline (a b : Text) :
    normalLines (a ++ '\n' :: b) = normalLines a ++ normalLines b := by
  rw [normalLines, lines_append_newline, List.map_append, normalLines, normalLines]

/-! ### Nesting -/

theorem maxNestedLoops_append_newline (a b : Text) :
    ((ofText (a ++ '\n' :: b)).maxNestedLoops : ℤ) =
      max (max ((ofText a).maxNestedLoops : ℤ) (ofText b).maxNestedLoops)
        ((nesting a).depth + peak (weights b)) := by
  simp only [ofText, nesting]
  rw [normalLines_append_newline, List.map_append, Nesting.deepest_append, weights_eq_map]

/-! ### Kinds of data structure -/

/-- Removing repetitions and choosing entries commute. -/
theorem eraseDups_filter {α : Type} [BEq α] [LawfulBEq α] (p : α → Bool) (l : List α) :
    (l.filter p).eraseDups = l.eraseDups.filter p := by
  -- Removing repetitions goes on with a filtered rest, so the induction is on the length.
  induction hn : l.length using Nat.strong_induction_on generalizing l with
  | _ n ih =>
    cases l with
    | nil => rfl
    | cons x l =>
      have hlt : (l.filter fun y => !y == x).length < n :=
        hn ▸ Nat.lt_succ_of_le (List.length_filter_le _ _)
      have hrest := ih _ hlt (l.filter fun y => !y == x) rfl
      rw [List.eraseDups_cons, List.filter_cons, List.filter_cons, ← hrest, List.filter_filter]
      split
      · rw [List.eraseDups_cons, List.filter_filter]
        simp only [Bool.and_comm]
      · next hx =>
        -- The entry `x` is not chosen, so choosing removes its repetitions as well.
        refine congrArg _ (List.filter_congr fun y _ => ?_)
        cases hy : y == x with
        | true => simp [eq_of_beq hy, hx]
        | false => simp

theorem dataStructures_ofText (code : Text) :
    (ofText code).dataStructures =
      ((normalLines code).flatMap Line.dataStructures).eraseDups := rfl

theorem mem_dataStructures_iff {code : Text} {kind : DataStructure} :
    kind ∈ (ofText code).dataStructures ↔
      kind ∈ (normalLines code).flatMap Line.dataStructures :=
  List.mem_eraseDups

/-- The second text adds the kinds that the first does not mention. -/
theorem dataStructures_append_newline (a b : Text) :
    (ofText (a ++ '\n' :: b)).dataStructures =
      (ofText a).dataStructures ++
        (ofText b).dataStructures.filter (· ∉ (ofText a).dataStructures) := by
  rw [dataStructures_ofText, normalLines_append_newline, List.flatMap_append,
    List.eraseDups_append, List.removeAll, eraseDups_filter, ← dataStructures_ofText,
    ← dataStructures_ofText]
  refine congrArg _ (List.filter_congr fun kind _ => ?_)
  rw [List.elem_eq_mem, ← decide_not]
  exact decide_eq_decide.mpr (not_congr mem_dataStructures_iff.symm)

/-! ### Recursion -/

theorem defines_append_newline :
    Defines (a ++ '\n' :: b) name ↔ Defines a name ∨ Defines b name := by
  simp only [Defines, normalLines_append_newline, List.mem_append, or_and_right, exists_or]

theorem hasRecursion_append_newline :
    (ofText (a ++ '\n' :: b)).hasRecursion = true ↔
      ∃ name, (Defines a name ∨ Defines b name) ∧
        (occurs (Line.call name) a = true ∨ occurs (Line.call name) b = true) := by
  rw [hasRecursion_iff]
  refine exists_congr fun name => ?_
  rw [defines_append_newline]
  refine and_congr_right fun hdefines => ?_
  -- A call of a defined name holds no line feed, so it lies in one of the two texts.
  have hcall : '\n' ∉ Line.call name :=
    hdefines.elim Defines.newline_notMem_call Defines.newline_notMem_call
  exact occurs_append_newline hcall

/-- Recursion in either part is recursion in the whole. -/
theorem hasRecursion_append_newline_of_or
    (h : (ofText a).hasRecursion = true ∨ (ofText b).hasRecursion = true) :
    (ofText (a ++ '\n' :: b)).hasRecursion = true := by
  rw [hasRecursion_append_newline]
  rcases h with h | h
  · obtain ⟨name, hdefines, hcall⟩ := hasRecursion_iff.mp h
    exact ⟨name, Or.inl hdefines, Or.inl hcall⟩
  · obtain ⟨name, hdefines, hcall⟩ := hasRecursion_iff.mp h
    exact ⟨name, Or.inr hdefines, Or.inr hcall⟩

/-! ### Line by line -/

/-- How signals change when a text goes on for another line: one more level of nesting at most,
kinds of data structure only behind those already found, and no way back from recursion. -/
structure Grows (s t : Signals) : Prop where
  maxNestedLoops : t.maxNestedLoops = s.maxNestedLoops ∨ t.maxNestedLoops = s.maxNestedLoops + 1
  dataStructures : s.dataStructures <+: t.dataStructures
  hasRecursion : s.hasRecursion = true → t.hasRecursion = true

theorem nesting_append_line (a : Text) (hb : '\n' ∉ b) :
    nesting (a ++ '\n' :: b) = (nesting a).step (Line.loopEffect (normalize b)) := by
  rw [nesting, normalLines_append_newline, normalLines, normalLines, lines_of_newline_notMem hb,
    List.map_append, List.map_singleton, List.map_singleton, Nesting.ofEffects_concat]
  rfl

theorem grows_append_line (a : Text) (hb : '\n' ∉ b) :
    Grows (ofText a) (ofText (a ++ '\n' :: b)) where
  maxNestedLoops := by
    simp only [ofText]
    rw [nesting_append_line a hb]
    exact Nesting.deepest_step_eq_or (measures_nesting a).depth_le_deepest _
  dataStructures := by
    rw [dataStructures_append_newline]
    exact List.prefix_append _ _
  hasRecursion h := hasRecursion_append_newline_of_or (Or.inl h)

/-- Each line of a text makes its signals grow. -/
theorem isChain_ofPrefixes (code : Text) : List.IsChain Grows (ofPrefixes code) := by
  rw [ofPrefixes, List.isChain_map, List.isChain_range]
  intro k hk
  -- The prefix of `k + 2` lines is the prefix of `k + 1` lines with one line behind it.
  have hlt : k + 1 < (lines code).length := by omega
  have hne : (lines code).take (k + 1) ≠ [] := by simp [lines_ne_nil]
  rw [Nat.succ_eq_add_one, List.take_succ_eq_append_getElem hlt, unlines_concat hne]
  exact grows_append_line _ (newline_notMem_of_mem_lines (List.getElem_mem hlt))

/-- The signals of two texts one behind the other. The deepest nesting is that of either text or
lies on top of the loops that the first leaves open; the kinds of data structure of the second are
added in their order; and recursion is a definition in either text with a call in either text. Along
the lines of any text the signals grow line by line. -/
theorem ofText_append_newline (a b code : Text) :
    IsGreatest (startSums (weights b)) (peak (weights b)) ∧
      ((ofText (a ++ '\n' :: b)).maxNestedLoops : ℤ) =
        max (max ((ofText a).maxNestedLoops : ℤ) (ofText b).maxNestedLoops)
          ((nesting a).depth + peak (weights b)) ∧
      (ofText (a ++ '\n' :: b)).dataStructures =
        (ofText a).dataStructures ++
          (ofText b).dataStructures.filter (· ∉ (ofText a).dataStructures) ∧
      ((ofText (a ++ '\n' :: b)).hasRecursion = true ↔
        ∃ name, (Defines a name ∨ Defines b name) ∧
          (occurs (Line.call name) a = true ∨ occurs (Line.call name) b = true)) ∧
      List.IsChain Grows (ofPrefixes code) :=
  ⟨isGreatest_peak _, maxNestedLoops_append_newline a b, dataStructures_append_newline a b,
    hasRecursion_append_newline, isChain_ofPrefixes code⟩

end ComplexityGauge.Signals
