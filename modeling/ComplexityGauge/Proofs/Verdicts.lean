import ComplexityGauge.Proofs.ReportLines
import ComplexityGauge.Verdict

/-!
# What a verdict says

The decision tables read backwards: which signals lead to a class, and which class a label or a
sentence stands for.

## Main definitions

* `TimeClass.cubicSentence` — the sentence that explains cubic time

## Main results

* `TimeClass.label_eq_exponential_iff` — the exponential label stands for recursion
* `TimeClass.label_ofDepth` — the labels by the depth of the nesting
* `TimeClass.label_eq_constant_iff` — the lowest label stands for no loop and no recursion
* `TimeClass.eq_of_explanation` — the number in a sentence on cubic time is the depth of the nesting
* `SpaceClass.label_eq_linear_iff` — the linear label stands for any data structure
-/

namespace ComplexityGauge

namespace TimeClass

variable {s : Signals} {n : Nat}

theorem ofDepth_eq_cubic_iff : ofDepth n = cubic ↔ 3 ≤ n := by
  match n with
  | 0 | 1 | 2 => decide
  | n + 3 => simp [ofDepth]

theorem ofDepth_ne_exponential (n : Nat) : ofDepth n ≠ exponential := by
  match n with
  | 0 | 1 | 2 => decide
  | n + 3 =>
    intro h
    exact TimeClass.noConfusion h

theorem ofSignals_eq_exponential_iff : ofSignals s = exponential ↔ s.hasRecursion = true := by
  rw [ofSignals]
  cases s.hasRecursion with
  | true => simp
  | false => simp [ofDepth_ne_exponential]

theorem ofSignals_eq_cubic_iff :
    ofSignals s = cubic ↔ s.hasRecursion = false ∧ 3 ≤ s.maxNestedLoops := by
  rw [ofSignals]
  cases s.hasRecursion with
  | true => simp
  | false => simp [ofDepth_eq_cubic_iff]

theorem label_eq_exponential_iff :
    (ofSignals s).label = "O(2^n)".toList ↔ s.hasRecursion = true := by
  rw [← ofSignals_eq_exponential_iff]
  cases ofSignals s <;> decide

/-- The label for a depth of nesting, three levels and more being alike. -/
theorem label_ofDepth (n : Nat) : (ofDepth n).label =
    if n = 0 then "O(1)".toList
    else if n = 1 then "O(n)".toList
    else if n = 2 then "O(n²)".toList
    else "O(n³)".toList := by
  match n with
  | 0 | 1 | 2 => rfl
  | n + 3 => rfl

/-- The lowest label stands for neither recursion nor a loop. -/
theorem label_eq_constant_iff :
    (ofSignals s).label = "O(1)".toList ↔ s.hasRecursion = false ∧ s.maxNestedLoops = 0 := by
  rw [ofSignals]
  cases s.hasRecursion with
  | true =>
    rw [if_pos rfl]
    exact iff_of_false (by decide) fun h => Bool.noConfusion h.1
  | false =>
    rw [if_neg Bool.false_ne_true, label_ofDepth]
    refine Iff.trans ?_ (and_iff_right rfl).symm
    -- The label of every other depth differs from that of no loop.
    split_ifs with hzero hone htwo
    · exact iff_of_true rfl hzero
    · exact iff_of_false (by decide) hzero
    · exact iff_of_false (by decide) hzero
    · exact iff_of_false (by decide) hzero

/-- The sentence on cubic time, with a number. -/
def cubicSentence (n : Nat) : Text :=
  "Cubic time - ".toList ++ Text.ofNat n ++ " nested loops detected.".toList

theorem third_cubicSentence (n : Nat) : (cubicSentence n)[2]? = some 'b' := rfl

theorem cubicSentence_injective : Function.Injective cubicSentence := by
  intro n m h
  have hnumber := List.append_cancel_left (List.append_cancel_right h)
  exact Text.ofNat_injective hnumber

/-- Only cubic time is explained by a sentence on cubic time, and the number in it is the depth of
the nesting. -/
theorem eq_of_explanation (h : explanation s = cubicSentence n) :
    3 ≤ s.maxNestedLoops ∧ s.maxNestedLoops = n := by
  have hthird : (explanation s)[2]? = some 'b' := by rw [h, third_cubicSentence]
  unfold explanation at h hthird
  -- The sentences on the other classes have another third character.
  cases hclass : ofSignals s with
  | cubic =>
    rw [hclass] at h
    exact ⟨(ofSignals_eq_cubic_iff.mp hclass).2, cubicSentence_injective h⟩
  | exponential => simp [hclass] at hthird
  | quadratic => simp [hclass] at hthird
  | linear => simp [hclass] at hthird
  | constant => simp [hclass] at hthird

end TimeClass

theorem SpaceClass.label_eq_linear_iff {s : Signals} :
    (ofSignals s).label = "O(n)".toList ↔ s.dataStructures ≠ [] := by
  rw [ofSignals]
  cases hkind : deciding? s with
  | none =>
    -- No kind is mentioned, and there is no other kind.
    have hnone := List.find?_eq_none.mp hkind
    have hnil : s.dataStructures = [] := by
      rw [List.eq_nil_iff_forall_not_mem]
      intro kind hmem
      have hall : kind ∈ [DataStructure.tree, .hash, .array] := by cases kind <;> decide
      exact hnone kind hall (decide_eq_true hmem)
    simp [hnil, label]
  | some kind =>
    have hmem : kind ∈ s.dataStructures := by simpa using List.find?_some hkind
    simp [List.ne_nil_of_mem hmem, label]

theorem TimeClass.newline_notMem_label (c : TimeClass) : '\n' ∉ c.label := by
  cases c <;> decide

theorem SpaceClass.newline_notMem_label (c : SpaceClass) : '\n' ∉ c.label := by
  cases c <;> decide

end ComplexityGauge
