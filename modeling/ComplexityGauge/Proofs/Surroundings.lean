import ComplexityGauge.Analysis
import ComplexityGauge.Proofs.Concatenation
import ComplexityGauge.Proofs.Verdicts

/-!
# Verdicts on parts and wholes

A text that stands among other lines never gets a lower class than on its own. The decision tables
only look at how deep the nesting is, whether there is recursion and whether there are data
structures, and all three can only grow when lines are added, in front of the text or behind it.
Lines in front change the number of open loops at which the text starts, but the deepest nesting is
a maximum over windows of lines, and the windows of the text alone stay among them.

## Main definitions

* `Signals.Within` — signals that other signals exceed or equal in every respect

## Main results

* `Verdict.rank_le_of_within` — the decision tables respect this order
* `Signals.within_append_left`, `Signals.within_append_right` — parts lie within the whole
* `Analysis.rank_le_of_surrounded` — a text among other lines
-/

namespace ComplexityGauge

/-! ### Decision tables -/

/-- The signals `t` show all that `s` shows: at least the same depth of nesting, recursion if there
is any, and the same kinds of data structure, perhaps in another order and with others. -/
structure Signals.Within (s t : Signals) : Prop where
  maxNestedLoops : s.maxNestedLoops ≤ t.maxNestedLoops
  hasRecursion : s.hasRecursion = true → t.hasRecursion = true
  dataStructures : s.dataStructures ⊆ t.dataStructures

variable {s t u : Signals}

theorem Signals.Within.trans (h : s.Within t) (h' : t.Within u) : s.Within u where
  maxNestedLoops := h.maxNestedLoops.trans h'.maxNestedLoops
  hasRecursion := h'.hasRecursion ∘ h.hasRecursion
  dataStructures := List.Subset.trans h.dataStructures h'.dataStructures

namespace TimeClass

/-- Every level of nesting is one rank, up to three. -/
theorem rank_ofDepth (n : ℕ) : (ofDepth n).rank = min n 3 := by
  match n with
  | 0 | 1 | 2 => rfl
  | n + 3 => exact (Nat.min_eq_right (Nat.le_add_left 3 n)).symm

theorem rank_le_exponential (c : TimeClass) : c.rank ≤ exponential.rank := by
  cases c <;> decide

theorem rank_ofSignals_le (h : s.Within t) : (ofSignals s).rank ≤ (ofSignals t).rank := by
  by_cases hrecursion : t.hasRecursion = true
  · -- The table puts recursion above everything else.
    rw [ofSignals_eq_exponential_iff.mpr hrecursion]
    exact rank_le_exponential _
  · have hnone : ¬ s.hasRecursion = true := fun hs => hrecursion (h.hasRecursion hs)
    rw [ofSignals, ofSignals, if_neg hnone, if_neg hrecursion, rank_ofDepth, rank_ofDepth]
    exact min_le_min_right 3 h.maxNestedLoops

end TimeClass

namespace SpaceClass

theorem ofSignals_eq_linear_iff : ofSignals s = linear ↔ s.dataStructures ≠ [] := by
  rw [← label_eq_linear_iff]
  cases ofSignals s <;> decide

theorem rank_ofSignals_le (h : s.Within t) : (ofSignals s).rank ≤ (ofSignals t).rank := by
  cases hs : ofSignals s with
  | constant => exact Nat.zero_le _
  | linear =>
    obtain ⟨kind, hkind⟩ := List.exists_mem_of_ne_nil _ (ofSignals_eq_linear_iff.mp hs)
    have ht : ofSignals t = linear :=
      ofSignals_eq_linear_iff.mpr (List.ne_nil_of_mem (h.dataStructures hkind))
    rw [ht]

end SpaceClass

/-- Signals within other signals have no higher class on either axis. -/
theorem Verdict.rank_le_of_within (h : s.Within t) :
    (ofSignals s).time.rank ≤ (ofSignals t).time.rank ∧
      (ofSignals s).space.rank ≤ (ofSignals t).space.rank :=
  ⟨TimeClass.rank_ofSignals_le h, SpaceClass.rank_ofSignals_le h⟩

/-- Ratings are found by searching labels for the severe ones among them; two classes share each
rating, but for the highest class, which has one of its own. -/
theorem Rating.rank_ofTimeLabel_label (c : TimeClass) :
    (ofTimeLabel c.label).rank = c.rank / 2 := by
  cases c <;> decide

/-! ### Parts of a text -/

namespace Signals

open Text

/-- The first part of a text lies within the whole. -/
theorem within_append_left (a b : Text) : (ofText a).Within (ofText (a ++ '\n' :: b)) where
  maxNestedLoops := by
    rw [← Int.ofNat_le, maxNestedLoops_append_newline]
    exact (le_max_left _ _).trans (le_max_left _ _)
  hasRecursion h := hasRecursion_append_newline_of_or (Or.inl h)
  dataStructures := by
    rw [dataStructures_append_newline]
    exact List.subset_append_left _ _

/-- The second part of a text lies within the whole, whatever loops the first leaves open. -/
theorem within_append_right (a b : Text) : (ofText b).Within (ofText (a ++ '\n' :: b)) where
  maxNestedLoops := by
    rw [← Int.ofNat_le, maxNestedLoops_append_newline]
    exact (le_max_right _ _).trans (le_max_left _ _)
  hasRecursion h := hasRecursion_append_newline_of_or (Or.inr h)
  dataStructures := by
    intro kind hkind
    rw [dataStructures_append_newline, List.mem_append, List.mem_filter, decide_eq_true_eq]
    by_cases hfirst : kind ∈ (ofText a).dataStructures
    · exact Or.inl hfirst
    · exact Or.inr ⟨hkind, hfirst⟩

end Signals

namespace Analysis

variable {a b : Text}

theorem rank_le_of_within (h : (Signals.ofText a).Within (Signals.ofText b)) :
    (ofText a).time.rank ≤ (ofText b).time.rank ∧
      (ofText a).space.rank ≤ (ofText b).space.rank ∧
      (ofText a).timeRating.rank ≤ (ofText b).timeRating.rank := by
  have hrank := Verdict.rank_le_of_within h
  refine ⟨hrank.1, hrank.2, ?_⟩
  rw [timeRating, timeRating, Rating.rank_ofTimeLabel_label, Rating.rank_ofTimeLabel_label]
  exact Nat.div_le_div_right hrank.1

/-- A text among other lines gets no lower class, on either axis, and no better rating than on its
own. The decision tables alone behave in the same way: signals that lie within other signals have
no higher class. -/
theorem rank_le_of_surrounded (a b c : Text) :
    (let part := ofText b
     let whole := ofText (a ++ '\n' :: (b ++ '\n' :: c))
     part.time.rank ≤ whole.time.rank ∧ part.space.rank ≤ whole.space.rank ∧
       part.timeRating.rank ≤ whole.timeRating.rank) ∧
    ∀ s t : Signals, s.Within t →
      (Verdict.ofSignals s).time.rank ≤ (Verdict.ofSignals t).time.rank ∧
        (Verdict.ofSignals s).space.rank ≤ (Verdict.ofSignals t).space.rank := by
  have hwithin : (Signals.ofText b).Within (Signals.ofText (a ++ '\n' :: (b ++ '\n' :: c))) :=
    (Signals.within_append_left b c).trans (Signals.within_append_right a _)
  exact ⟨rank_le_of_within hwithin, fun s t => Verdict.rank_le_of_within⟩

/-- A loop behind a line that leaves another one open: the label of the whole is higher, and so is
that of deeper signals. -/
theorem rank_le_of_surrounded_loop :
    (ofText "for y\n[]".toList).time.rank ≤
        (ofText ("for x".toList ++
          '\n' :: ("for y\n[]".toList ++ '\n' :: "end".toList))).time.rank ∧
      (Verdict.ofSignals ⟨1, false, [.array]⟩).time.rank ≤
        (Verdict.ofSignals ⟨2, false, [.hash, .array]⟩).time.rank := by
  obtain ⟨hpart, hsignals⟩ := rank_le_of_surrounded "for x".toList "for y\n[]".toList "end".toList
  exact ⟨hpart.1, (hsignals ⟨1, false, [.array]⟩ ⟨2, false, [.hash, .array]⟩
    ⟨by decide, by decide, by decide⟩).1⟩

end Analysis

end ComplexityGauge
