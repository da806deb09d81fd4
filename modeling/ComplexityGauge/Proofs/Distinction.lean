import ComplexityGauge.Analysis
import ComplexityGauge.Proofs.Verdicts
import Mathlib.Tactic.TFAE

/-!
# What tells results apart

The text for copying holds the whole report behind two labels without line feeds, so it determines
the report, and the report determines the signals. Everything else in a result follows from the
signals. So results are as different as the signals behind them, and the labels and sentences of a
result go with the bullets of its report.

## Main results

* `Analysis.report_eq_of_exportText_eq` — the text for copying determines the report
* `Analysis.report_determines` — signals, report, text for copying and result determine each other
-/

namespace ComplexityGauge

open Text Report

theorem exportText_eq (timeLabel spaceLabel report : Text) :
    exportText timeLabel spaceLabel report = "Time Complexity: ".toList ++ (timeLabel ++ '\n' ::
      ("Space Complexity: ".toList ++ (spaceLabel ++ '\n' :: '\n' :: report))) := by
  unfold exportText summary
  simp only [List.append_assoc]
  rfl

namespace Analysis

/-- The report stands in the text for copying behind the second line feed. -/
theorem report_eq_of_exportText_eq {a b : Analysis} (h : a.exportText = b.exportText) :
    a.report = b.report := by
  unfold exportText at h
  rw [exportText_eq, exportText_eq] at h
  have htime := List.append_cancel_left h
  obtain ⟨-, hspace⟩ := eq_and_eq_of_append_cons a.time.newline_notMem_label
    b.time.newline_notMem_label htime
  obtain ⟨-, hreport⟩ := eq_and_eq_of_append_cons a.space.newline_notMem_label
    b.space.newline_notMem_label (List.append_cancel_left hspace)
  exact (List.cons.inj hreport).2

/-- Different signals have different reports. So of two texts the signals are the same exactly if
the reports are, or the texts for copying, or the whole results. The time label is exponential
exactly if the report has the bullet on recursion, the space label is linear exactly if it has one
on data structures, and a sentence on cubic time has the number of the bullet on loops. -/
theorem report_determines :
    Function.Injective Signals.report ∧
      (∀ a b : Text, [Signals.ofText a = Signals.ofText b,
        (ofText a).report = (ofText b).report,
        (ofText a).exportText = (ofText b).exportText,
        ofText a = ofText b].TFAE) ∧
      ∀ code : Text,
        ((ofText code).time.label = "O(2^n)".toList ↔
          recursionLine ∈ lines (ofText code).report) ∧
        ((ofText code).space.label = "O(n)".toList ↔
          ∃ line ∈ lines (ofText code).report, structuresPrefix <+: line) ∧
        ∀ n, (ofText code).timeExplanation = TimeClass.cubicSentence n →
          ∀ m, loopsLine m ∈ lines (ofText code).report ↔ m = n := by
  refine ⟨Signals.report_injective, ?_, ?_⟩
  · intro a b
    tfae_have 1 → 4 := fun h => by rw [ofText, ofText, h]
    tfae_have 4 → 3 := fun h => by rw [h]
    tfae_have 3 → 2 := report_eq_of_exportText_eq
    tfae_have 2 → 1 := fun h => Signals.report_injective h
    tfae_finish
  · intro code
    refine ⟨?_, ?_, ?_⟩
    · exact TimeClass.label_eq_exponential_iff.trans Signals.recursionLine_mem_iff.symm
    · refine SpaceClass.label_eq_linear_iff.trans ?_
      constructor
      · intro h
        exact ⟨_, Signals.structuresLine_mem_iff.mpr ⟨h, rfl⟩, List.prefix_append _ _⟩
      · rintro ⟨line, hline, hprefix⟩
        exact ((Signals.mem_iff_of_structuresPrefix hprefix).mp hline).1
    · intro n h m
      obtain ⟨hthree, rfl⟩ := TimeClass.eq_of_explanation h
      refine Signals.loopsLine_mem_iff.trans ?_
      omega

/-- Three loops and a list: the number in the sentence on cubic time is the number in the report,
and a text with the same text for copying has the same signals. -/
theorem report_threeLoops :
    (ofText "for\nwhile\nfor list".toList).timeExplanation = TimeClass.cubicSentence 3 ∧
      loopsLine 3 ∈ lines (ofText "for\nwhile\nfor list".toList).report ∧
      (ofText "for\nwhile\nfor list".toList).exportText =
        (ofText "my list\nfor\nfor\nfor".toList).exportText ∧
      Signals.ofText "for\nwhile\nfor list".toList =
        Signals.ofText "my list\nfor\nfor\nfor".toList := by
  have hcubic : (ofText "for\nwhile\nfor list".toList).timeExplanation =
      TimeClass.cubicSentence 3 := by decide
  have hexport : (ofText "for\nwhile\nfor list".toList).exportText =
      (ofText "my list\nfor\nfor\nfor".toList).exportText := by decide +kernel
  exact ⟨hcubic, ((report_determines.2.2 _).2.2 3 hcubic 3).mpr rfl, hexport,
    ((report_determines.2.1 _ _).out 2 0).mp hexport⟩

end Analysis

end ComplexityGauge
