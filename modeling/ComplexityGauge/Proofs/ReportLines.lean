import ComplexityGauge.Proofs.Lines
import ComplexityGauge.Report
import Mathlib.Logic.Function.Basic

/-!
# What can be read off a report

A report is made of lines, and each signal shows in a line of its own or in none. The third
character of such a line tells which signal it is about, the number in it ends at a blank, and the
names in it end at commas. So a report determines its signals, however deep the nesting is and
however often a kind of data structure is listed.

## Main definitions

* `Report.loopsLine`, `Report.recursionLine`, `Report.structuresLine` — the bullets without the line
  feeds behind them
* `Signals.bulletLines` — the bullets of a report, in their order

## Main results

* `Signals.lines_report` — the lines of a report
* `Signals.loopsLine_mem_iff`, `Signals.recursionLine_mem_iff`, `Signals.structuresLine_mem_iff` —
  what it means that a line stands in a report
* `Signals.report_injective` — different signals have different reports
-/

namespace ComplexityGauge

open Text

/-! ### Numbers and names -/

theorem Text.ofNat_injective : Function.Injective Text.ofNat := by
  intro n m h
  calc
    n = Nat.ofDigitChars 10 (Text.ofNat n) 0 := Nat.ofDigitChars_ten_toDigits.symm
    _ = Nat.ofDigitChars 10 (Text.ofNat m) 0 := by rw [h]
    _ = m := Nat.ofDigitChars_ten_toDigits

/-- Where a character ends two texts, texts that are equal behind them are equal before them. -/
theorem Text.eq_and_eq_of_append_cons {c : Char} {a b x y : Text} (ha : c ∉ a) (hb : c ∉ b)
    (h : a ++ c :: x = b ++ c :: y) : a = b ∧ x = y := by
  induction a generalizing b with
  | nil =>
    cases b with
    | nil => exact ⟨rfl, (List.cons.inj h).2⟩
    | cons d b => exact absurd ((List.cons.inj h).1 ▸ List.mem_cons_self) hb
  | cons d a ih =>
    obtain ⟨hd, ha⟩ := not_or.mp (mt List.mem_cons.mpr ha)
    cases b with
    | nil => exact absurd (List.cons.inj h).1.symm hd
    | cons e b =>
      obtain ⟨-, hbtail⟩ := not_or.mp (mt List.mem_cons.mpr hb)
      obtain ⟨rfl, htail⟩ := List.cons.inj h
      obtain ⟨htext, hrest⟩ := ih ha hbtail htail
      exact ⟨congrArg _ htext, hrest⟩

theorem Text.notMem_ofNat {c : Char} (hc : c.isDigit = false) (n : Nat) : c ∉ Text.ofNat n := by
  intro hmem
  have hdigit := Nat.isDigit_of_mem_toDigits (by decide) (by decide) hmem
  exact Bool.false_ne_true (hc.symm.trans hdigit)

namespace DataStructure

theorem name_injective : Function.Injective name := by
  intro k l h
  cases k <;> cases l <;> first | rfl | exact absurd h (by decide)

theorem notMem_name {c : Char} (hc : c.isAlpha = false) (k : DataStructure) : c ∉ k.name := by
  have hname : k.name.all Char.isAlpha = true := by cases k <;> decide
  exact fun hmem => Bool.false_ne_true (hc.symm.trans (List.all_eq_true.mp hname c hmem))

/-- The names of kinds, separated by commas. -/
def joinedNames (kinds : List DataStructure) : Text := ", ".toList.intercalate (kinds.map name)

theorem joinedNames_singleton (k : DataStructure) : joinedNames [k] = k.name :=
  List.intercalate_singleton

theorem joinedNames_cons_cons (k l : DataStructure) (kinds : List DataStructure) :
    joinedNames (k :: l :: kinds) = k.name ++ ',' :: ' ' :: joinedNames (l :: kinds) := by
  rw [joinedNames, List.map_cons, List.map_cons, List.intercalate_cons_cons, List.append_assoc]
  rfl

theorem joinedNames_ne_nil (k : DataStructure) (kinds : List DataStructure) :
    joinedNames (k :: kinds) ≠ [] := by
  have hname : k.name ≠ [] := by cases k <;> decide
  cases kinds with
  | nil => rwa [joinedNames_singleton]
  | cons l kinds =>
    rw [joinedNames_cons_cons]
    exact List.append_ne_nil_of_left_ne_nil hname _

/-- Names hold no commas, so the kinds can be read off the joined names. -/
theorem joinedNames_injective : Function.Injective joinedNames := by
  have hcomma : ∀ k : DataStructure, ',' ∉ k.name := notMem_name (by decide)
  intro ks ls h
  induction ks generalizing ls with
  | nil =>
    cases ls with
    | nil => rfl
    | cons l ls => exact absurd h.symm (joinedNames_ne_nil l ls)
  | cons k ks ih =>
    cases ls with
    | nil => exact absurd h (joinedNames_ne_nil k ks)
    | cons l ls =>
      cases ks with
      | nil =>
        cases ls with
        | nil =>
          rw [joinedNames_singleton, joinedNames_singleton] at h
          rw [name_injective h]
        | cons m ls =>
          rw [joinedNames_singleton, joinedNames_cons_cons] at h
          exact absurd (h ▸ List.mem_append_right _ List.mem_cons_self) (hcomma k)
      | cons k' ks =>
        cases ls with
        | nil =>
          rw [joinedNames_singleton, joinedNames_cons_cons] at h
          exact absurd (h ▸ List.mem_append_right _ List.mem_cons_self) (hcomma l)
        | cons m ls =>
          -- Both names end at the first comma.
          rw [joinedNames_cons_cons, joinedNames_cons_cons] at h
          obtain ⟨hname, hrest⟩ := Text.eq_and_eq_of_append_cons (hcomma k) (hcomma l) h
          rw [name_injective hname, ih (List.cons.inj hrest).2]

end DataStructure

/-! ### The lines of a report -/

namespace Report

/-- The bullet on loops as a line. -/
def loopsLine (levels : Nat) : Text :=
  "• Found ".toList ++ ofNat levels ++ " level".toList ++ (if 1 < levels then ['s'] else []) ++
    " of nested loops".toList

/-- The bullet on recursion as a line. -/
def recursionLine : Text := "• Recursive function calls detected".toList

/-- What the bullet on data structures starts with. -/
def structuresPrefix : Text := "• Data structures used: ".toList

/-- The bullet on data structures as a line. -/
def structuresLine (kinds : List DataStructure) : Text :=
  structuresPrefix ++ DataStructure.joinedNames kinds

variable {l : Text} {kinds : List DataStructure}

/-- The number in the bullet on loops ends at a blank. -/
theorem loopsLine_eq (n : Nat) :
    loopsLine n = "• Found ".toList ++ (ofNat n ++ ' ' ::
      ("level".toList ++ (if 1 < n then ['s'] else []) ++ " of nested loops".toList)) := by
  unfold loopsLine
  simp only [List.append_assoc]
  rfl

theorem loopsLine_injective : Function.Injective loopsLine := by
  intro n m h
  have hblank : ∀ k, ' ' ∉ ofNat k := notMem_ofNat (by decide)
  rw [loopsLine_eq, loopsLine_eq] at h
  have hnumber := List.append_cancel_left h
  exact ofNat_injective (eq_and_eq_of_append_cons (hblank n) (hblank m) hnumber).1

theorem structuresLine_injective : Function.Injective structuresLine :=
  fun _ _ h => DataStructure.joinedNames_injective (List.append_cancel_left h)

/-! The third character of a line tells what the line is about. -/

theorem ne_of_third {a b : Text} {c : Char} (ha : a[2]? = some c) (hb : b[2]? ≠ some c) :
    a ≠ b := by
  rintro rfl
  exact hb ha

theorem third_heading : heading[2]? = some 'a' := rfl

theorem third_note : note[2]? = some 't' := rfl

theorem third_loopsLine (n : Nat) : (loopsLine n)[2]? = some 'F' := rfl

theorem third_recursionLine : recursionLine[2]? = some 'R' := rfl

theorem third_of_structuresPrefix (h : structuresPrefix <+: l) : l[2]? = some 'D' := by
  obtain ⟨names, rfl⟩ := h
  rfl

theorem third_structuresLine (kinds : List DataStructure) :
    (structuresLine kinds)[2]? = some 'D' :=
  third_of_structuresPrefix (List.prefix_append _ _)

theorem newline_notMem_loopsLine (n : Nat) : '\n' ∉ loopsLine n := by
  have hnumber : '\n' ∉ ofNat n := notMem_ofNat (by decide) n
  unfold loopsLine
  simp only [List.mem_append, not_or]
  refine ⟨⟨⟨⟨by decide, hnumber⟩, by decide⟩, ?_⟩, by decide⟩
  split <;> decide

theorem newline_notMem_structuresLine (kinds : List DataStructure) :
    '\n' ∉ structuresLine kinds := by
  have hnames : '\n' ∉ DataStructure.joinedNames kinds := by
    induction kinds with
    | nil => exact List.not_mem_nil
    | cons k kinds ih =>
      have hname : '\n' ∉ k.name := DataStructure.notMem_name (by decide) k
      cases kinds with
      | nil => rwa [DataStructure.joinedNames_singleton]
      | cons l kinds =>
        rw [DataStructure.joinedNames_cons_cons]
        simp [hname, ih]
  rw [structuresLine, List.mem_append, not_or]
  exact ⟨by decide, hnames⟩

/-- A bullet in front of other text is a line of its own. -/
theorem lines_line_append (h : '\n' ∉ l) (rest : Text) :
    lines (l ++ ['\n'] ++ rest) = l :: lines rest := by
  rw [List.append_assoc, List.singleton_append, lines_append_newline, lines_of_newline_notMem h,
    List.singleton_append]

theorem lines_loopsBullet_append (n : Nat) (rest : Text) :
    lines (loopsBullet n ++ rest) = (if n = 0 then [] else [loopsLine n]) ++ lines rest := by
  unfold loopsBullet
  split
  · rfl
  · have hbullet : "• Found ".toList ++ ofNat n ++ " level".toList ++
        (if 1 < n then ['s'] else []) ++ " of nested loops\n".toList = loopsLine n ++ ['\n'] := by
      unfold loopsLine
      rw [List.append_assoc _ " of nested loops".toList]
      rfl
    rw [hbullet, lines_line_append (newline_notMem_loopsLine n), List.singleton_append]

theorem lines_recursionBullet_append (present : Bool) (rest : Text) :
    lines (recursionBullet present ++ rest) =
      (if present then [recursionLine] else []) ++ lines rest := by
  cases present with
  | false => rfl
  | true =>
    have hbullet : recursionBullet true = recursionLine ++ ['\n'] := rfl
    rw [hbullet, lines_line_append (by decide), if_pos rfl, List.singleton_append]

theorem lines_structuresBullet_append (kinds : List DataStructure) (rest : Text) :
    lines (structuresBullet kinds ++ rest) =
      (if kinds = [] then [] else [structuresLine kinds]) ++ lines rest := by
  cases kinds with
  | nil => rfl
  | cons k kinds =>
    have hbullet : structuresBullet (k :: kinds) = structuresLine (k :: kinds) ++ ['\n'] := rfl
    rw [hbullet, lines_line_append (newline_notMem_structuresLine _), if_neg (List.cons_ne_nil _ _),
      List.singleton_append]

end Report

namespace Signals

open Report

variable {s : Signals}

/-- The bullets of a report as lines. -/
def bulletLines (s : Signals) : List Text :=
  (if s.maxNestedLoops = 0 then [] else [loopsLine s.maxNestedLoops]) ++
    (if s.hasRecursion then [recursionLine] else []) ++
    (if s.dataStructures = [] then [] else [structuresLine s.dataStructures])

/-- The lines of a report: the heading, an empty line, the bullets, an empty line and the note. -/
theorem lines_report (s : Signals) :
    lines s.report = heading :: [] :: (s.bulletLines ++ [[], note]) := by
  have hreport : s.report = heading ++ ['\n'] ++ ([] ++ ['\n'] ++ (loopsBullet s.maxNestedLoops ++
      (recursionBullet s.hasRecursion ++ (structuresBullet s.dataStructures ++
        ([] ++ ['\n'] ++ note))))) := by
    unfold report
    simp only [List.append_assoc]
    rfl
  have hheading : '\n' ∉ heading := by decide
  have hempty : '\n' ∉ ([] : Text) := List.not_mem_nil
  have hnote : '\n' ∉ note := by decide
  rw [hreport, lines_line_append hheading, lines_line_append hempty, lines_loopsBullet_append,
    lines_recursionBullet_append, lines_structuresBullet_append, lines_line_append hempty,
    lines_of_newline_notMem hnote, bulletLines, List.append_assoc, List.append_assoc]

/-- A line about a signal stands in a report exactly if it is the bullet on that signal. -/
theorem mem_lines_report_iff {l : Text} {c : Char} (hthird : l[2]? = some c) (ha : c ≠ 'a')
    (ht : c ≠ 't') :
    l ∈ lines s.report ↔
      (s.maxNestedLoops ≠ 0 ∧ l = loopsLine s.maxNestedLoops) ∨
        (s.hasRecursion = true ∧ l = recursionLine) ∨
          s.dataStructures ≠ [] ∧ l = structuresLine s.dataStructures := by
  have hnil : l ≠ [] := ne_of_third hthird (by simp)
  have hheading : l ≠ heading := ne_of_third hthird (by simp [third_heading, ha.symm])
  have hnote : l ≠ note := ne_of_third hthird (by simp [third_note, ht.symm])
  rw [lines_report, bulletLines]
  simp [hnil, hheading, hnote]

theorem loopsLine_mem_iff {n : Nat} :
    loopsLine n ∈ lines s.report ↔ n ≠ 0 ∧ s.maxNestedLoops = n := by
  have hthird := third_loopsLine n
  have hrecursion : loopsLine n ≠ recursionLine :=
    ne_of_third hthird (by simp [third_recursionLine])
  have hstructures : loopsLine n ≠ structuresLine s.dataStructures :=
    ne_of_third hthird (by simp [third_structuresLine])
  rw [mem_lines_report_iff hthird (by decide) (by decide)]
  constructor
  · rintro (⟨hzero, h⟩ | ⟨-, h⟩ | ⟨-, h⟩)
    · obtain rfl := loopsLine_injective h
      exact ⟨hzero, rfl⟩
    · exact absurd h hrecursion
    · exact absurd h hstructures
  · rintro ⟨hzero, rfl⟩
    exact Or.inl ⟨hzero, rfl⟩

theorem recursionLine_mem_iff : recursionLine ∈ lines s.report ↔ s.hasRecursion = true := by
  have hthird := third_recursionLine
  have hloops : recursionLine ≠ loopsLine s.maxNestedLoops :=
    ne_of_third hthird (by simp [third_loopsLine])
  have hstructures : recursionLine ≠ structuresLine s.dataStructures :=
    ne_of_third hthird (by simp [third_structuresLine])
  rw [mem_lines_report_iff hthird (by decide) (by decide)]
  simp [hloops, hstructures]

/-- Of all lines that start like the bullet on data structures, a report has that bullet only. -/
theorem mem_iff_of_structuresPrefix {l : Text} (h : structuresPrefix <+: l) :
    l ∈ lines s.report ↔ s.dataStructures ≠ [] ∧ l = structuresLine s.dataStructures := by
  have hthird := third_of_structuresPrefix h
  have hloops : l ≠ loopsLine s.maxNestedLoops :=
    ne_of_third hthird (by simp [third_loopsLine])
  have hrecursion : l ≠ recursionLine := ne_of_third hthird (by simp [third_recursionLine])
  rw [mem_lines_report_iff hthird (by decide) (by decide)]
  simp [hloops, hrecursion]

theorem structuresLine_mem_iff {kinds : List DataStructure} :
    structuresLine kinds ∈ lines s.report ↔ kinds ≠ [] ∧ s.dataStructures = kinds := by
  have hprefix : structuresPrefix <+: structuresLine kinds := List.prefix_append _ _
  rw [mem_iff_of_structuresPrefix hprefix]
  constructor
  · rintro ⟨hnil, h⟩
    obtain rfl := structuresLine_injective h
    exact ⟨hnil, rfl⟩
  · rintro ⟨hnil, rfl⟩
    exact ⟨hnil, rfl⟩

/-- Different signals have different reports. -/
theorem report_injective : Function.Injective report := by
  intro s t h
  have hloops : ∀ n, (n ≠ 0 ∧ s.maxNestedLoops = n) ↔ (n ≠ 0 ∧ t.maxNestedLoops = n) := by
    intro n
    rw [← loopsLine_mem_iff, h, loopsLine_mem_iff]
  have hstructures : ∀ kinds, (kinds ≠ [] ∧ s.dataStructures = kinds) ↔
      (kinds ≠ [] ∧ t.dataStructures = kinds) := by
    intro kinds
    rw [← structuresLine_mem_iff, h, structuresLine_mem_iff]
  have hmax : s.maxNestedLoops = t.maxNestedLoops := by
    have hs := hloops s.maxNestedLoops
    have ht := hloops t.maxNestedLoops
    omega
  have hrecursion : s.hasRecursion = t.hasRecursion := by
    rw [Bool.eq_iff_iff, ← recursionLine_mem_iff, h, recursionLine_mem_iff]
  have hkinds : s.dataStructures = t.dataStructures := by
    by_cases hs : s.dataStructures = []
    · by_contra hne
      have ht : t.dataStructures ≠ [] := fun hnil => hne (hs.trans hnil.symm)
      exact hne ((hstructures _).mpr ⟨ht, rfl⟩).2
    · exact ((hstructures _).mp ⟨hs, rfl⟩).2.symm
  cases s
  cases t
  simp only at hmax hrecursion hkinds
  rw [hmax, hrecursion, hkinds]

end Signals

end ComplexityGauge
