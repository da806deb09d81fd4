import ComplexityGauge.Proofs.Lines
import ComplexityGauge.Signals

/-!
# Definitions and calls

A text is taken to be recursive if a line defines a function whose name stands before an opening
parenthesis somewhere in the text. Names hold neither blanks nor line feeds, so the search for such
a call never reaches across a line end and never hangs on the blanks around a line: it is answered
by the lines one at a time.

## Main definitions

* `Line.call` — a name with an opening parenthesis, the word that is searched for
* `Signals.Defines` — some line of a text defines a function of that name

## Main results

* `Line.isNameChar_of_functionName?` — a name is made of name characters
* `Signals.hasRecursion_iff` — recursion as a definition and a call of the same name
* `Signals.hasRecursion_iff_exists_lines` — the same by pairs of lines
-/

namespace ComplexityGauge

open Text

namespace Line

variable {c : Char} {t line name : Text}

/-! ### Names -/

theorem toNat_of_isNameChar (h : isNameChar c = true) :
    (48 ≤ c.toNat ∧ c.toNat ≤ 57) ∨ (97 ≤ c.toNat ∧ c.toNat ≤ 122) ∨
      (65 ≤ c.toNat ∧ c.toNat ≤ 90) ∨ c.toNat = 95 := by
  simp only [isNameChar, isDigit, Bool.or_eq_true, Bool.and_eq_true, decide_eq_true_eq,
    beq_iff_eq] at h
  rcases h with ((h | h) | h) | rfl
  · exact Or.inl h
  · exact Or.inr (Or.inl h)
  · exact Or.inr (Or.inr (Or.inl h))
  · exact Or.inr (Or.inr (Or.inr rfl))

theorem isBlank_eq_false_of_isNameChar (h : isNameChar c = true) : isBlank c = false := by
  -- No blank has a code in the ranges of the digits and letters, and none is the underscore.
  have hc := toNat_of_isNameChar h
  simp only [isBlank, Bool.or_eq_false_iff, Bool.and_eq_false_iff, beq_eq_false_iff_ne,
    decide_eq_false_iff_not]
  omega

theorem mem_takeWhile_nameAfterBlanks? (h : nameAfterBlanks? t = some name) :
    name ≠ [] ∧ ∀ c ∈ name, isNameChar c = true := by
  unfold nameAfterBlanks? at h
  split at h
  · contradiction
  · contradiction
  · next hname =>
    obtain rfl := Option.some.inj h
    exact ⟨hname, fun c => List.mem_takeWhile_imp⟩

/-- What is found in a text is found at the start of one of its ends. -/
theorem exists_of_firstSuffix? {α : Type} {f : Text → Option α} {x : α}
    (h : firstSuffix? f t = some x) : ∃ rest, rest <:+ t ∧ f rest = some x := by
  induction t with
  | nil => exact ⟨[], List.suffix_rfl, h⟩
  | cons d t ih =>
    rw [firstSuffix?] at h
    split at h
    · next y hy =>
      obtain rfl := Option.some.inj h
      exact ⟨d :: t, List.suffix_rfl, hy⟩
    · obtain ⟨rest, hrest, hx⟩ := ih h
      exact ⟨rest, hrest.trans (List.suffix_cons d t), hx⟩

/-- The name of a function is a text of name characters, and not an empty one. -/
theorem isNameChar_of_functionName? (h : functionName? line = some name) :
    name ≠ [] ∧ ∀ c ∈ name, isNameChar c = true := by
  obtain ⟨rest, -, hrest⟩ := exists_of_firstSuffix? h
  obtain ⟨keyword, -, hkeyword⟩ := List.exists_of_findSome?_eq_some hrest
  obtain ⟨after, -, hafter⟩ := Option.bind_eq_some_iff.mp hkeyword
  exact mem_takeWhile_nameAfterBlanks? hafter

/-! ### Calls -/

/-- The start of a call: a name and an opening parenthesis. -/
def call (name : Text) : Text := name ++ ['(']

theorem isBlank_eq_false_of_mem_call (hname : functionName? line = some name) :
    ∀ c ∈ call name, isBlank c = false := by
  intro c hc
  rcases List.mem_append.mp hc with hc | hc
  · exact isBlank_eq_false_of_isNameChar ((isNameChar_of_functionName? hname).2 c hc)
  · obtain rfl := List.mem_singleton.mp hc
    rfl

theorem newline_notMem_call (hname : functionName? line = some name) : '\n' ∉ call name :=
  fun h => Bool.noConfusion (isBlank_eq_false_of_mem_call hname '\n' h)

end Line

/-! ### Recursion -/

namespace Signals

variable {code line name : Text}

theorem callsItself_iff :
    callsItself code line = true ↔
      Line.definesFunction line = true ∧
        ∃ name, Line.functionName? line = some name ∧ occurs (Line.call name) code = true := by
  rw [callsItself, Bool.and_eq_true]
  refine and_congr_right fun _ => ?_
  cases Line.functionName? line with
  | none => simp
  | some name => simp [Line.call]

/-- A line is searched for a call with or without the blanks at its ends. -/
theorem callsItself_trim (code line : Text) :
    callsItself (trim code) line = callsItself code line := by
  rw [Bool.eq_iff_iff, callsItself_iff, callsItself_iff]
  -- Both sides search for the same name, which depends on `line` only.
  refine and_congr_right fun _ => exists_congr fun name => and_congr_right fun hname => ?_
  exact occurs_trim (Line.isBlank_eq_false_of_mem_call hname) code

/-- A text holds a call exactly if one of its lines does. -/
theorem callsItself_iff_exists_line :
    callsItself code line = true ↔ ∃ m ∈ lines code, callsItself m line = true := by
  simp only [callsItself_iff]
  constructor
  · rintro ⟨hdef, name, hname, hcall⟩
    obtain ⟨m, hm, hcall⟩ := (occurs_iff_exists_line (Line.newline_notMem_call hname)).mp hcall
    exact ⟨m, hm, hdef, name, hname, hcall⟩
  · rintro ⟨m, hm, hdef, name, hname, hcall⟩
    exact ⟨hdef, name, hname,
      (occurs_iff_exists_line (Line.newline_notMem_call hname)).mpr ⟨m, hm, hcall⟩⟩

/-- Some line of the text, in the form in which lines are searched, defines a function of that
name. -/
def Defines (code name : Text) : Prop :=
  ∃ line ∈ normalLines code,
    Line.definesFunction line = true ∧ Line.functionName? line = some name

theorem Defines.newline_notMem_call (h : Defines code name) : '\n' ∉ Line.call name := by
  obtain ⟨line, -, -, hname⟩ := h
  exact Line.newline_notMem_call hname

/-- A text counts as recursive if the name of a function that it defines starts a call in it. -/
theorem hasRecursion_iff :
    (ofText code).hasRecursion = true ↔
      ∃ name, Defines code name ∧ occurs (Line.call name) code = true := by
  rw [ofText, List.any_eq_true]
  simp only [callsItself_iff]
  constructor
  · rintro ⟨line, hline, hdef, name, hname, hcall⟩
    exact ⟨name, ⟨line, hline, hdef, hname⟩, hcall⟩
  · rintro ⟨name, ⟨line, hline, hdef, hname⟩, hcall⟩
    exact ⟨line, hline, hdef, name, hname, hcall⟩

/-- The same by pairs of lines: one that defines the function and one that calls it. -/
theorem hasRecursion_iff_exists_lines :
    (ofText code).hasRecursion = true ↔
      ∃ l ∈ lines code, ∃ m ∈ lines code, callsItself m (normalize l) = true := by
  rw [ofText, List.any_eq_true]
  constructor
  · rintro ⟨_, hline, hcalls⟩
    obtain ⟨l, hl, rfl⟩ := List.mem_map.mp hline
    exact ⟨l, hl, callsItself_iff_exists_line.mp hcalls⟩
  · rintro ⟨l, hl, hcalls⟩
    exact ⟨normalize l, List.mem_map_of_mem hl, callsItself_iff_exists_line.mpr hcalls⟩

end Signals

end ComplexityGauge
