import ComplexityGauge.Proofs.Recursion

/-!
# Layout

The signals of a text hang on its trimmed lines only, because loops, definitions and data
structures are looked for in trimmed lines and calls hold no blanks. A line that shows nothing at
all may be left out of the trimmed lines, and an empty line is such a line. Blanks at the ends of a
text, line feeds among them, only add empty lines and widen the first and the last line, so trimming
a text leaves its signals as they are.

## Main definitions

* `Signals.trimmedLines`, `Signals.ofTrimmedLines` — the trimmed lines of a text, and the signals
  that they give
* `Line.Silent` — a line that shows nothing
* `Signals.solidLines` — the trimmed lines that are not empty

## Main results

* `Signals.ofText_eq_ofTrimmedLines` — signals hang on the trimmed lines only
* `Signals.ofTrimmedLines_filter` — silent lines may be left out
* `Signals.ofText_trim` — trimming a text changes none of its signals
-/

namespace ComplexityGauge

open Text

/-- A trimmed line that shows nothing: no loop pattern, no kind of data structure, no definition,
and nothing that a call could end with. -/
structure Line.Silent (line : Text) : Prop where
  loopEffect : Line.loopEffect (lower line) = .neutral
  dataStructures : Line.dataStructures (lower line) = []
  definesFunction : Line.definesFunction (lower line) = false
  notMem : '(' ∉ line

theorem Line.silent_nil : Line.Silent [] := ⟨rfl, rfl, rfl, List.not_mem_nil⟩

/-- Lines without a loop pattern may be left out of the count of open loops. -/
theorem Nesting.foldl_step_filter {α : Type} {effect : α → LoopEffect} {keep : α → Bool}
    {xs : List α} (h : ∀ x ∈ xs, keep x = false → effect x = .neutral) (n : Nesting) :
    ((xs.filter keep).map effect).foldl Nesting.step n = (xs.map effect).foldl Nesting.step n := by
  induction xs generalizing n with
  | nil => rfl
  | cons x xs ih =>
    obtain ⟨hx, hxs⟩ := List.forall_mem_cons.mp h
    cases hkeep : keep x with
    | true =>
      rw [List.filter_cons_of_pos hkeep, List.map_cons, List.map_cons, List.foldl_cons,
        List.foldl_cons, ih hxs]
    | false =>
      -- The step of a neutral line leaves the counts as they are.
      rw [List.filter_cons_of_neg (by simp [hkeep]), List.map_cons, List.foldl_cons, hx hkeep,
        ih hxs]
      rfl

/-- Entries that contribute nothing may be left out of a joined list. -/
theorem flatMap_filter_of_eq_nil {α β : Type} {f : α → List β} {keep : α → Bool} {xs : List α}
    (h : ∀ x ∈ xs, keep x = false → f x = []) : (xs.filter keep).flatMap f = xs.flatMap f := by
  induction xs with
  | nil => rfl
  | cons x xs ih =>
    obtain ⟨hx, hxs⟩ := List.forall_mem_cons.mp h
    cases hkeep : keep x with
    | true => rw [List.filter_cons_of_pos hkeep, List.flatMap_cons, List.flatMap_cons, ih hxs]
    | false =>
      rw [List.filter_cons_of_neg (by simp [hkeep]), List.flatMap_cons, hx hkeep, ih hxs,
        List.nil_append]

/-- Entries that fail a test may be left out of a search for one that passes. -/
theorem any_filter_of_eq_false {α : Type} {p keep : α → Bool} {xs : List α}
    (h : ∀ x ∈ xs, keep x = false → p x = false) : (xs.filter keep).any p = xs.any p := by
  rw [List.any_filter, Bool.eq_iff_iff, List.any_eq_true, List.any_eq_true]
  refine exists_congr fun x => and_congr_right fun hx => ?_
  cases hkeep : keep x with
  | true => rw [Bool.true_and]
  | false => rw [h x hx hkeep, Bool.false_and]

namespace Signals

variable {code line : Text} {c : Char} {ls : List Text}

/-! ### Trimmed lines -/

/-- The lines of a text without the blanks at their ends. -/
def trimmedLines (code : Text) : List Text := (lines code).map trim

/-- The signals that trimmed lines give. -/
def ofTrimmedLines (ls : List Text) : Signals where
  maxNestedLoops := (Nesting.ofEffects (ls.map fun l => Line.loopEffect (lower l))).deepest
  hasRecursion := ls.any fun l => ls.any fun m => callsItself m (lower l)
  dataStructures := (ls.flatMap fun l => Line.dataStructures (lower l)).eraseDups

theorem normalLines_eq_map_trimmedLines (code : Text) :
    normalLines code = (trimmedLines code).map lower := by
  rw [normalLines, trimmedLines, List.map_map]
  rfl

/-- A call in a text is a call in one of its trimmed lines. -/
theorem callsItself_eq_any_trimmedLines (code line : Text) :
    callsItself code line = (trimmedLines code).any fun m => callsItself m line := by
  rw [Bool.eq_iff_iff, callsItself_iff_exists_line, trimmedLines, List.any_map, List.any_eq_true]
  simp only [Function.comp_apply, callsItself_trim]

/-- The signals of a text hang on its trimmed lines only. -/
theorem ofText_eq_ofTrimmedLines (code : Text) :
    ofText code = ofTrimmedLines (trimmedLines code) := by
  rw [ofText, ofTrimmedLines, nesting, normalLines_eq_map_trimmedLines, List.map_map,
    List.any_map, List.flatMap_map]
  simp only [Function.comp_def, callsItself_eq_any_trimmedLines code]

/-- No silent line holds a call. -/
theorem callsItself_of_silent (hsilent : Line.Silent code) (line : Text) :
    callsItself code line = false := by
  rw [Bool.eq_false_iff, Ne, callsItself_iff]
  rintro ⟨-, name, -, hcall⟩
  have hmem : '(' ∈ Line.call name := List.mem_append_right name List.mem_cons_self
  exact hsilent.notMem ((occurs_iff.mp hcall).subset hmem)

/-- Silent lines may be left out. -/
theorem ofTrimmedLines_filter {keep : Text → Bool}
    (h : ∀ l ∈ ls, keep l = false → Line.Silent l) :
    ofTrimmedLines (ls.filter keep) = ofTrimmedLines ls := by
  -- The lines are searched twice over, for definitions and for calls; either search skips the
  -- silent ones.
  have hcalled (line : Text) : ((ls.filter keep).any fun m => callsItself m line) =
      ls.any fun m => callsItself m line :=
    any_filter_of_eq_false fun m hm hkeep => callsItself_of_silent (h m hm hkeep) line
  have hcalls : ∀ l ∈ ls, keep l = false →
      (ls.any fun m => callsItself m (lower l)) = false := by
    intro l hl hkeep
    refine List.any_eq_false.mpr fun m _ => ?_
    simp [callsItself, (h l hl hkeep).definesFunction]
  rw [ofTrimmedLines, ofTrimmedLines, Nesting.ofEffects, Nesting.ofEffects,
    Nesting.foldl_step_filter fun l hl hkeep => (h l hl hkeep).loopEffect,
    flatMap_filter_of_eq_nil fun l hl hkeep => (h l hl hkeep).dataStructures]
  simp only [hcalled]
  rw [any_filter_of_eq_false hcalls]

/-! ### Blanks at the ends of a text -/

/-- The trimmed lines of a text that are not empty. -/
def solidLines (code : Text) : List Text := (trimmedLines code).filter fun l => !l.isEmpty

/-- Empty lines are silent, so the signals hang on the other lines. -/
theorem ofText_eq_ofTrimmedLines_solidLines (code : Text) :
    ofText code = ofTrimmedLines (solidLines code) := by
  rw [ofText_eq_ofTrimmedLines, solidLines, ofTrimmedLines_filter]
  intro l _ hl
  obtain rfl : l = [] := by simpa using hl
  exact Line.silent_nil

/-- A blank in front of a text is an empty line or stands in front of the first line. -/
theorem solidLines_cons_blank (hc : isBlank c = true) (t : Text) :
    solidLines (c :: t) = solidLines t := by
  by_cases hnewline : c = '\n'
  · subst hnewline
    rw [solidLines, trimmedLines, lines_cons_newline]
    rfl
  · obtain ⟨first, rest, hfirst, hcons⟩ := exists_lines_cons hnewline t
    rw [solidLines, solidLines, trimmedLines, trimmedLines, hfirst, hcons, List.map_cons,
      List.map_cons, trim_cons_blank hc]

/-- A blank behind a text is an empty line or stands behind the last line. -/
theorem solidLines_concat_blank (hc : isBlank c = true) (t : Text) :
    solidLines (t ++ [c]) = solidLines t := by
  by_cases hnewline : c = '\n'
  · subst hnewline
    rw [solidLines, solidLines, trimmedLines, trimmedLines, lines_append_newline, List.map_append,
      List.filter_append]
    exact List.append_nil _
  · obtain ⟨before, last, hlast, hconcat⟩ := exists_lines_concat hnewline t
    rw [solidLines, solidLines, trimmedLines, trimmedLines, hlast, hconcat, List.map_append,
      List.map_append, List.map_singleton, List.map_singleton, trim_concat_blank hc]

theorem solidLines_trim (code : Text) : solidLines (trim code) = solidLines code :=
  apply_trim (fun _ t hc => solidLines_cons_blank hc t)
    (fun _ t hc => solidLines_concat_blank hc t) code

/-- Trimming a text changes none of its signals. -/
theorem ofText_trim (code : Text) : ofText (trim code) = ofText code := by
  rw [ofText_eq_ofTrimmedLines_solidLines, solidLines_trim, ← ofText_eq_ofTrimmedLines_solidLines]

end Signals

end ComplexityGauge
