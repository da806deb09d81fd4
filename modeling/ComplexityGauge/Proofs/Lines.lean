import ComplexityGauge.Text.Basic
import Mathlib.Data.List.DropRight

/-!
# Lines, words and blanks

How splitting a text into lines, searching it for a word and trimming it work together. A word
without a line feed stands in a text exactly if it stands in one of its lines, and a word without
blanks stands in a text exactly if it stands in the trimmed text. So a search of a whole text can
be answered line by line, and on trimmed lines.

## Main results

* `lines_append_newline` — the lines of two texts with a line feed between them
* `occurs_iff_exists_line` — a search of a text is a search of its lines
* `occurs_trim` — a search for a word without blanks does not see the ends of a text
* `trim_append_of_allBlank`, `trim_append_allBlank` — trimming forgets blanks at both ends
* `apply_trim` — what does not see a blank at the ends of a text does not see trimming
-/

namespace ComplexityGauge.Text

variable {word t a b : Text} {c : Char}

/-! ### Lines -/

/-- A line feed ends one line and starts another. -/
theorem lines_append_newline (a b : Text) : lines (a ++ '\n' :: b) = lines a ++ lines b :=
  List.splitOn_append_cons_self a b

/-- A line feed in front of a text is an empty line more. -/
theorem lines_cons_newline (t : Text) : lines ('\n' :: t) = [] :: lines t :=
  lines_append_newline [] t

theorem lines_ne_nil (t : Text) : lines t ≠ [] := List.splitOn_ne_nil _ _

@[simp] theorem unlines_lines (t : Text) : unlines (lines t) = t := List.intercalate_splitOn _

theorem lines_unlines {ls : List Text} (hls : ls ≠ []) (h : ∀ l ∈ ls, '\n' ∉ l) :
    lines (unlines ls) = ls :=
  List.splitOn_intercalate _ h hls

/-- A text without a line feed is a single line. -/
theorem lines_of_newline_notMem (h : '\n' ∉ t) : lines t = [t] := List.splitOn_eq_singleton h

theorem unlines_cons_cons (l m : Text) (ls : List Text) :
    unlines (l :: m :: ls) = l ++ '\n' :: unlines (m :: ls) := by
  rw [unlines, List.intercalate_cons_cons, List.append_assoc, List.singleton_append, unlines]

/-- One more line stands behind a line feed. -/
theorem unlines_concat {ls : List Text} (hls : ls ≠ []) (l : Text) :
    unlines (ls ++ [l]) = unlines ls ++ '\n' :: l := by
  induction ls with
  | nil => exact absurd rfl hls
  | cons k ls ih =>
    cases ls with
    | nil => simp [unlines]
    | cons m ls =>
      have ih := ih (List.cons_ne_nil m ls)
      rw [List.cons_append, List.cons_append, unlines_cons_cons, ← List.cons_append, ih,
        unlines_cons_cons, List.append_assoc, List.cons_append]

/-- A character other than the line feed joins the first line of the text behind it. -/
theorem exists_lines_cons (hc : c ≠ '\n') (t : Text) :
    ∃ first rest, lines t = first :: rest ∧ lines (c :: t) = (c :: first) :: rest := by
  obtain ⟨first, rest, h⟩ := List.exists_cons_of_ne_nil (lines_ne_nil t)
  refine ⟨first, rest, h, ?_⟩
  rw [lines, List.splitOn_cons_eq_if_modifyHead, if_neg (by simpa using hc), ← lines, h]
  rfl

/-- Splitting a text at a character leaves it in none of the pieces. -/
theorem notMem_of_mem_splitOn {t piece : Text} (h : piece ∈ t.splitOn c) : c ∉ piece := by
  induction t generalizing piece with
  | nil =>
    obtain rfl := List.mem_singleton.mp h
    exact List.not_mem_nil
  | cons d t ih =>
    rw [List.splitOn_cons_eq_if_modifyHead] at h
    split_ifs at h with hd
    · rcases List.mem_cons.mp h with rfl | h
      · exact List.not_mem_nil
      · exact ih h
    · obtain ⟨first, rest, hfirst⟩ := List.exists_cons_of_ne_nil (List.splitOn_ne_nil c t)
      rw [hfirst, List.modifyHead_cons] at h
      rw [hfirst] at ih
      rcases List.mem_cons.mp h with rfl | h
      · -- The piece is the first piece of `t` with `d` in front.
        intro hmem
        rcases List.mem_cons.mp hmem with rfl | hmem
        · exact hd BEq.rfl
        · exact ih List.mem_cons_self hmem
      · exact ih (List.mem_cons_of_mem first h)

/-- No line holds a line feed. -/
theorem newline_notMem_of_mem_lines {t l : Text} (h : l ∈ lines t) : '\n' ∉ l :=
  notMem_of_mem_splitOn h

/-- A character other than the line feed joins the last line of the text before it. -/
theorem exists_lines_concat (hc : c ≠ '\n') (t : Text) :
    ∃ before last, lines t = before ++ [last] ∧ lines (t ++ [c]) = before ++ [last ++ [c]] := by
  induction t with
  | nil =>
    refine ⟨[], [], rfl, ?_⟩
    rw [List.nil_append, lines_of_newline_notMem (by simpa using hc.symm)]
    rfl
  | cons d t ih =>
    obtain ⟨before, last, ht, htc⟩ := ih
    by_cases hd : d = '\n'
    · subst hd
      refine ⟨[] :: before, last, ?_, ?_⟩
      · rw [lines_cons_newline, ht, List.cons_append]
      · rw [List.cons_append, lines_cons_newline, htc, List.cons_append]
    · obtain ⟨first, rest, hfirst, hcons⟩ := exists_lines_cons hd t
      obtain ⟨first', rest', hfirst', hcons'⟩ := exists_lines_cons hd (t ++ [c])
      rw [List.cons_append, hcons, hcons']
      rw [ht] at hfirst
      rw [htc] at hfirst'
      -- The character `d` stands in the line that `c` joins only where there is one line.
      cases before with
      | nil =>
        obtain ⟨rfl, rfl⟩ := List.cons.inj hfirst
        obtain ⟨rfl, rfl⟩ := List.cons.inj hfirst'
        exact ⟨[], d :: last, rfl, rfl⟩
      | cons head before =>
        obtain ⟨rfl, rfl⟩ := List.cons.inj hfirst
        obtain ⟨rfl, rfl⟩ := List.cons.inj hfirst'
        exact ⟨(d :: head) :: before, last, rfl, rfl⟩

/-! ### Words -/

/-- A word without a line feed does not reach across one. -/
theorem infix_append_newline_iff (hword : '\n' ∉ word) :
    word <:+: a ++ '\n' :: b ↔ word <:+: a ∨ word <:+: b := by
  rw [List.infix_append_iff]
  constructor
  · rintro (h | h | ⟨front, back, rfl, hfront, hback⟩)
    · exact Or.inl h
    · rcases List.infix_cons_iff.mp h with hstart | h
      · -- The word starts at the line feed, so it is empty.
        cases word with
        | nil => exact Or.inl List.nil_infix
        | cons d word =>
          obtain ⟨rfl, -⟩ := List.cons_prefix_cons.mp hstart
          exact absurd List.mem_cons_self hword
      · exact Or.inr h
    · -- The word reaches across the joint, so its second part is empty.
      cases back with
      | nil => exact Or.inl (by simpa using hfront.isInfix)
      | cons d back =>
        obtain ⟨rfl, -⟩ := List.cons_prefix_cons.mp hback
        exact absurd (List.mem_append_right front List.mem_cons_self) hword
  · rintro (h | h)
    · exact Or.inl h
    · exact Or.inr (Or.inl (List.infix_cons h))

theorem occurs_append_newline (hword : '\n' ∉ word) :
    occurs word (a ++ '\n' :: b) = true ↔ occurs word a = true ∨ occurs word b = true := by
  rw [occurs_iff, occurs_iff, occurs_iff, infix_append_newline_iff hword]

theorem occurs_unlines_iff (hword : '\n' ∉ word) {ls : List Text} (hls : ls ≠ []) :
    occurs word (unlines ls) = true ↔ ∃ l ∈ ls, occurs word l = true := by
  induction ls with
  | nil => exact absurd rfl hls
  | cons l ls ih =>
    cases ls with
    | nil => simp [unlines]
    | cons m ls =>
      rw [unlines_cons_cons, occurs_append_newline hword, ih (List.cons_ne_nil _ _)]
      exact (List.exists_mem_cons_iff (occurs word · = true) l (m :: ls)).symm

/-- A word without a line feed stands in a text exactly if it stands in one of its lines. -/
theorem occurs_iff_exists_line (hword : '\n' ∉ word) :
    occurs word t = true ↔ ∃ l ∈ lines t, occurs word l = true := by
  rw [← occurs_unlines_iff hword (lines_ne_nil t), unlines_lines]

/-! ### Blanks -/

/-- A text of blanks only. -/
def AllBlank (t : Text) : Prop := ∀ c ∈ t, isBlank c = true

theorem trim_eq_rdropWhile (t : Text) : trim t = (t.dropWhile isBlank).rdropWhile isBlank := rfl

theorem trim_cons_blank (hc : isBlank c = true) (t : Text) : trim (c :: t) = trim t := by
  rw [trim_eq_rdropWhile, trim_eq_rdropWhile, List.dropWhile_cons_of_pos hc]

theorem trim_concat_blank (hc : isBlank c = true) (t : Text) : trim (t ++ [c]) = trim t := by
  rw [trim_eq_rdropWhile, trim_eq_rdropWhile, List.dropWhile_append]
  split
  · next hempty =>
    rw [List.isEmpty_iff.mp hempty]
    simp [hc]
  · exact List.rdropWhile_concat_pos _ _ _ hc

/-- Trimming cuts off blanks at both ends and nothing else. -/
theorem exists_eq_append_trim (t : Text) :
    ∃ before after, AllBlank before ∧ AllBlank after ∧ t = before ++ trim t ++ after := by
  refine ⟨t.takeWhile isBlank, (t.dropWhile isBlank).rtakeWhile isBlank,
    fun _ => List.mem_takeWhile_imp, fun _ => List.mem_rtakeWhile_imp, ?_⟩
  rw [trim_eq_rdropWhile, List.append_assoc, List.rdropWhile_append_rtakeWhile,
    List.takeWhile_append_dropWhile]

/-- What is passed over ends at a character that is not passed over. -/
theorem eq_false_of_mem_head?_dropWhile {p : Char → Bool} (h : c ∈ (t.dropWhile p).head?) :
    p c = false := by
  have hstop := List.head?_dropWhile_not p t
  rw [Option.mem_def.mp h] at hstop
  simpa using hstop

section Apply

/-! A function that does not see one blank at an end of a text sees no number of them, and so it
does not see whether the text is trimmed. -/

variable {α : Type} {f : Text → α}

theorem apply_append_of_allBlank (hcons : ∀ c t, isBlank c = true → f (c :: t) = f t)
    (ha : AllBlank a) (t : Text) : f (a ++ t) = f t := by
  induction a with
  | nil => rfl
  | cons c a ih =>
    obtain ⟨hc, ha⟩ := List.forall_mem_cons.mp ha
    rw [List.cons_append, hcons c _ hc, ih ha]

theorem apply_append_allBlank (hconcat : ∀ c t, isBlank c = true → f (t ++ [c]) = f t)
    (hb : AllBlank b) (t : Text) : f (t ++ b) = f t := by
  -- The blanks are taken from the front of `b`, so the text before them grows.
  induction b generalizing t with
  | nil => rw [List.append_nil]
  | cons c b ih =>
    obtain ⟨hc, hb⟩ := List.forall_mem_cons.mp hb
    rw [← List.singleton_append, ← List.append_assoc, ih hb, hconcat c t hc]

theorem apply_trim (hcons : ∀ c t, isBlank c = true → f (c :: t) = f t)
    (hconcat : ∀ c t, isBlank c = true → f (t ++ [c]) = f t) (t : Text) : f (trim t) = f t := by
  obtain ⟨before, after, hbefore, hafter, ht⟩ := exists_eq_append_trim t
  conv_rhs => rw [ht]
  rw [apply_append_allBlank hconcat hafter, apply_append_of_allBlank hcons hbefore]

end Apply

theorem trim_append_of_allBlank (ha : AllBlank a) (t : Text) : trim (a ++ t) = trim t :=
  apply_append_of_allBlank (fun _ t hc => trim_cons_blank hc t) ha t

theorem trim_append_allBlank (hb : AllBlank b) (t : Text) : trim (t ++ b) = trim t :=
  apply_append_allBlank (fun _ t hc => trim_concat_blank hc t) hb t

/-- Trimming loses blanks only. -/
theorem mem_trim_iff (hc : isBlank c = false) : c ∈ trim t ↔ c ∈ t := by
  obtain ⟨before, after, hbefore, hafter, ht⟩ := exists_eq_append_trim t
  have hnot : ∀ {blanks : Text}, AllBlank blanks → c ∉ blanks := by
    intro blanks hblanks hmem
    exact Bool.false_ne_true (hc.symm.trans (hblanks c hmem))
  conv_rhs => rw [ht]
  simp [hnot hbefore, hnot hafter]

/-- A word without blanks does not reach into a blank in front of another text. -/
private theorem infix_cons_blank_iff (hc : isBlank c = true)
    (hword : ∀ d ∈ word, isBlank d = false) : word <:+: c :: t ↔ word <:+: t := by
  rw [List.infix_cons_iff]
  constructor
  · rintro (hstart | h)
    · cases word with
      | nil => exact List.nil_infix
      | cons d word =>
        -- The word would start with the blank.
        obtain ⟨rfl, -⟩ := List.cons_prefix_cons.mp hstart
        exact absurd hc (by simp [hword d List.mem_cons_self])
    · exact h
  · exact Or.inr

private theorem infix_concat_blank_iff (hc : isBlank c = true)
    (hword : ∀ d ∈ word, isBlank d = false) : word <:+: t ++ [c] ↔ word <:+: t := by
  have hreverse : ∀ d ∈ word.reverse, isBlank d = false := by
    intro d hd
    exact hword d (List.mem_reverse.mp hd)
  rw [← List.reverse_infix, List.reverse_concat, infix_cons_blank_iff hc hreverse,
    List.reverse_infix]

/-- A word without blanks stands in a text exactly if it stands in the trimmed text. -/
theorem occurs_trim (hword : ∀ c ∈ word, isBlank c = false) (t : Text) :
    occurs word (trim t) = true ↔ occurs word t = true := by
  rw [occurs_iff, occurs_iff]
  have hcons : ∀ c t, isBlank c = true → (word <:+: c :: t) = (word <:+: t) := by
    intro c t hc
    exact propext (infix_cons_blank_iff hc hword)
  have hconcat : ∀ c t, isBlank c = true → (word <:+: t ++ [c]) = (word <:+: t) := by
    intro c t hc
    exact propext (infix_concat_blank_iff hc hword)
  exact Iff.of_eq (apply_trim (f := (word <:+: ·)) hcons hconcat t)

end ComplexityGauge.Text
