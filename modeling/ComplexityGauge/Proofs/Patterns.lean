import ComplexityGauge.Line
import ComplexityGauge.Proofs.Casing
import ComplexityGauge.Proofs.Lines

/-!
# Patterns and letter case

A line is searched after it has been trimmed and put into lowercase. For the patterns this comes to
the same as changing the capital ASCII letters alone and keeping the blanks: no match is gained and
none is lost. The `k` that comes from a Kelvin sign is in no word that is searched for, the `i` that
comes from a dotted capital has a dot above behind it where those words have a letter, and every
pattern starts and ends with a character of its own, so it never reaches into the blanks. Half of a
surrogate pair stands in a line as the replacement character, which no word has either.

All patterns have one form: a word, and a test of what follows it. `Text.robust_any_after?` treats
them together, and each pattern only adds what is true of its test.

## Main definitions

* `Text.IsPlain` — a word that neither a blank nor an inert character takes part in
* `Text.Robust` — a pattern that cannot tell such texts apart and does not reach into blanks
* `Line.startsGroup` — a pair of parentheses starts here

## Main results

* `Text.Robust.anySuffix_normalize` — a search for a robust pattern sees neither
* `Line.any_holdsGroup_lines` — the search for a pair of parentheses as a search at every position
* `Line.patterns_normalize` — the patterns of a line, with either form of it
-/

namespace ComplexityGauge

open Text

namespace Text

variable {c d : Char} {t u word : Text}

/-! ### Words -/

/-- A word without blanks, inert characters or an `i` at its end. -/
structure IsPlain (word : Text) : Prop where
  solid : ∀ c ∈ word, isBlank c = false ∧ isInert c = false
  last : ¬ ['i'] <:+ word

theorem isPlain_iff : IsPlain word ↔
    (word.all fun c => !isBlank c && !isInert c) = true ∧ ¬ ['i'] <:+ word := by
  have hall : (word.all fun c => !isBlank c && !isInert c) = true ↔
      ∀ c ∈ word, isBlank c = false ∧ isInert c = false := by simp
  rw [hall]
  exact ⟨fun h => ⟨h.solid, h.last⟩, fun h => ⟨h.1, h.2⟩⟩

instance (word : Text) : Decidable (IsPlain word) := decidable_of_iff _ isPlain_iff.symm

theorem IsPlain.tail (h : IsPlain (c :: word)) : IsPlain word where
  solid d hd := h.solid d (List.mem_cons_of_mem c hd)
  last hlast := h.last (hlast.trans (List.suffix_cons c word))

theorem IsPlain.ne_of_isBlank (h : IsPlain (c :: word)) (hd : isBlank d = true) : c ≠ d := by
  rintro rfl
  exact Bool.false_ne_true ((h.solid c List.mem_cons_self).1.symm.trans hd)

theorem IsPlain.ne_of_isInert (h : IsPlain (c :: word)) (hd : isInert d = true) : c ≠ d :=
  (Text.ne_of_isInert hd (h.solid c List.mem_cons_self).2).symm

/-- A word alone is a word followed by anything. -/
theorem isPrefixOf_eq_any_after? (word t : Text) :
    word.isPrefixOf t = (after? word t).any fun _ => true := by
  rw [after?]
  split
  · next h => exact h
  · next h => exact Bool.eq_false_iff.mpr h

theorem after?_cons_cons (c d : Char) (word t : Text) :
    after? (c :: word) (d :: t) = if c = d then after? word t else none := by
  rw [after?, after?, List.isPrefixOf_cons_cons]
  by_cases hcd : c = d <;> simp [hcd]

/-- A blank behind the text is a blank behind what follows the word. -/
theorem after?_concat_blank (hword : IsPlain word) (hc : isBlank c = true) (t : Text) :
    after? word (t ++ [c]) = (after? word t).map (· ++ [c]) := by
  induction word generalizing t with
  | nil => rfl
  | cons w word ih =>
    cases t with
    | nil =>
      -- The blank would have to be the first character of the word.
      have hne : w ≠ c := hword.ne_of_isBlank hc
      rw [List.nil_append, after?_cons_cons, if_neg hne]
      rfl
    | cons d t =>
      rw [List.cons_append, after?_cons_cons, after?_cons_cons]
      split
      · exact ih hword.tail t
      · rfl

/-- A plain word stands at the start of both texts or of neither, and what follows it resembles
again. -/
theorem Resembles.after? (h : Resembles t u) (hword : IsPlain word) :
    Option.Rel Resembles (after? word t) (after? word u) := by
  induction h generalizing word with
  | nil =>
    cases word with
    | nil => exact .some .nil
    | cons w word => exact .none
  | same c h ih =>
    cases word with
    | nil => exact .some (.same c h)
    | cons w word =>
      rw [after?_cons_cons, after?_cons_cons]
      split
      · exact ih hword.tail
      · exact .none
  | inert hc hd h ih =>
    cases word with
    | nil => exact .some (.inert hc hd h)
    | cons w word =>
      rw [after?_cons_cons, after?_cons_cons, if_neg (hword.ne_of_isInert hc),
        if_neg (hword.ne_of_isInert hd)]
      exact .none
  | dotted h ih =>
    cases word with
    | nil => exact .some (.dotted h)
    | cons w word =>
      have hdotted : w ≠ dottedCapitalI := hword.ne_of_isInert (by decide)
      rw [after?_cons_cons, after?_cons_cons, if_neg hdotted]
      by_cases hw : w = 'i'
      · -- The word goes on behind its `i`, and not with a dot above.
        subst hw
        rw [if_pos rfl]
        cases word with
        | nil => exact absurd List.suffix_rfl hword.last
        | cons v word =>
          rw [after?_cons_cons, if_neg (hword.tail.ne_of_isInert (by decide))]
          exact .none
      · rw [if_neg hw]
        exact .none

/-! ### Robust patterns -/

/-- A pattern, tried at one position of a text, that cannot tell apart texts that resemble each
other. It starts neither at a blank nor at an inert character, and a blank at the end of the text
plays no part in it. -/
structure Robust (p : Text → Bool) : Prop where
  cons_eq_false : ∀ c t, isBlank c = true ∨ isInert c = true → p (c :: t) = false
  concat_blank : ∀ c t, isBlank c = true → p (t ++ [c]) = p t
  resembles : ∀ t u, Resembles t u → p t = p u

/-- A plain word followed by something that sees neither a blank at the end nor the differences
between texts that resemble each other. -/
theorem robust_any_after? {q : Text → Bool} (hne : word ≠ []) (hword : IsPlain word)
    (hconcat : ∀ c t, isBlank c = true → q (t ++ [c]) = q t)
    (hresembles : ∀ t u, Resembles t u → q t = q u) :
    Robust fun t => (after? word t).any q where
  cons_eq_false c t hc := by
    cases word with
    | nil => exact absurd rfl hne
    | cons w word =>
      have hwc : w ≠ c := hc.elim hword.ne_of_isBlank hword.ne_of_isInert
      rw [after?_cons_cons, if_neg hwc, Option.any_none]
  concat_blank c t hc := by
    rw [after?_concat_blank hword hc]
    cases after? word t with
    | none => rfl
    | some rest => exact hconcat c rest hc
  resembles t u h := by
    have hrel := h.after? hword
    generalize after? word t = x at hrel ⊢
    generalize after? word u = y at hrel ⊢
    cases hrel with
    | some h => exact hresembles _ _ h
    | none => rfl

theorem robust_isPrefixOf (hne : word ≠ []) (hword : IsPlain word) :
    Robust fun rest => word.isPrefixOf rest := by
  simp only [isPrefixOf_eq_any_after?]
  exact robust_any_after? hne hword (fun _ _ _ => rfl) fun _ _ _ => rfl

namespace Robust

variable {p : Text → Bool}

theorem anySuffix_of_resembles (hp : Robust p) (h : Resembles t u) :
    anySuffix p t = anySuffix p u := by
  induction h with
  | nil => rfl
  | same c h ih => rw [anySuffix_cons, anySuffix_cons, ih, hp.resembles _ _ (.same c h)]
  | inert hc hd h ih =>
    rw [anySuffix_cons, anySuffix_cons, ih, hp.resembles _ _ (.inert hc hd h)]
  | dotted h ih =>
    -- The dot above is a position more, at which nothing starts.
    have hdot := hp.cons_eq_false '\u0307'
    rw [anySuffix_cons, anySuffix_cons, anySuffix_cons, hdot _ (Or.inr (by decide)),
      Bool.false_or, ih, hp.resembles _ _ (.dotted h)]

theorem anySuffix_cons_blank (hp : Robust p) (hc : isBlank c = true) (t : Text) :
    anySuffix p (c :: t) = anySuffix p t := by
  rw [anySuffix_cons, hp.cons_eq_false c t (Or.inl hc), Bool.false_or]

theorem anySuffix_concat_blank (hp : Robust p) (hc : isBlank c = true) (t : Text) :
    anySuffix p (t ++ [c]) = anySuffix p t := by
  induction t with
  | nil =>
    have hblank := hp.concat_blank c [] hc
    rw [List.nil_append] at hblank ⊢
    rw [anySuffix_cons, hblank, anySuffix_nil, Bool.or_self]
  | cons d t ih =>
    have hblank := hp.concat_blank c (d :: t) hc
    rw [List.cons_append] at hblank ⊢
    rw [anySuffix_cons, anySuffix_cons, hblank, ih]

/-- A search for a robust pattern sees neither the blanks at the ends of a line nor letter case
beyond ASCII. -/
theorem anySuffix_normalize (hp : Robust p) (line : Text) :
    anySuffix p (normalize line) = anySuffix p (line.map lowerAscii) := by
  rw [normalize, hp.anySuffix_of_resembles (resembles_lower (trim line))]
  have hcons : ∀ c t, isBlank c = true →
      anySuffix p ((c :: t).map lowerAscii) = anySuffix p (t.map lowerAscii) := by
    intro c t hc
    rw [List.map_cons, lowerAscii_of_isBlank hc, hp.anySuffix_cons_blank hc]
  have hconcat : ∀ c t, isBlank c = true →
      anySuffix p ((t ++ [c]).map lowerAscii) = anySuffix p (t.map lowerAscii) := by
    intro c t hc
    rw [List.map_append, List.map_singleton, lowerAscii_of_isBlank hc,
      hp.anySuffix_concat_blank hc]
  exact apply_trim (f := fun t => anySuffix p (t.map lowerAscii)) hcons hconcat line

end Robust

/-! ### What may follow a word -/

theorem mem_takeWhile_concat_iff {p : Char → Bool} (hd : d ≠ c) (t : Text) :
    d ∈ (t ++ [c]).takeWhile p ↔ d ∈ t.takeWhile p := by
  induction t with
  | nil =>
    rw [List.nil_append, List.takeWhile_cons]
    split <;> simp [hd]
  | cons e t ih =>
    rw [List.cons_append, List.takeWhile_cons, List.takeWhile_cons]
    split
    · rw [List.mem_cons, List.mem_cons, ih]
    · rfl

/-- The first line of a text ends in front of its first line feed. -/
theorem takeWhile_eq_of_lines {first : Text} {rest : List Text} (h : lines t = first :: rest) :
    t.takeWhile (· ≠ '\n') = first := by
  have hfirst : ∀ c ∈ first, decide (c ≠ '\n') = true := by
    intro c hc
    have hnewline := newline_notMem_of_mem_lines (h ▸ List.mem_cons_self : first ∈ lines t)
    exact decide_eq_true fun heq => hnewline (heq ▸ hc)
  -- The text is its first line, or that line and a line feed with the other lines behind it.
  rw [← unlines_lines t, h]
  cases rest with
  | nil =>
    rw [unlines, List.intercalate_singleton]
    exact List.takeWhile_eq_self_iff.mpr hfirst
  | cons m ms =>
    rw [unlines_cons_cons, List.takeWhile_append_of_pos hfirst,
      List.takeWhile_cons_of_neg (by decide), List.append_nil]

end Text

namespace Line

variable {t : Text}

/-- Blanks and then an opening brace. -/
def startsBrace (t : Text) : Bool := (t.dropWhile isBlank).head? == some '\x7b'

theorem startsDoBlock_eq_any_after? (t : Text) :
    startsDoBlock t = (after? "do".toList t).any startsBrace := by
  rw [startsDoBlock]
  cases after? "do".toList t with
  | none => rfl
  | some rest => rfl

theorem robust_startsDoBlock : Robust startsDoBlock := by
  have heq : startsDoBlock = fun t => (after? "do".toList t).any startsBrace :=
    funext startsDoBlock_eq_any_after?
  rw [heq]
  apply robust_any_after? (by decide) (by decide)
  · intro c t hc
    -- A blank at the end is passed over if nothing else is left, and not reached otherwise.
    rw [startsBrace, startsBrace, List.dropWhile_append, List.dropWhile_cons_of_pos hc]
    split
    · next hempty => rw [List.isEmpty_iff.mp hempty, List.dropWhile_nil]
    · next hsolid =>
      obtain ⟨d, rest, h⟩ :=
        List.exists_cons_of_ne_nil (fun hnil => hsolid (List.isEmpty_iff.mpr hnil))
      rw [h]
      rfl
  · intro t u h
    rw [startsBrace, startsBrace, Bool.eq_iff_iff, beq_iff_eq, beq_iff_eq]
    exact h.dropWhile_isBlank.head?_eq_some_iff (by decide) (by decide)

/-- An opening parenthesis at the start, and a closing one behind it on the same line. -/
def startsGroup (t : Text) : Bool :=
  (after? ['('] t).any fun rest => (rest.takeWhile (· ≠ '\n')).contains ')'

theorem robust_startsGroup : Robust startsGroup := by
  apply robust_any_after? (by decide) (by decide)
  · intro c t hc
    have hne : ')' ≠ c := by
      rintro rfl
      exact Bool.noConfusion hc
    rw [Bool.eq_iff_iff, List.contains_iff_mem, List.contains_iff_mem,
      mem_takeWhile_concat_iff hne]
  · intro t u h
    rw [Bool.eq_iff_iff, List.contains_iff_mem, List.contains_iff_mem]
    have hline : ∀ c, isInert c = true → decide (c ≠ '\n') = true := by
      intro c hc
      refine decide_eq_true ?_
      rintro rfl
      exact Bool.noConfusion hc
    exact (h.takeWhile (by decide) hline).mem_iff (by decide) (by decide)

/-- A line of the text holds a pair of parentheses exactly if one starts somewhere in the text. -/
theorem any_holdsGroup_lines (t : Text) :
    (lines t).any holdsGroup = anySuffix startsGroup t := by
  induction t with
  | nil => rfl
  | cons c t ih =>
    rw [anySuffix_cons, ← ih]
    by_cases hc : c = '\n'
    · subst hc
      rw [lines_cons_newline]
      rfl
    · obtain ⟨first, rest, hfirst, hcons⟩ := exists_lines_cons hc t
      have htake := takeWhile_eq_of_lines hfirst
      rw [hfirst, hcons, List.any_cons, List.any_cons, ← Bool.or_assoc, startsGroup,
        after?_cons_cons]
      congr 1
      by_cases hopen : c = '('
      · -- A pair later in the first line is closed by a parenthesis behind this one too.
        subst hopen
        have hclosed : holdsGroup first = true → first.contains ')' = true := by
          rw [holdsGroup, List.contains_iff_mem, List.contains_iff_mem]
          exact fun h => (List.dropWhile_suffix _).subset h
        have hhere : holdsGroup ('(' :: first) = first.contains ')' := by
          rw [holdsGroup, List.dropWhile_cons_of_neg (by decide), List.contains_cons]
          rfl
        have hrest : after? [] t = some t := rfl
        rw [if_pos rfl, hrest, Option.any_some, htake, hhere, Bool.or_eq_left_iff_imp.mpr hclosed]
      · have hhere : holdsGroup (c :: first) = holdsGroup first := by
          rw [holdsGroup, holdsGroup, List.dropWhile_cons_of_pos (by simp [hopen])]
        rw [if_neg (Ne.symm hopen), Option.any_none, Bool.false_or, hhere]

/-! ### The patterns of a line -/

/-- The words that are searched for. -/
def words : List Text :=
  loopKeywords ++ blockEnds ++ functionKeywords ++ DataStructure.all.flatMap DataStructure.keywords

theorem isPlain_of_mem_words : ∀ word ∈ words, word ≠ [] ∧ IsPlain word := by decide

theorem any_occurs_normalize {ws : List Text} (hws : ws ⊆ words) (line : Text) :
    ws.any (occurs · (normalize line)) = ws.any (occurs · (line.map lowerAscii)) := by
  have hsame : ∀ word ∈ ws, occurs word (normalize line) = occurs word (line.map lowerAscii) := by
    intro word hword
    obtain ⟨hne, hplain⟩ := isPlain_of_mem_words word (hws hword)
    exact (robust_isPrefixOf hne hplain).anySuffix_normalize line
  rw [Bool.eq_iff_iff, List.any_eq_true, List.any_eq_true]
  apply exists_congr
  intro word
  apply and_congr_right
  intro hword
  rw [hsame word hword]

theorem opensLoop_normalize (line : Text) :
    opensLoop (normalize line) = opensLoop (line.map lowerAscii) := by
  rw [opensLoop, opensLoop, any_occurs_normalize (by decide),
    robust_startsDoBlock.anySuffix_normalize]

theorem closesBlock_normalize (line : Text) :
    closesBlock (normalize line) = closesBlock (line.map lowerAscii) :=
  any_occurs_normalize (by decide) line

theorem definesFunction_normalize (line : Text) :
    definesFunction (normalize line) = definesFunction (line.map lowerAscii) := by
  rw [definesFunction, definesFunction, any_occurs_normalize (by decide), any_holdsGroup_lines,
    any_holdsGroup_lines, robust_startsGroup.anySuffix_normalize]

theorem dataStructures_normalize (line : Text) :
    dataStructures (normalize line) = dataStructures (line.map lowerAscii) := by
  apply List.filter_congr
  intro kind _
  have hkind : kind.keywords ⊆ words := by cases kind <;> decide
  exact any_occurs_normalize hkind line

/-- What a line shows is what it shows with its blanks and with only the ASCII letters in
lowercase. -/
theorem patterns_normalize (line : Text) :
    opensLoop (normalize line) = opensLoop (line.map lowerAscii) ∧
      closesBlock (normalize line) = closesBlock (line.map lowerAscii) ∧
      definesFunction (normalize line) = definesFunction (line.map lowerAscii) ∧
      dataStructures (normalize line) = dataStructures (line.map lowerAscii) :=
  ⟨opensLoop_normalize line, closesBlock_normalize line, definesFunction_normalize line,
    dataStructures_normalize line⟩

/-- The dotted capital I does not spell a list, as its lowercase form has a dot above. -/
example : dataStructures (normalize "L\u0130ST GRAPH".toList) = [.tree] := by decide

end Line

end ComplexityGauge
