import ComplexityGauge.Text.Lowercase

/-!
# Letter case beyond ASCII

What full lowercasing does to a text, set beside the change of the capital ASCII letters alone.
Beyond ASCII it brings forth ASCII letters in two places. The Kelvin sign becomes a `k`, and the
dotted capital I becomes an `i` with a dot above behind it. Everything else beyond ASCII stays
beyond ASCII, and blanks stay what they are.

So the two lowercase forms of a text differ in characters that no search pattern mentions, the
letter `k` among them, and in the dotted capitals. The relation `Text.Resembles` says just that.

## Main definitions

* `Text.isInert` — a character that no pattern mentions
* `Text.Resembles` — two texts differ in inert characters and dotted capitals only

## Main results

* `Text.lowerChar_cases` — what becomes of one character
* `Text.resembles_lower` — full lowercasing resembles ASCII lowercasing
* `Text.mem_lower_iff` — characters below the letters stay what they are
-/

namespace ComplexityGauge.Text

open CaseTables

variable {c d : Char} {t u : Text}

/-! ### Inert characters -/

theorem toNat_ofNat {n : Nat} (h : n.isValidChar) : (Char.ofNat n).toNat = n := by
  rw [Char.ofNat, dif_pos h]
  rfl

/-- A character that no pattern mentions: the letter `k`, or neither ASCII nor a blank. -/
def isInert (c : Char) : Bool := c == 'k' || (128 ≤ c.toNat && !isBlank c)

theorem isBlank_eq_false_of_isInert (h : isInert c = true) : isBlank c = false := by
  rw [isInert, Bool.or_eq_true, Bool.and_eq_true, Bool.not_eq_true'] at h
  rcases h with h | ⟨-, h⟩
  · obtain rfl := eq_of_beq h
    rfl
  · exact h

theorem ne_of_isInert (hc : isInert c = true) (hd : isInert d = false) : c ≠ d := by
  rintro rfl
  exact Bool.false_ne_true (hd.symm.trans hc)

/-- Stretches of code points beyond ASCII without a blank, half a surrogate pair or a gap. -/
def inertRanges : List (Nat × Nat) :=
  [(0xA1, 0x167F), (0x1681, 0x1FFF), (0x2060, 0x2FFF), (0x3001, 0xD7FF), (0xE000, 0x10FFFF)]

theorem isValidChar_of_inRanges {n : Nat} (h : inRanges inertRanges n = true) :
    n.isValidChar := by
  simp only [inRanges, inertRanges, List.any_cons, List.any_nil, Bool.or_false, Bool.or_eq_true,
    Bool.and_eq_true, decide_eq_true_eq] at h
  unfold Nat.isValidChar
  omega

theorem isInert_of_inRanges {n : Nat} (h : inRanges inertRanges n = true) :
    isInert (Char.ofNat n) = true := by
  have hcode := toNat_ofNat (isValidChar_of_inRanges h)
  simp only [inRanges, inertRanges, List.any_cons, List.any_nil, Bool.or_false, Bool.or_eq_true,
    Bool.and_eq_true, decide_eq_true_eq] at h
  have hblank : isBlank (Char.ofNat n) = false := by
    simp only [isBlank, hcode, Bool.or_eq_false_iff, Bool.and_eq_false_iff, beq_eq_false_iff_ne,
      decide_eq_false_iff_not]
    omega
  have hbeyond : 128 ≤ n := by omega
  simp [isInert, hcode, hblank, hbeyond]

/-! ### Lowercase letters beyond ASCII -/

/-- The characters of a run and their lowercase forms lie in stretches without a blank. -/
def IsInertRun (run : CaseRun) : Prop :=
  (∃ range ∈ inertRanges, range.1 ≤ run.first ∧ run.last ≤ range.2) ∧
    ∃ range ∈ inertRanges, range.1 ≤ run.first + run.shift ∧ run.last + run.shift ≤ range.2

instance (run : CaseRun) : Decidable (IsInertRun run) := inferInstanceAs (Decidable (_ ∧ _))

/-- The check of the whole table. -/
theorem isInertRun_of_mem : ∀ run ∈ lowercaseRuns, IsInertRun run := by decide +kernel

theorem inRanges_of_mem {ranges : List (Nat × Nat)} {range : Nat × Nat} {n : Nat}
    (hmem : range ∈ ranges) (h₁ : range.1 ≤ n) (h₂ : n ≤ range.2) : inRanges ranges n = true :=
  List.any_eq_true.mpr ⟨range, hmem, by simp [h₁, h₂]⟩

/-- A character beyond ASCII keeps its form, or neither form is mentioned in a pattern. -/
theorem lowerSimple_eq_or (hc : 128 ≤ c.toNat) :
    lowerSimple c = c ∨ isInert c = true ∧ isInert (lowerSimple c) = true := by
  rw [lowerSimple, if_neg (Nat.not_lt.mpr hc)]
  by_cases hkelvin : c = kelvinSign
  · subst hkelvin
    exact Or.inr ⟨by decide, by decide⟩
  rw [if_neg hkelvin]
  cases hfind : lowercaseRuns.find? fun run => run.covers c.toNat with
  | none =>
    -- No run covers the character, so it is its own lowercase form.
    exact Or.inl rfl
  | some run =>
    right
    -- The run that covers the character has both forms in stretches without a blank.
    have hcovers : run.covers c.toNat = true := by simpa using List.find?_some hfind
    obtain ⟨⟨range, hrange, hfirst, hlast⟩, image, himage, hfirst', hlast'⟩ :=
      isInertRun_of_mem run (List.mem_of_find?_eq_some hfind)
    simp only [CaseRun.covers, Bool.and_eq_true, decide_eq_true_eq] at hcovers
    obtain ⟨⟨hle, hge⟩, -⟩ := hcovers
    constructor
    · have hinert := isInert_of_inRanges
        (inRanges_of_mem hrange (Nat.le_trans hfirst hle) (Nat.le_trans hge hlast))
      rwa [Char.ofNat_toNat] at hinert
    · exact isInert_of_inRanges (inRanges_of_mem himage (by omega) (by omega))

/-- Only capital letters have another ASCII form, which is a small letter. -/
theorem lowerAscii_cases (c : Char) :
    lowerAscii c = c ∨
      (65 ≤ c.toNat ∧ c.toNat ≤ 90) ∧ (lowerAscii c).toNat = c.toNat + 32 := by
  rw [lowerAscii]
  split
  · next h =>
    rw [Bool.and_eq_true, decide_eq_true_eq, decide_eq_true_eq] at h
    have hlow : 65 ≤ c.toNat := h.1
    have hhigh : c.toNat ≤ 90 := h.2
    have hvalid : (c.toNat + 32).isValidChar := by
      unfold Nat.isValidChar
      omega
    exact Or.inr ⟨⟨hlow, hhigh⟩, toNat_ofNat hvalid⟩
  · exact Or.inl rfl

theorem lowerAscii_of_beyond (hc : 128 ≤ c.toNat) : lowerAscii c = c := by
  rcases lowerAscii_cases c with h | ⟨h, -⟩
  · exact h
  · omega

theorem lowerAscii_of_isBlank (hc : isBlank c = true) : lowerAscii c = c := by
  rcases lowerAscii_cases c with h | ⟨h, -⟩
  · exact h
  · simp only [isBlank, Bool.or_eq_true, Bool.and_eq_true, beq_iff_eq, decide_eq_true_eq] at hc
    omega

/-- What becomes of one character: the dotted capital I turns into two characters, and every other
character into its ASCII form or, if it is inert, into another inert character. -/
theorem lowerChar_cases (afterLetter : Bool) (c : Char) (rest : Text) :
    (c = dottedCapitalI ∧ lowerChar afterLetter c rest = ['i', '\u0307']) ∨
      lowerChar afterLetter c rest = [lowerAscii c] ∨
      ∃ d, lowerChar afterLetter c rest = [d] ∧ isInert d = true ∧
        isInert (lowerAscii c) = true := by
  unfold lowerChar
  by_cases hdotted : c = dottedCapitalI
  · rw [if_pos hdotted]
    exact Or.inl ⟨hdotted, rfl⟩
  by_cases hsigma : c = capitalSigma
  · subst hsigma
    rw [if_neg hdotted, if_pos rfl]
    -- Either sigma is inert.
    refine Or.inr (Or.inr ⟨_, rfl, ?_, by decide⟩)
    split <;> decide
  rw [if_neg hdotted, if_neg hsigma]
  by_cases hascii : c.toNat < 128
  · rw [lowerSimple, if_pos hascii]
    exact Or.inr (Or.inl rfl)
  · have hbeyond := Nat.not_lt.mp hascii
    rw [lowerAscii_of_beyond hbeyond]
    rcases lowerSimple_eq_or hbeyond with h | ⟨hc, hd⟩
    · exact Or.inr (Or.inl (by rw [h]))
    · exact Or.inr (Or.inr ⟨_, rfl, hd, hc⟩)

/-! ### Texts that resemble each other

The second text is the one in which dotted capitals still stand as one character. -/

/-- The texts are the same up to inert characters, and where one has an `i` with a dot above behind
it, the other may have a dotted capital I. -/
inductive Resembles : Text → Text → Prop
  | nil : Resembles [] []
  | same {t u : Text} (c : Char) (h : Resembles t u) : Resembles (c :: t) (c :: u)
  | inert {t u : Text} {c d : Char} (hc : isInert c = true) (hd : isInert d = true)
      (h : Resembles t u) : Resembles (c :: t) (d :: u)
  | dotted {t u : Text} (h : Resembles t u) :
      Resembles ('i' :: '\u0307' :: t) (dottedCapitalI :: u)

/-- Whether a letter stands in front of the text matters for the form of a sigma only, which is
inert, so the induction runs over both answers. -/
theorem resembles_lowerFrom (afterLetter : Bool) (t : Text) :
    Resembles (lowerFrom afterLetter t) (t.map lowerAscii) := by
  induction t generalizing afterLetter with
  | nil => exact .nil
  | cons c t ih =>
    rw [lowerFrom, List.map_cons]
    have ih := ih (letterPrecedes afterLetter c)
    rcases lowerChar_cases afterLetter c t with ⟨rfl, h⟩ | h | ⟨d, h, hd, hc⟩
    · rw [h]
      exact .dotted ih
    · rw [h]
      exact .same _ ih
    · rw [h]
      exact .inert hd hc ih

/-- Full lowercasing resembles ASCII lowercasing. -/
theorem resembles_lower (t : Text) : Resembles (lower t) (t.map lowerAscii) :=
  resembles_lowerFrom false t

theorem Resembles.dropWhile_isBlank (h : Resembles t u) :
    Resembles (t.dropWhile isBlank) (u.dropWhile isBlank) := by
  induction h with
  | nil => exact .nil
  | same c h ih =>
    rw [List.dropWhile_cons, List.dropWhile_cons]
    split
    · exact ih
    · exact .same c h
  | inert hc hd h ih =>
    rw [List.dropWhile_cons_of_neg (by simp [isBlank_eq_false_of_isInert hc]),
      List.dropWhile_cons_of_neg (by simp [isBlank_eq_false_of_isInert hd])]
    exact .inert hc hd h
  | dotted h ih =>
    -- Neither the `i` nor the dotted capital is a blank.
    exact .dotted h

theorem Resembles.takeWhile {p : Char → Bool} (h : Resembles t u) (hi : p 'i' = true)
    (hp : ∀ c, isInert c = true → p c = true) : Resembles (t.takeWhile p) (u.takeWhile p) := by
  induction h with
  | nil => exact .nil
  | same c h ih =>
    rw [List.takeWhile_cons, List.takeWhile_cons]
    split
    · exact .same c ih
    · exact .nil
  | inert hc hd h ih =>
    rw [List.takeWhile_cons_of_pos (hp _ hc), List.takeWhile_cons_of_pos (hp _ hd)]
    exact .inert hc hd ih
  | dotted h ih =>
    have hdot : p '\u0307' = true := hp _ (by decide)
    have hdotted : p dottedCapitalI = true := hp _ (by decide)
    rw [List.takeWhile_cons_of_pos hi, List.takeWhile_cons_of_pos hdot,
      List.takeWhile_cons_of_pos hdotted]
    exact .dotted ih

section NotInert

variable (hc : isInert c = false) (hi : c ≠ 'i')

include hc hi

/-- Texts that resemble each other start with the same character if it is neither inert nor an
`i`. -/
theorem Resembles.head?_eq_some_iff (h : Resembles t u) :
    t.head? = some c ↔ u.head? = some c := by
  cases h with
  | nil => rfl
  | same d h => rfl
  | inert hd he h => simp [ne_of_isInert hd hc, ne_of_isInert he hc]
  | dotted h =>
    have hdotted : dottedCapitalI ≠ c := ne_of_isInert (by decide) hc
    simp [hi.symm, hdotted]

/-- Texts that resemble each other hold the same characters, inert ones and the `i` apart. -/
theorem Resembles.mem_iff (h : Resembles t u) : c ∈ t ↔ c ∈ u := by
  induction h with
  | nil => rfl
  | same d h ih => rw [List.mem_cons, List.mem_cons, ih]
  | inert hd he h ih =>
    simp [(ne_of_isInert hd hc).symm, (ne_of_isInert he hc).symm, ih]
  | dotted h ih =>
    have hdot : c ≠ '\u0307' := (ne_of_isInert (by decide) hc).symm
    have hdotted : c ≠ dottedCapitalI := (ne_of_isInert (by decide) hc).symm
    simp [hi, hdot, hdotted, ih]

end NotInert

/-- No lowercasing brings forth or takes away a character below the letters. -/
theorem mem_lower_iff (hd : d.toNat < 65) : d ∈ lower t ↔ d ∈ t := by
  have hinert : isInert d = false := by
    rw [isInert, Bool.or_eq_false_iff, Bool.and_eq_false_iff, decide_eq_false_iff_not]
    refine ⟨beq_false_of_ne ?_, Or.inl (by omega)⟩
    rintro rfl
    exact absurd hd (by decide)
  have hi : d ≠ 'i' := by
    rintro rfl
    exact absurd hd (by decide)
  rw [(resembles_lower t).mem_iff hinert hi, List.mem_map]
  -- What is left is the ASCII form, which is a letter wherever it is another character.
  constructor
  · rintro ⟨c, hc, rfl⟩
    rcases lowerAscii_cases c with h | ⟨hcapital, hsmall⟩
    · rwa [h]
    · omega
  · intro hmem
    refine ⟨d, hmem, ?_⟩
    rcases lowerAscii_cases d with h | ⟨hcapital, -⟩
    · exact h
    · omega

end ComplexityGauge.Text
