import ComplexityGauge.Proofs.Naming
import ComplexityGauge.Proofs.Surroundings

/-!
# A source text in lowercase

What changes when a whole source text is put into lowercase before it is looked at. Lines are
searched in lowercase, so nothing changes in them: lowercasing a text and splitting it into lines
may be exchanged, and so may lowercasing and trimming, and a text in lowercase is its own lowercase
form. The one thing that hangs on the neighbours of a character is the form of a capital sigma, and
the search for a letter around it ends at every blank and at every line feed.

Calls are looked for in the text as it was written. A call of a name in lowercase stays where it is
when the text is put into lowercase, and others may appear. So letter case can hide recursion, and
it can never feign it.

## Main definitions

* `Text.IsLowered` — a character that lowercasing leaves as it is

## Main results

* `Text.lower_lower` — lowercasing twice is lowercasing once
* `Text.lowerFrom_append_blank` — a text falls apart at its blanks when it is lowercased
* `Text.lines_lower`, `Text.trim_lower` — lowercasing, lines and trimming
* `Analysis.ofText_lower` — the analysis of a text in lowercase
-/

namespace ComplexityGauge

namespace Text

open CaseTables

variable {c d : Char} {t x y word : Text}

/-! ### Lowercase forms are their own lowercase forms -/

/-- Lowercasing leaves the character as it is, whatever stands around it. -/
def IsLowered (c : Char) : Prop := ∀ afterLetter rest, lowerChar afterLetter c rest = [c]

theorem isLowered_of_lowerSimple (hdotted : c ≠ dottedCapitalI) (hsigma : c ≠ capitalSigma)
    (h : lowerSimple c = c) : IsLowered c := by
  intro afterLetter rest
  rw [lowerChar, if_neg hdotted, if_neg hsigma, h]

/-- The characters beyond ASCII with a lowercase form that the table does not give, and the capital
sigma, each as a run of its own. -/
def singleRuns : List CaseRun :=
  [dottedCapitalI, kelvinSign, capitalSigma].map fun c => ⟨c.toNat, c.toNat, 1, 0⟩

/-- The code points that a run covers. -/
def codes (run : CaseRun) : List ℕ :=
  List.range' run.first ((run.last - run.first) / run.stride + 1) run.stride

/-- The code points of the lowercase forms that a run gives. -/
def lowerCodes (run : CaseRun) : List ℕ :=
  (codes run).map fun n : ℕ => ((n : Int) + run.shift).toNat

/-- Code points as the bits of a number, so that long lists of them are compared at once. -/
def bits (codes : List ℕ) : ℕ := codes.foldr (fun n b => 1 <<< n ||| b) 0

theorem testBit_bits {codes : List ℕ} {n : ℕ} (h : n ∈ codes) : (bits codes).testBit n = true := by
  induction codes with
  | nil => exact absurd h List.not_mem_nil
  | cons m codes ih =>
    rw [bits, List.foldr_cons, Nat.testBit_or, Nat.one_shiftLeft, Nat.testBit_two_pow,
      Bool.or_eq_true, decide_eq_true_eq]
    rcases List.mem_cons.mp h with rfl | h
    · exact Or.inl rfl
    · exact Or.inr (ih h)

theorem mem_codes {run : CaseRun} {n : ℕ} (h : run.covers n = true) : n ∈ codes run := by
  simp only [CaseRun.covers, Bool.and_eq_true, decide_eq_true_eq, beq_iff_eq] at h
  obtain ⟨⟨hfirst, hlast⟩, hgap⟩ := h
  have hsteps := Nat.div_add_mod (n - run.first) run.stride
  rw [codes, List.mem_range']
  exact ⟨(n - run.first) / run.stride, Nat.lt_succ_of_le (Nat.div_le_div_right (by omega)),
    by omega⟩

/-- The check of the whole table: no lowercase form is covered. -/
theorem bits_lowerCodes_land_bits_codes :
    bits (lowercaseRuns.flatMap lowerCodes) &&&
      bits ((singleRuns ++ lowercaseRuns).flatMap codes) = 0 := by
  decide +kernel

theorem not_covers_of_covers {run other : CaseRun} {n m : ℕ} (hrun : run ∈ lowercaseRuns)
    (hother : other ∈ singleRuns ++ lowercaseRuns) (hn : run.covers n = true)
    (hm : (m : Int) = n + run.shift) : other.covers m = false := by
  rw [Bool.eq_false_iff]
  intro hcovers
  have hlower : m ∈ lowercaseRuns.flatMap lowerCodes :=
    List.mem_flatMap.mpr ⟨run, hrun, List.mem_map.mpr ⟨n, mem_codes hn, by omega⟩⟩
  have hcovered : m ∈ (singleRuns ++ lowercaseRuns).flatMap codes :=
    List.mem_flatMap.mpr ⟨other, hother, mem_codes hcovers⟩
  have hbit := congrArg (Nat.testBit · m) bits_lowerCodes_land_bits_codes
  simp only [Nat.testBit_and, testBit_bits hlower, testBit_bits hcovered, Nat.zero_testBit,
    Bool.and_true, Bool.true_eq_false] at hbit

/-- A character beyond ASCII that no run covers is its own lowercase form. -/
theorem isLowered_of_not_covers (hc : 128 ≤ c.toNat)
    (h : ∀ run ∈ singleRuns ++ lowercaseRuns, run.covers c.toNat = false) : IsLowered c := by
  have hne {single : Char}
      (hsingle : single ∈ [dottedCapitalI, kelvinSign, capitalSigma]) : c ≠ single := by
    rintro rfl
    have hmem : (⟨c.toNat, c.toNat, 1, 0⟩ : CaseRun) ∈ singleRuns :=
      List.mem_map.mpr ⟨c, hsingle, rfl⟩
    have hcovers := h _ (List.mem_append_left _ hmem)
    simp [CaseRun.covers] at hcovers
  have hfind : lowercaseRuns.find? (·.covers c.toNat) = none :=
    List.find?_eq_none.mpr fun run hrun => by simp [h run (List.mem_append_right _ hrun)]
  refine isLowered_of_lowerSimple (hne (by simp)) (hne (by simp)) ?_
  rw [lowerSimple, if_neg (Nat.not_lt.mpr hc), if_neg (hne (by simp)), hfind]

theorem isLowered_of_ascii (hc : c.toNat < 128) (hcapital : ¬ (65 ≤ c.toNat ∧ c.toNat ≤ 90)) :
    IsLowered c := by
  have hne {single : Char} (hsingle : 128 ≤ single.toNat) : c ≠ single := by
    rintro rfl
    omega
  refine isLowered_of_lowerSimple (hne (by decide)) (hne (by decide)) ?_
  rw [lowerSimple, if_pos hc]
  rcases lowerAscii_cases c with h | ⟨h, -⟩
  · exact h
  · exact absurd h hcapital

/-- The lowercase forms that the runs of the table give are beyond ASCII, and no run covers them. -/
theorem isLowered_of_run {run : CaseRun} (hrun : run ∈ lowercaseRuns)
    (hcovers : run.covers c.toNat = true) :
    IsLowered (Char.ofNat ((c.toNat : Int) + run.shift).toNat) := by
  obtain ⟨-, image, himage, hfirst, hlast⟩ := isInertRun_of_mem run hrun
  have hbounds := hcovers
  simp only [CaseRun.covers, Bool.and_eq_true, decide_eq_true_eq] at hbounds
  have hbeyond : ∀ range ∈ inertRanges, 128 ≤ range.1 := by decide
  have himage' := hbeyond image himage
  have hcode : ((Char.ofNat ((c.toNat : Int) + run.shift).toNat).toNat : Int) =
      c.toNat + run.shift := by
    rw [toNat_ofNat (isValidChar_of_inRanges (inRanges_of_mem himage (by omega) (by omega)))]
    omega
  exact isLowered_of_not_covers (by omega) fun other hother =>
    not_covers_of_covers hrun hother hcovers hcode

theorem isLowered_lowerSimple (hdotted : c ≠ dottedCapitalI) (hsigma : c ≠ capitalSigma) :
    IsLowered (lowerSimple c) := by
  by_cases hascii : c.toNat < 128
  · rw [lowerSimple, if_pos hascii]
    refine isLowered_of_ascii ?_ (not_capital_lowerAscii c)
    rcases lowerAscii_cases c with h | ⟨h, hsmall⟩
    · rwa [h]
    · omega
  by_cases hkelvin : c = kelvinSign
  · subst hkelvin
    exact isLowered_of_ascii (by decide) (by decide)
  cases hfind : lowercaseRuns.find? (·.covers c.toNat) with
  | none =>
    have hsame : lowerSimple c = c := by
      rw [lowerSimple, if_neg hascii, if_neg hkelvin, hfind]
    rw [hsame]
    exact isLowered_of_lowerSimple hdotted hsigma hsame
  | some run =>
    have hform : lowerSimple c = Char.ofNat ((c.toNat : Int) + run.shift).toNat := by
      rw [lowerSimple, if_neg hascii, if_neg hkelvin, hfind]
    rw [hform]
    exact isLowered_of_run (List.mem_of_find?_eq_some hfind)
      (by simpa using List.find?_some hfind)

theorem isLowered_of_mem_lowerChar {afterLetter : Bool} {rest : Text}
    (h : d ∈ lowerChar afterLetter c rest) : IsLowered d := by
  unfold lowerChar at h
  by_cases hdotted : c = dottedCapitalI
  · rw [if_pos hdotted, List.mem_cons, List.mem_singleton] at h
    rcases h with rfl | rfl
    · exact isLowered_of_ascii (by decide) (by decide)
    · exact isLowered_of_not_covers (by decide) (by decide +kernel)
  by_cases hsigma : c = capitalSigma
  · rw [if_neg hdotted, if_pos hsigma, List.mem_singleton] at h
    subst h
    -- Neither small sigma is covered.
    split <;> exact isLowered_of_not_covers (by decide) (by decide +kernel)
  · rw [if_neg hdotted, if_neg hsigma, List.mem_singleton] at h
    subst h
    exact isLowered_lowerSimple hdotted hsigma

theorem isLowered_of_mem_lowerFrom {afterLetter : Bool} (h : d ∈ lowerFrom afterLetter t) :
    IsLowered d := by
  induction t generalizing afterLetter with
  | nil => exact absurd h List.not_mem_nil
  | cons c t ih =>
    rw [lowerFrom, List.mem_append] at h
    rcases h with h | h
    · exact isLowered_of_mem_lowerChar h
    · exact ih h

theorem lowerFrom_of_isLowered (h : ∀ c ∈ t, IsLowered c) (afterLetter : Bool) :
    lowerFrom afterLetter t = t := by
  induction t generalizing afterLetter with
  | nil => rfl
  | cons c t ih =>
    obtain ⟨hc, ht⟩ := List.forall_mem_cons.mp h
    rw [lowerFrom, hc, ih ht, List.singleton_append]

/-- Lowercasing twice is lowercasing once. -/
theorem lower_lower (t : Text) : lower (lower t) = lower t :=
  lowerFrom_of_isLowered (fun _ => isLowered_of_mem_lowerFrom) false

/-! ### Blanks -/

/-- The code points of the blanks. -/
def blankRanges : List (ℕ × ℕ) :=
  [(0x09, 0x0D), (0x1C, 0x20), (0x85, 0x85), (0xA0, 0xA0), (0x1680, 0x1680), (0x2000, 0x200A),
    (0x2028, 0x2029), (0x202F, 0x202F), (0x205F, 0x205F), (0x3000, 0x3000)]

theorem exists_blankRange (hc : isBlank c = true) :
    ∃ blank ∈ blankRanges, blank.1 ≤ c.toNat ∧ c.toNat ≤ blank.2 := by
  simp only [isBlank, Bool.or_eq_true, Bool.and_eq_true, decide_eq_true_eq, beq_iff_eq] at hc
  simp only [blankRanges, List.exists_mem_cons_iff, List.not_mem_nil, false_and, exists_false,
    or_false]
  omega

/-- The check of both tables: no blank is a letter or passed over in a search for one. -/
theorem apart_of_mem_blankRanges : ∀ range ∈ letterRanges ++ ignorableRanges,
    ∀ blank ∈ blankRanges, blank.2 < range.1 ∨ range.2 < blank.1 := by
  decide +kernel

theorem inRanges_of_isBlank {ranges : List (ℕ × ℕ)} (hc : isBlank c = true)
    (hranges : ranges ⊆ letterRanges ++ ignorableRanges) : inRanges ranges c.toNat = false := by
  obtain ⟨blank, hblank, hfirst, hlast⟩ := exists_blankRange hc
  refine List.any_eq_false.mpr fun range hrange => ?_
  have hapart := apart_of_mem_blankRanges range (hranges hrange) blank hblank
  simp only [Bool.and_eq_true, decide_eq_true_eq]
  omega

theorem isLetter_of_isBlank (hc : isBlank c = true) : isLetter c = false :=
  inRanges_of_isBlank hc (List.subset_append_left _ _)

theorem isIgnorable_of_isBlank (hc : isBlank c = true) : isIgnorable c = false :=
  inRanges_of_isBlank hc (List.subset_append_right _ _)

theorem isLowered_of_isBlank (hc : isBlank c = true) : IsLowered c := by
  intro afterLetter rest
  rcases lowerChar_cases afterLetter c rest with ⟨rfl, -⟩ | h | ⟨-, -, -, h⟩
  · exact absurd hc (by decide)
  · rw [h, lowerAscii_of_isBlank hc]
  · rw [lowerAscii_of_isBlank hc] at h
    exact absurd hc (by simp [isBlank_eq_false_of_isInert h])

theorem isBlank_of_mem_lowerChar {afterLetter : Bool} {rest : Text} (hc : isBlank c = false)
    (h : d ∈ lowerChar afterLetter c rest) : isBlank d = false := by
  rcases lowerChar_cases afterLetter c rest with ⟨-, heq⟩ | heq | ⟨e, heq, he, -⟩
  · rw [heq, List.mem_cons, List.mem_singleton] at h
    rcases h with rfl | rfl <;> decide
  · rw [heq, List.mem_singleton] at h
    subst h
    rcases lowerAscii_cases c with h | ⟨hcapital, hsmall⟩
    · rwa [h]
    · -- Small letters are no blanks.
      simp only [isBlank, Bool.or_eq_false_iff, Bool.and_eq_false_iff, beq_eq_false_iff_ne,
        decide_eq_false_iff_not]
      omega
  · rw [heq, List.mem_singleton] at h
    subst h
    exact isBlank_eq_false_of_isInert he

/-- The search for a letter ends at a blank as it does at the end of the text. -/
theorem letterFollows_append_blank (hc : isBlank c = true) (x y : Text) :
    letterFollows (x ++ c :: y) = letterFollows x := by
  induction x with
  | nil =>
    rw [List.nil_append, letterFollows,
      List.dropWhile_cons_of_neg (by simp [isIgnorable_of_isBlank hc])]
    exact isLetter_of_isBlank hc
  | cons d x ih =>
    unfold letterFollows at ih ⊢
    rw [List.cons_append]
    by_cases hd : isIgnorable d = true
    · rw [List.dropWhile_cons_of_pos hd, List.dropWhile_cons_of_pos hd, ih]
    · rw [List.dropWhile_cons_of_neg hd, List.dropWhile_cons_of_neg hd]

/-- A text falls apart at its blanks when it is lowercased. -/
theorem lowerFrom_append_blank (hc : isBlank c = true) (afterLetter : Bool) (x y : Text) :
    lowerFrom afterLetter (x ++ c :: y) = lowerFrom afterLetter x ++ c :: lower y := by
  induction x generalizing afterLetter with
  | nil =>
    have hprecedes : letterPrecedes afterLetter c = false := by
      rw [letterPrecedes, isIgnorable_of_isBlank hc, isLetter_of_isBlank hc]
      rfl
    simp only [lowerFrom, isLowered_of_isBlank hc _ _, hprecedes, List.nil_append,
      List.singleton_append, lower]
  | cons d x ih =>
    have hchar : lowerChar afterLetter d (x ++ c :: y) = lowerChar afterLetter d x := by
      rw [lowerChar, lowerChar, letterFollows_append_blank hc]
    rw [List.cons_append, lowerFrom, lowerFrom, hchar, ih, List.append_assoc]

theorem lower_cons_blank (hc : isBlank c = true) (t : Text) : lower (c :: t) = c :: lower t :=
  lowerFrom_append_blank hc false [] t

theorem lower_concat_blank (hc : isBlank c = true) (t : Text) :
    lower (t ++ [c]) = lower t ++ [c] :=
  lowerFrom_append_blank hc false t []

/-- What stands behind a text is lowercased behind it, after a letter or not. -/
theorem exists_lowerFrom_append (afterLetter : Bool) (x y : Text) :
    ∃ before afterLetter', lowerFrom afterLetter (x ++ y) = before ++ lowerFrom afterLetter' y := by
  induction x generalizing afterLetter with
  | nil => exact ⟨[], afterLetter, rfl⟩
  | cons c x ih =>
    obtain ⟨before, afterLetter', h⟩ := ih (letterPrecedes afterLetter c)
    refine ⟨lowerChar afterLetter c (x ++ y) ++ before, afterLetter', ?_⟩
    rw [List.cons_append, lowerFrom, h, List.append_assoc]

/-! ### Lines and ends -/

theorem lower_unlines (ls : List Text) : lower (unlines ls) = unlines (ls.map lower) := by
  induction ls with
  | nil => rfl
  | cons l ls ih =>
    cases ls with
    | nil => simp [unlines]
    | cons m ls =>
      rw [unlines_cons_cons, lower, lowerFrom_append_blank (by decide), ih]
      exact (unlines_cons_cons (lower l) (lower m) (ls.map lower)).symm

/-- The lines of a text in lowercase are its lines in lowercase. -/
theorem lines_lower (t : Text) : lines (lower t) = (lines t).map lower := by
  have hlines : ∀ l ∈ (lines t).map lower, '\n' ∉ l := by
    intro l hl hmem
    obtain ⟨m, hm, rfl⟩ := List.mem_map.mp hl
    exact newline_notMem_of_mem_lines hm ((mem_lower_iff (by decide)).mp hmem)
  conv_lhs => rw [← unlines_lines t, lower_unlines]
  exact lines_unlines (by simp [lines_ne_nil]) hlines

theorem lowerChar_ne_nil (afterLetter : Bool) (c : Char) (rest : Text) :
    lowerChar afterLetter c rest ≠ [] := by
  unfold lowerChar
  split_ifs <;> exact List.cons_ne_nil _ _

theorem dropWhile_isBlank_lower (t : Text) :
    (lower t).dropWhile isBlank = lower (t.dropWhile isBlank) := by
  induction t with
  | nil => rfl
  | cons c t ih =>
    cases hc : isBlank c with
    | true =>
      rw [lower_cons_blank hc, List.dropWhile_cons_of_pos hc, List.dropWhile_cons_of_pos hc, ih]
    | false =>
      -- A character that is no blank turns into characters that are none.
      obtain ⟨d, more, hchar⟩ := List.exists_cons_of_ne_nil (lowerChar_ne_nil false c t)
      have hd : isBlank d = false :=
        isBlank_of_mem_lowerChar hc (hchar ▸ List.mem_cons_self : d ∈ lowerChar false c t)
      rw [List.dropWhile_cons_of_neg (by simp [hc]), lower, lowerFrom, hchar, List.cons_append,
        List.dropWhile_cons_of_neg (by simp [hd])]

theorem rdropWhile_isBlank_lower (t : Text) :
    (lower t).rdropWhile isBlank = lower (t.rdropWhile isBlank) := by
  induction t using List.reverseRecOn with
  | nil => rfl
  | append_singleton t c ih =>
    cases hc : isBlank c with
    | true =>
      rw [lower_concat_blank hc, List.rdropWhile_concat_pos _ _ _ hc,
        List.rdropWhile_concat_pos _ _ _ hc, ih]
    | false =>
      obtain ⟨before, afterLetter, h⟩ := exists_lowerFrom_append false t [c]
      have hlast := List.dropLast_append_getLast (lowerChar_ne_nil afterLetter c [])
      have hd : isBlank ((lowerChar afterLetter c []).getLast (lowerChar_ne_nil _ c [])) = false :=
        isBlank_of_mem_lowerChar hc (List.getLast_mem _)
      rw [List.rdropWhile_concat_neg _ _ _ (by simp [hc]), lower, h, lowerFrom, lowerFrom,
        List.append_nil, ← hlast, ← List.append_assoc,
        List.rdropWhile_concat_neg _ _ _ (by simp [hd])]

/-- The ends of a text may be trimmed before or after it is lowercased. -/
theorem trim_lower (t : Text) : trim (lower t) = lower (trim t) := by
  rw [trim_eq_rdropWhile, trim_eq_rdropWhile, dropWhile_isBlank_lower, rdropWhile_isBlank_lower]

theorem trim_trim (t : Text) : trim (trim t) = trim t :=
  apply_trim (fun _ t hc => trim_cons_blank hc t) (fun _ t hc => trim_concat_blank hc t) t

/-- A line is searched in the same form if it is lowercased first. -/
theorem normalize_lower (t : Text) : normalize (lower t) = normalize t := by
  rw [normalize, trim_lower, lower_lower, normalize]

theorem normalize_normalize (t : Text) : normalize (normalize t) = normalize t := by
  conv_lhs => rw [normalize.eq_1 t, normalize_lower, normalize, trim_trim]
  rfl

/-! ### Words -/

/-- A word whose characters are lowercased one by one, whatever stands around them, is lowercased
as it is in front of any other text. -/
theorem exists_lowerFrom_map_append {f : Char → Char}
    (hword : ∀ c ∈ word, ∀ afterLetter rest, lowerChar afterLetter c rest = [f c])
    (afterLetter : Bool) (y : Text) : ∃ afterLetter',
      lowerFrom afterLetter (word ++ y) = word.map f ++ lowerFrom afterLetter' y := by
  induction word generalizing afterLetter with
  | nil => exact ⟨afterLetter, rfl⟩
  | cons c word ih =>
    obtain ⟨hc, hword⟩ := List.forall_mem_cons.mp hword
    obtain ⟨afterLetter', hafter⟩ := ih hword (letterPrecedes afterLetter c)
    refine ⟨afterLetter', ?_⟩
    rw [List.cons_append, lowerFrom, hc, hafter, List.singleton_append, List.map_cons,
      List.cons_append]

/-- A word in lowercase stays where it stands when a text is lowercased. -/
theorem infix_lower (hword : ∀ c ∈ word, IsLowered c) (h : word <:+: t) : word <:+: lower t := by
  obtain ⟨x, y, rfl⟩ := h
  obtain ⟨before, afterLetter, hbefore⟩ := exists_lowerFrom_append false x (word ++ y)
  obtain ⟨afterLetter', hafter⟩ := exists_lowerFrom_map_append (f := id) hword afterLetter y
  rw [List.map_id] at hafter
  refine ⟨before, lowerFrom afterLetter' y, ?_⟩
  rw [lower, List.append_assoc, List.append_assoc, hbefore, hafter]

end Text

/-! ### Signals -/

namespace Signals

open Text

variable {code name : Text}

/-- The lines of a text are searched in the same form if the text is lowercased first. -/
theorem normalLines_lower (code : Text) : normalLines (lower code) = normalLines code := by
  rw [normalLines, normalLines, lines_lower, List.map_map]
  exact List.map_congr_left fun l _ => normalize_lower l

theorem nesting_lower (code : Text) : nesting (lower code) = nesting code := by
  rw [nesting, nesting, normalLines_lower]

/-- The name of a function is in lowercase, because it comes from a line in lowercase. -/
theorem isLowered_of_mem_call (h : Defines code name) : ∀ c ∈ Line.call name, IsLowered c := by
  obtain ⟨line, hline, -, hname⟩ := h
  obtain ⟨l, -, rfl⟩ := List.mem_map.mp hline
  intro c hc
  rcases List.mem_append.mp hc with hc | hc
  · have hleftmost := Line.functionName?_eq_some_iff.mp hname
    exact isLowered_of_mem_lowerFrom (hleftmost.subset hc)
  · obtain rfl := List.mem_singleton.mp hc
    exact isLowered_of_ascii (by decide) (by decide)

/-- Recursion that is found in a text is found in the text in lowercase. -/
theorem hasRecursion_lower (h : (ofText code).hasRecursion = true) :
    (ofText (lower code)).hasRecursion = true := by
  obtain ⟨name, hdefines, hcall⟩ := hasRecursion_iff.mp h
  refine hasRecursion_iff.mpr ⟨name, ?_, ?_⟩
  · rwa [Defines, normalLines_lower]
  · exact occurs_iff.mpr (infix_lower (isLowered_of_mem_call hdefines) (occurs_iff.mp hcall))

theorem within_lower (code : Text) : (ofText code).Within (ofText (lower code)) where
  maxNestedLoops := by simp only [ofText, nesting_lower, le_refl]
  hasRecursion := hasRecursion_lower
  dataStructures := by simp only [dataStructures_ofText, normalLines_lower, List.Subset.refl]

end Signals

open Text Signals in
/-- The analysis of a text in lowercase. Each of its lines is searched in the form in which the line
of the text itself is searched, and that form is its own. So the nesting and the kinds of data
structure are the same, recursion that is found in the text is found in lowercase as well, and the
time class in lowercase is no lower. -/
theorem Analysis.ofText_lower (code : Text) :
    (lines (lower code)).map normalize = (lines code).map normalize ∧
      (∀ line, normalize (normalize line) = normalize line) ∧
      (Signals.ofText (lower code)).maxNestedLoops = (Signals.ofText code).maxNestedLoops ∧
      (Signals.ofText (lower code)).dataStructures = (Signals.ofText code).dataStructures ∧
      ((Signals.ofText code).hasRecursion = true →
        (Signals.ofText (lower code)).hasRecursion = true) ∧
      (ofText code).time.rank ≤ (ofText (lower code)).time.rank := by
  refine ⟨normalLines_lower code, normalize_normalize, ?nesting, ?kinds, hasRecursion_lower,
    (rank_le_of_within (within_lower code)).1⟩
  case nesting => simp only [Signals.ofText, nesting_lower]
  case kinds => simp only [dataStructures_ofText, normalLines_lower]

open Text in
/-- Recursion that shows up in spite of the capital letters of the definition shows up in
lowercase. -/
theorem Analysis.ofText_lower_capitalDefinition :
    (Signals.ofText "DEF Go(X):\n  go(X)".toList).hasRecursion = true ∧
      (Signals.ofText (lower "DEF Go(X):\n  go(X)".toList)).hasRecursion = true :=
  ⟨by decide, (ofText_lower "DEF Go(X):\n  go(X)".toList).2.2.2.2.1 (by decide)⟩

open Text in
/-- The way back is closed: a call hidden by its capital letter shows up in lowercase only. -/
example : (Signals.ofText "def go (x):\n  Go(x)".toList).hasRecursion = false ∧
    (Signals.ofText (lower "def go (x):\n  Go(x)".toList)).hasRecursion = true := by decide

end ComplexityGauge
