import ComplexityGauge.Proofs.Lowering

/-!
# Plain definitions

A line that starts with a function keyword, goes on with blanks, a name in small letters and a pair
of parentheses right behind the name is a definition of that name. It also holds the name with an
opening parenthesis, which is what a call looks like. So every text with such a line counts as
recursive, whether or not anything on its other lines calls the function.

The keyword stands at the start of the trimmed line, so no place further left can announce another
name. Up to the opening parenthesis the line consists of ASCII characters and blanks. These are
lowercased one by one, whatever follows them, and what follows may be any text.

## Main definitions

* `Line.PlainlyDefines` — a line of this form, with its name

## Main results

* `Text.exists_trim_append` — what trimming leaves of a text with a solid start
* `Line.PlainlyDefines.exists_normalize` — the form in which such a line is searched
* `Analysis.ofText_plainDefinition` — a text with such a line
-/

namespace ComplexityGauge

open Text

namespace Text

variable {c d : Char} {t margin start rest : Text}

/-! ### The start of a line -/

theorem map_lowerAscii_eq_self (h : ∀ c ∈ t, lowerAscii c = c) : t.map lowerAscii = t :=
  (List.map_congr_left h).trans (List.map_id' t)

/-- Trimming leaves all that stands between two characters that are no blanks. -/
theorem exists_trim_append (hc : isBlank c = false) (hd : isBlank d = false) (hmem : d ∈ rest) :
    ∃ rest', trim (c :: start ++ rest) = c :: start ++ rest' ∧ d ∈ rest' := by
  obtain ⟨before, after, hbefore, hafter, ht⟩ := exists_eq_append_trim (c :: start ++ rest)
  have hfront : before = [] := by
    -- A blank that is cut off in front would be the character `c`.
    cases before with
    | nil => rfl
    | cons b before =>
      obtain ⟨rfl, -⟩ := List.cons.inj ht
      exact absurd (hbefore c List.mem_cons_self) (by simp [hc])
  have hback : d ∉ after := by
    intro hcut
    exact absurd (hafter d hcut) (by simp [hd])
  rw [hfront, List.nil_append] at ht
  rcases List.append_eq_append_iff.mp ht with ⟨rest', htrim, hrest⟩ | ⟨cut, -, hcut⟩
  · refine ⟨rest', htrim, ?_⟩
    rw [hrest, List.mem_append] at hmem
    exact hmem.resolve_right hback
  · -- If the cut went into the start, all of `rest` would be cut off, and `d` with it.
    rw [hcut] at hback
    exact absurd (List.mem_append_right cut hmem) hback

/-- ASCII characters and blanks are lowercased one by one. -/
theorem lowerChar_of_ascii_or_blank (hc : c.toNat < 128 ∨ isBlank c = true) (afterLetter : Bool)
    (rest : Text) : lowerChar afterLetter c rest = [lowerAscii c] := by
  rcases hc with hc | hc
  · have hdotted : c ≠ dottedCapitalI := by
      rintro rfl
      exact absurd hc (by decide)
    have hsigma : c ≠ capitalSigma := by
      rintro rfl
      exact absurd hc (by decide)
    rw [lowerChar, if_neg hdotted, if_neg hsigma, lowerSimple, if_pos hc]
  · rw [isLowered_of_isBlank hc, lowerAscii_of_isBlank hc]

/-- A character that becomes an ASCII character is one itself. -/
theorem ascii_of_ascii_lowerAscii (h : (lowerAscii c).toNat < 128) : c.toNat < 128 := by
  by_contra hbeyond
  rw [lowerAscii_of_beyond (Nat.not_lt.mp hbeyond)] at h
  exact hbeyond h

/-- A parenthesis stays when the text around it is lowercased, after a letter or not. -/
theorem closing_mem_lowerFrom (h : ')' ∈ t) (afterLetter : Bool) :
    ')' ∈ lowerFrom afterLetter t := by
  apply ((resembles_lowerFrom afterLetter t).mem_iff (by decide) (by decide)).mpr
  exact List.mem_map.mpr ⟨')', h, rfl⟩

/-- A margin is cut off, and a start of ASCII characters and blanks is lowercased one by one, if a
parenthesis behind it keeps it from the end of the text. -/
theorem exists_normalize_append (hmargin : AllBlank margin) (hc : isBlank c = false)
    (hstart : ∀ d ∈ c :: start, d.toNat < 128 ∨ isBlank d = true) (hrest : ')' ∈ rest) :
    ∃ rest', normalize (margin ++ (c :: start ++ rest)) = (c :: start).map lowerAscii ++ rest' ∧
      ')' ∈ rest' := by
  obtain ⟨rest', htrim, hrest'⟩ :
      ∃ rest', trim (c :: start ++ rest) = c :: start ++ rest' ∧ ')' ∈ rest' :=
    exists_trim_append hc (by decide) hrest
  obtain ⟨afterLetter, hlower⟩ :=
    exists_lowerFrom_map_append (fun d hd => lowerChar_of_ascii_or_blank (hstart d hd)) false rest'
  refine ⟨lowerFrom afterLetter rest', ?_, closing_mem_lowerFrom hrest' afterLetter⟩
  rw [normalize, trim_append_of_allBlank hmargin, htrim, lower, hlower]

end Text

namespace Line

variable {c : Char} {line name : Text}

/-! ### Plain definitions -/

/-- A character of a name in small letters. -/
def IsSmallNameChar (c : Char) : Prop := isDigit c = true ∨ ('a' ≤ c ∧ c ≤ 'z') ∨ c = '_'

/-- The line defines a function of that name: blanks, a function keyword in small or capital
letters, at least one blank, the name in small letters, and right behind it a parenthesis that
opens and is closed somewhere on the line. -/
inductive PlainlyDefines (name : Text) : Text → Prop
  | intro (margin keyword gap rest : Text) (margin_blank : AllBlank margin)
    (keyword_listed : keyword.map lowerAscii ∈ functionKeywords) (gap_ne_nil : gap ≠ [])
    (gap_blank : AllBlank gap) (name_ne_nil : name ≠ [])
    (name_small : ∀ c ∈ name, IsSmallNameChar c) (closed : ')' ∈ rest) :
    PlainlyDefines name (margin ++ (keyword ++ (gap ++ (name ++ '(' :: rest))))

theorem IsSmallNameChar.isNameChar (h : IsSmallNameChar c) : isNameChar c = true := by
  simp only [Line.isNameChar, Bool.or_eq_true, Bool.and_eq_true, decide_eq_true_eq, beq_iff_eq]
  rcases h with h | h | h
  · exact Or.inl (Or.inl (Or.inl h))
  · exact Or.inl (Or.inl (Or.inr h))
  · exact Or.inr h

/-- A character of a name in small letters is in ASCII and no capital. -/
theorem IsSmallNameChar.toNat (h : IsSmallNameChar c) :
    c.toNat < 128 ∧ ¬ (65 ≤ c.toNat ∧ c.toNat ≤ 90) := by
  rcases h with h | ⟨hlow, hhigh⟩ | rfl
  · simp only [isDigit, Bool.and_eq_true, decide_eq_true_eq] at h
    obtain ⟨hlow, hhigh⟩ := h
    change 48 ≤ c.toNat at hlow
    change c.toNat ≤ 57 at hhigh
    omega
  · change 97 ≤ c.toNat at hlow
    change c.toNat ≤ 122 at hhigh
    omega
  · decide

theorem IsSmallNameChar.lowerAscii_eq (h : IsSmallNameChar c) : lowerAscii c = c := by
  rcases lowerAscii_cases c with hsame | ⟨hcapital, -⟩
  · exact hsame
  · exact absurd hcapital h.toNat.2

/-- A function keyword in small or capital letters is a word in ASCII without a blank. -/
theorem ascii_of_keyword {keyword : Text} (h : keyword.map lowerAscii ∈ functionKeywords) :
    keyword ≠ [] ∧ ∀ c ∈ keyword, c.toNat < 128 ∧ isBlank c = false := by
  have hkeywords : ∀ word ∈ functionKeywords,
      word ≠ [] ∧ (word.all fun c => c.toNat < 128 && !isBlank c) = true := by
    decide
  obtain ⟨hne, hlower⟩ := hkeywords _ h
  refine ⟨List.map_eq_nil_iff.not.mp hne, ?_⟩
  intro c hc
  have hsmall := List.all_eq_true.mp hlower _ (List.mem_map_of_mem hc)
  rw [Bool.and_eq_true, decide_eq_true_eq, Bool.not_eq_true'] at hsmall
  obtain ⟨hascii, hsolid⟩ := hsmall
  refine ⟨ascii_of_ascii_lowerAscii hascii, ?_⟩
  -- A blank is its own lowercase form, and no keyword holds one.
  by_contra hblank
  rw [Bool.not_eq_false] at hblank
  rw [lowerAscii_of_isBlank hblank, hblank] at hsolid
  exact Bool.noConfusion hsolid

/-- In the form in which lines are searched such a line starts with its keyword. The name follows,
and the parentheses are still there. -/
theorem PlainlyDefines.exists_normalize (h : PlainlyDefines name line) :
    ∃ keyword ∈ functionKeywords, ∃ after, normalize line = keyword ++ after ∧
      NameFollows after name ∧ ['(', ')'].Sublist after := by
  obtain ⟨margin, keyword, gap, rest, hmargin, hkeyword, hgapne, hgap, hne, hname, hclosed⟩ := h
  obtain ⟨hkeywordne, hascii⟩ := ascii_of_keyword hkeyword
  obtain ⟨k, more, rfl⟩ := List.exists_cons_of_ne_nil hkeywordne
  -- The line up to the opening parenthesis, the margin apart.
  have hstart : ∀ c ∈ k :: (more ++ (gap ++ (name ++ ['(']))),
      c.toNat < 128 ∨ isBlank c = true := by
    intro c hc
    rw [← List.cons_append, List.mem_append, List.mem_append, List.mem_append,
      List.mem_singleton] at hc
    rcases hc with hc | hc | hc | rfl
    · exact Or.inl (hascii c hc).1
    · exact Or.inr (hgap c hc)
    · exact Or.inl (hname c hc).toNat.1
    · exact Or.inl (by decide)
  obtain ⟨rest', hform, hclosed'⟩ :=
    exists_normalize_append hmargin (hascii k List.mem_cons_self).2 hstart hclosed
  -- Of these characters only those of the keyword change.
  have hsame : (gap ++ (name ++ ['('])).map lowerAscii = gap ++ (name ++ ['(']) := by
    apply map_lowerAscii_eq_self
    intro c hc
    rw [List.mem_append, List.mem_append, List.mem_singleton] at hc
    rcases hc with hc | hc | rfl
    · exact lowerAscii_of_isBlank (hgap c hc)
    · exact (hname c hc).lowerAscii_eq
    · rfl
  rw [← List.cons_append, List.map_append, hsame] at hform
  refine ⟨_, hkeyword, gap ++ (name ++ '(' :: rest'), by simpa using hform, ?name, ?group⟩
  case name =>
    refine ⟨gap, _, rfl, hgapne, hgap, hne, fun c hc => (hname c hc).isNameChar, ?_⟩
    -- The name ends at the opening parenthesis.
    rintro c ⟨⟩
    decide
  case group =>
    have hgroup : ['(', ')'].Sublist ('(' :: rest') :=
      (List.singleton_sublist.mpr hclosed').cons_cons '('
    exact (hgroup.trans (List.sublist_append_right name _)).trans (List.sublist_append_right gap _)

/-- Such a line defines the function in the form in which it is searched. -/
theorem PlainlyDefines.defines (h : PlainlyDefines name line) (hline : '\n' ∉ line) :
    definesFunction (normalize line) = true ∧ functionName? (normalize line) = some name := by
  obtain ⟨keyword, hkeyword, after, hform, hname, hgroup⟩ := h.exists_normalize
  constructor
  · rw [definesFunction, Bool.and_eq_true, lines_of_newline_notMem (newline_notMem_normalize hline),
      List.any_cons, List.any_nil, Bool.or_false, holdsGroup_iff, List.any_eq_true, hform]
    exact ⟨⟨keyword, hkeyword, occurs_iff.mpr (List.prefix_append _ _).isInfix⟩,
      hgroup.trans (List.sublist_append_right keyword after)⟩
  · -- No place is further left than the start of the line.
    refine functionName?_eq_some_iff.mpr ⟨0, ?_, fun q hq => absurd hq (Nat.not_lt_zero q)⟩
    rw [List.drop_zero]
    exact ⟨keyword, hkeyword, after, hform, hname⟩

/-- The name of the definition stands in front of an opening parenthesis on the same line. -/
theorem PlainlyDefines.call_infix (h : PlainlyDefines name line) : call name <:+: line := by
  obtain ⟨margin, keyword, gap, rest, -⟩ := h
  refine ⟨margin ++ (keyword ++ gap), rest, ?_⟩
  simp [call]

end Line

/-! ### Texts with a plain definition -/

theorem Signals.hasRecursion_of_plainlyDefines {code line name : Text} (hline : line ∈ lines code)
    (h : Line.PlainlyDefines name line) : (ofText code).hasRecursion = true := by
  obtain ⟨hdefines, hname⟩ := h.defines (newline_notMem_of_mem_lines hline)
  refine hasRecursion_iff.mpr ⟨name, ⟨normalize line, List.mem_map_of_mem hline, hdefines, hname⟩,
    (occurs_iff_exists_line (Line.newline_notMem_call hname)).mpr ⟨line, hline, ?_⟩⟩
  exact occurs_iff.mpr h.call_infix

namespace Analysis

/-- A text with a plain definition on one of its lines counts as recursive, whatever its other lines
are, and so its time label is the highest and its rating the worst. -/
theorem ofText_plainDefinition {code line name : Text} (hline : line ∈ lines code)
    (h : Line.PlainlyDefines name line) :
    (Signals.ofText code).hasRecursion = true ∧ (ofText code).time.label = "O(2^n)".toList ∧
      (ofText code).timeRating = .poor := by
  have hrecursion := Signals.hasRecursion_of_plainlyDefines hline h
  have hlabel : (ofText code).time.label = "O(2^n)".toList :=
    TimeClass.label_eq_exponential_iff.mpr hrecursion
  refine ⟨hrecursion, hlabel, ?_⟩
  rw [timeRating, hlabel]
  decide

/-- A definition that nothing calls, with its keyword in capitals and a second keyword between the
parentheses, behind a line that opens a loop. -/
theorem ofText_plainDefinition_afterLoop :
    "\tFUNC go_2(\u212A def x)".toList ∈ lines "while x:\n\tFUNC go_2(\u212A def x)".toList ∧
      Line.PlainlyDefines "go_2".toList "\tFUNC go_2(\u212A def x)".toList ∧
      (ofText "while x:\n\tFUNC go_2(\u212A def x)".toList).timeRating = .poor := by
  have hline : "\tFUNC go_2(\u212A def x)".toList ∈
      lines "while x:\n\tFUNC go_2(\u212A def x)".toList := by decide
  have hplain : Line.PlainlyDefines "go_2".toList "\tFUNC go_2(\u212A def x)".toList :=
    .intro "\t".toList "FUNC".toList " ".toList "\u212A def x)".toList
      (by simp [AllBlank, isBlank]) (by decide) (by decide) (by simp [AllBlank, isBlank])
      (by decide) (by simp [Line.IsSmallNameChar, isDigit]) (by decide)
  exact ⟨hline, hplain, (ofText_plainDefinition hline hplain).2.2⟩

end Analysis

end ComplexityGauge
