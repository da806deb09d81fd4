import ComplexityGauge.Proofs.Casing
import ComplexityGauge.Proofs.Recursion

/-!
# Names of functions

What a definition looks like, said without the searches that look for it. The name of a function is
the run of name characters behind the leftmost function keyword that at least one blank and such a
run follow. Keywords without a name behind them are passed over. At one place at most one of the
keywords can stand, because a keyword holds no blank and a blank follows it, so the order in which
they are tried does not matter.

Recursion is then a definition on one line with a call on one line. The definition is read in
lowercase and the call as it was written, so only names in lowercase are ever found to be called.

## Main definitions

* `Line.NameFollows`, `Line.Announces` — blanks and a name, and a keyword in front of them
* `Line.LeftmostName` — the name that is announced at the leftmost place

## Main results

* `Text.firstSuffix?_eq_some_iff` — a search finds the leftmost place
* `Line.functionName?_eq_some_iff` — the name of a function is announced at the leftmost place
* `Line.definesFunction_iff` — a definition by its keyword and its parentheses
* `Signals.hasRecursion_iff_definition_and_call` — recursion by pairs of lines
-/

namespace ComplexityGauge

open Text

namespace Text

variable {t word rest : Text}

/-- A search finds what is found at the leftmost place where anything is. -/
theorem firstSuffix?_eq_some_iff {α : Type} {f : Text → Option α} {x : α} :
    firstSuffix? f t = some x ↔
      ∃ p, f (t.drop p) = some x ∧ ∀ q < p, f (t.drop q) = none := by
  induction t with
  | nil =>
    rw [firstSuffix?]
    constructor
    · intro h
      exact ⟨0, h, fun q hq => absurd hq (Nat.not_lt_zero q)⟩
    · rintro ⟨p, h, -⟩
      rwa [List.drop_nil] at h
  | cons c t ih =>
    rw [firstSuffix?]
    cases hhere : f (c :: t) with
    | some y =>
      constructor
      · intro h
        exact ⟨0, hhere.trans h, fun q hq => absurd hq (Nat.not_lt_zero q)⟩
      · rintro ⟨p, hp, hbefore⟩
        -- Any later place would be behind the one at the start.
        rcases Nat.eq_zero_or_pos p with rfl | hpos
        · exact hhere.symm.trans hp
        · have hnone := hbefore 0 hpos
          rw [List.drop_zero, hhere] at hnone
          exact absurd hnone (Option.some_ne_none y)
    | none =>
      refine ih.trans ?_
      constructor
      · rintro ⟨p, hp, hbefore⟩
        refine ⟨p + 1, hp, ?_⟩
        intro q hq
        cases q with
        | zero => exact hhere
        | succ q => exact hbefore q (Nat.lt_of_succ_lt_succ hq)
      · rintro ⟨p, hp, hbefore⟩
        cases p with
        | zero => exact absurd (hhere.symm.trans hp) (Option.some_ne_none x).symm
        | succ p => exact ⟨p, hp, fun q hq => hbefore (q + 1) (Nat.succ_lt_succ hq)⟩

/-- Where no two words have different answers, the first answer is that of any word. -/
theorem findSome?_eq_some_iff_of_unique {α : Type} {f : Text → Option α} {words : List Text} {x : α}
    (h : ∀ v ∈ words, ∀ w ∈ words, ∀ y z, f v = some y → f w = some z → y = z) :
    words.findSome? f = some x ↔ ∃ w ∈ words, f w = some x := by
  refine ⟨List.exists_of_findSome?_eq_some, ?_⟩
  rintro ⟨w, hw, hx⟩
  have hsome : (words.findSome? f).isSome = true :=
    List.findSome?_isSome_iff.mpr ⟨w, hw, by rw [hx]; rfl⟩
  obtain ⟨y, hy⟩ := Option.isSome_iff_exists.mp hsome
  obtain ⟨v, hv, hfound⟩ := List.exists_of_findSome?_eq_some hy
  rw [hy, h v hv w hw y x hfound hx]

theorem after?_eq_some_iff : after? word t = some rest ↔ t = word ++ rest := by
  rw [after?]
  constructor
  · intro h
    split_ifs at h with hprefix
    obtain ⟨after, rfl⟩ := List.isPrefixOf_iff_prefix.mp hprefix
    rw [List.drop_left, Option.some.injEq] at h
    rw [h]
  · rintro rfl
    rw [if_pos (List.isPrefixOf_iff_prefix.mpr (List.prefix_append word rest)), List.drop_left]

theorem isInfix_trim (t : Text) : trim t <:+: t := by
  obtain ⟨before, after, -, -, ht⟩ := exists_eq_append_trim t
  exact ⟨before, after, ht.symm⟩

/-- A line stays a line when it is put into the form in which it is searched. -/
theorem newline_notMem_normalize (h : '\n' ∉ t) : '\n' ∉ normalize t := by
  intro hmem
  exact h ((isInfix_trim t).subset ((mem_lower_iff (by decide)).mp hmem))

/-- Lowercasing leaves no capital ASCII letter. -/
theorem not_capital_lowerAscii (c : Char) :
    ¬ (65 ≤ (lowerAscii c).toNat ∧ (lowerAscii c).toNat ≤ 90) := by
  rcases lowerAscii_cases c with h | ⟨hcapital, hsmall⟩
  · rw [h]
    rintro ⟨hlow, hhigh⟩
    -- A capital letter is not its own small form.
    have hsmall : lowerAscii c = Char.ofNat (c.toNat + 32) := if_pos (by
      rw [Bool.and_eq_true, decide_eq_true_eq, decide_eq_true_eq]
      exact ⟨hlow, hhigh⟩)
    have hvalid : (c.toNat + 32).isValidChar := by
      unfold Nat.isValidChar
      omega
    have hcode := congrArg Char.toNat (h.symm.trans hsmall)
    rw [toNat_ofNat hvalid] at hcode
    omega
  · omega

theorem not_capital_of_mem_lowerFrom {afterLetter : Bool} {c : Char}
    (h : c ∈ lowerFrom afterLetter t) : ¬ (65 ≤ c.toNat ∧ c.toNat ≤ 90) := by
  induction t generalizing afterLetter with
  | nil => exact absurd h List.not_mem_nil
  | cons d t ih =>
    rw [lowerFrom, List.mem_append] at h
    rcases h with h | h
    · rcases lowerChar_cases afterLetter d t with ⟨-, heq⟩ | heq | ⟨e, heq, he, -⟩
      · rw [heq, List.mem_cons, List.mem_singleton] at h
        rcases h with rfl | rfl <;> decide
      · rw [heq, List.mem_singleton] at h
        rw [h]
        exact not_capital_lowerAscii d
      · rw [heq, List.mem_singleton] at h
        subst h
        rw [isInert, Bool.or_eq_true, Bool.and_eq_true, decide_eq_true_eq] at he
        rcases he with he | ⟨he, -⟩
        · rw [eq_of_beq he]
          decide
        · omega
    · exact ih h

end Text

namespace Line

variable {t line name keyword : Text}

/-! ### Names -/

/-- At least one blank and then a name, which goes on as far as name characters do. -/
def NameFollows (t name : Text) : Prop :=
  ∃ blanks rest, t = blanks ++ (name ++ rest) ∧ blanks ≠ [] ∧ AllBlank blanks ∧ name ≠ [] ∧
    (∀ c ∈ name, isNameChar c = true) ∧ ∀ c ∈ rest.head?, isNameChar c = false

/-- One of the keywords with a blank and a name behind it. -/
def Announces (keywords : List Text) (t name : Text) : Prop :=
  ∃ keyword ∈ keywords, ∃ after, t = keyword ++ after ∧ NameFollows after name

/-- The name is announced somewhere by a keyword, and nothing is announced further left. -/
def LeftmostName (keywords : List Text) (line name : Text) : Prop :=
  ∃ p, Announces keywords (line.drop p) name ∧
    ∀ q < p, ∀ other, ¬ Announces keywords (line.drop q) other

theorem nameAfterBlanks?_eq_some_iff : nameAfterBlanks? t = some name ↔ NameFollows t name := by
  constructor
  · intro h
    unfold nameAfterBlanks? at h
    split at h
    · contradiction
    · contradiction
    · next hblanks hname =>
      obtain rfl := Option.some.inj h
      refine ⟨t.takeWhile isBlank, (t.dropWhile isBlank).dropWhile isNameChar, ?_, hblanks,
        fun _ => List.mem_takeWhile_imp, hname, fun _ => List.mem_takeWhile_imp,
        fun _ => eq_false_of_mem_head?_dropWhile⟩
      rw [List.takeWhile_append_dropWhile, List.takeWhile_append_dropWhile]
  · rintro ⟨blanks, rest, rfl, hgap, hblanks, hne, hname, hrest⟩
    obtain ⟨c, more, rfl⟩ := List.exists_cons_of_ne_nil hne
    -- The name starts with no blank, and what follows it with no name character.
    have hstart : isBlank c = false :=
      isBlank_eq_false_of_isNameChar (hname c List.mem_cons_self)
    have htake : (blanks ++ (c :: more ++ rest)).takeWhile isBlank = blanks := by
      rw [List.takeWhile_append_of_pos hblanks, List.cons_append,
        List.takeWhile_cons_of_neg (by simp [hstart]), List.append_nil]
    have hdrop : (blanks ++ (c :: more ++ rest)).dropWhile isBlank = c :: more ++ rest := by
      rw [List.dropWhile_append_of_pos hblanks, List.cons_append,
        List.dropWhile_cons_of_neg (by simp [hstart])]
    have hstop : rest.takeWhile isNameChar = [] := by
      cases rest with
      | nil => rfl
      | cons d rest => exact List.takeWhile_cons_of_neg (by simp [hrest d rfl])
    unfold nameAfterBlanks?
    rw [htake, hdrop, List.takeWhile_append_of_pos hname, hstop, List.append_nil]
    cases blanks with
    | nil => exact absurd rfl hgap
    | cons b blanks => rfl

/-- A keyword with a blank behind it is all of the text in front of the first blank. -/
theorem takeWhile_of_nameFollows (hkeyword : keyword ∈ functionKeywords)
    (h : NameFollows t name) : (keyword ++ t).takeWhile (fun c => !isBlank c) = keyword := by
  have hkeywords : functionKeywords.all (fun word => word.all fun c => !isBlank c) = true := by
    decide
  have hsolid : ∀ c ∈ keyword, (!isBlank c) = true :=
    List.all_eq_true.mp (List.all_eq_true.mp hkeywords keyword hkeyword)
  obtain ⟨blanks, rest, rfl, hgap, hblanks, -⟩ := h
  obtain ⟨b, more, rfl⟩ := List.exists_cons_of_ne_nil hgap
  have hb : isBlank b = true := hblanks b List.mem_cons_self
  rw [List.takeWhile_append_of_pos hsolid, List.cons_append,
    List.takeWhile_cons_of_neg (by simp [hb]), List.append_nil]

/-- At one place no two of the keywords can announce a name. -/
theorem keyword_unique {keyword' after after' other : Text} (hkeyword : keyword ∈ functionKeywords)
    (hkeyword' : keyword' ∈ functionKeywords) (hname : NameFollows after name)
    (hother : NameFollows after' other) (h : keyword ++ after = keyword' ++ after') :
    keyword = keyword' := by
  rw [← takeWhile_of_nameFollows hkeyword hname, h, takeWhile_of_nameFollows hkeyword' hother]

/-- The keywords are tried in some order, which does not matter to the name that is found. -/
theorem findSome?_eq_some_iff_of_subset {keywords : List Text} (h : keywords ⊆ functionKeywords) :
    (keywords.findSome? fun keyword => (after? keyword t).bind nameAfterBlanks?) = some name ↔
      ∃ keyword ∈ keywords, ∃ after, t = keyword ++ after ∧ NameFollows after name := by
  have hone (keyword : Text) {found : Text} :
      (after? keyword t).bind nameAfterBlanks? = some found ↔
        ∃ after, t = keyword ++ after ∧ NameFollows after found := by
    simp only [Option.bind_eq_some_iff, after?_eq_some_iff, nameAfterBlanks?_eq_some_iff]
  simp only [← hone]
  apply findSome?_eq_some_iff_of_unique
  intro keyword hkeyword keyword' hkeyword' found other hfound hother
  obtain ⟨after, rfl, hname⟩ := (hone keyword).mp hfound
  obtain ⟨after', heq, hname'⟩ := (hone keyword').mp hother
  -- Whatever else is found stands behind the same keyword, and so it is the same name.
  obtain rfl := keyword_unique (h hkeyword) (h hkeyword') hname hname' heq
  exact Option.some.inj (hfound.symm.trans hother)

theorem startingName?_eq_some_iff :
    startingName? t = some name ↔ Announces functionKeywords t name :=
  findSome?_eq_some_iff_of_subset (List.Subset.refl _)

/-- The name of a function is the one announced at the leftmost place. -/
theorem functionName?_eq_some_iff :
    functionName? line = some name ↔ LeftmostName functionKeywords line name := by
  rw [functionName?, firstSuffix?_eq_some_iff]
  simp only [startingName?_eq_some_iff, LeftmostName, Option.eq_none_iff_forall_ne_some, ne_eq]

/-! ### Definitions -/

theorem holdsGroup_iff : holdsGroup t = true ↔ ['(', ')'].Sublist t := by
  induction t with
  | nil => decide
  | cons c t ih =>
    by_cases hc : c = '('
    · subst hc
      rw [holdsGroup, List.dropWhile_cons_of_neg (by decide), List.cons_sublist_cons,
        List.singleton_sublist, List.contains_iff_mem, List.mem_cons]
      exact or_iff_right (by decide)
    · rw [holdsGroup, List.dropWhile_cons_of_pos (by simpa using hc), ← holdsGroup, ih]
      constructor
      · exact fun h => h.cons c
      · intro h
        cases h with
        | cons _ h => exact h
        | cons_cons => exact absurd rfl hc

/-- Of the function keywords, the longest adds nothing to the one that it starts with. -/
theorem any_occurs_functionKeywords_iff :
    functionKeywords.any (occurs · t) = true ↔ "def".toList <:+: t ∨ "func".toList <:+: t := by
  have hlong : "function".toList <:+: t → "func".toList <:+: t := by
    have hfunc : "func".toList <:+: "function".toList := by decide
    exact hfunc.trans
  simp only [functionKeywords, List.any_cons, List.any_nil, Bool.or_false, Bool.or_eq_true,
    occurs_iff]
  constructor
  · rintro (h | h | h)
    · exact Or.inr (hlong h)
    · exact Or.inl h
    · exact Or.inr h
  · rintro (h | h)
    · exact Or.inr (Or.inl h)
    · exact Or.inr (Or.inr h)

/-- A definition holds a function keyword, and an opening parenthesis with a closing one behind
it. -/
theorem definesFunction_iff (h : '\n' ∉ t) :
    definesFunction t = true ↔
      ("def".toList <:+: t ∨ "func".toList <:+: t) ∧ ['(', ')'].Sublist t := by
  rw [definesFunction, Bool.and_eq_true, lines_of_newline_notMem h, List.any_cons, List.any_nil,
    Bool.or_false, holdsGroup_iff, any_occurs_functionKeywords_iff]

/-- An announced name stands in the line. -/
theorem LeftmostName.subset {keywords : List Text} (h : LeftmostName keywords line name) :
    name ⊆ line := by
  obtain ⟨p, ⟨keyword, -, after, hline, blanks, rest, rfl, -⟩, -⟩ := h
  have hname : name <:+: line.drop p := by
    rw [hline, ← List.append_assoc]
    exact ⟨keyword ++ blanks, rest, by simp⟩
  exact List.Subset.trans hname.subset (List.drop_subset p line)

end Line

namespace Signals

variable {code : Text}

/-- A name found in lowercase is made of small letters, digits and underscores. -/
theorem small_of_leftmostName {line name : Text}
    (h : Line.LeftmostName Line.functionKeywords (normalize line) name) :
    name ≠ [] ∧ ∀ c ∈ name, isDigit c = true ∨ ('a' ≤ c ∧ c ≤ 'z') ∨ c = '_' := by
  obtain ⟨hne, hname⟩ := Line.isNameChar_of_functionName? (Line.functionName?_eq_some_iff.mpr h)
  refine ⟨hne, fun c hc => ?_⟩
  have hcapital := not_capital_of_mem_lowerFrom (h.subset hc)
  have hchar := hname c hc
  simp only [Line.isNameChar, Bool.or_eq_true, Bool.and_eq_true, decide_eq_true_eq,
    beq_iff_eq] at hchar
  rcases hchar with ((hdigit | hsmall) | hlarge) | hscore
  · exact Or.inl hdigit
  · exact Or.inr (Or.inl hsmall)
  · exact absurd hlarge hcapital
  · exact Or.inr (Or.inr hscore)

theorem exists_last_of_leftmostName {line name : Text}
    (h : Line.LeftmostName Line.functionKeywords (normalize line) name) :
    ∃ c, (isDigit c = true ∨ ('a' ≤ c ∧ c ≤ 'z') ∨ c = '_') ∧ [c] <:+ name := by
  obtain ⟨hne, hsmall⟩ := small_of_leftmostName h
  exact ⟨name.getLast hne, hsmall _ (List.getLast_mem hne),
    ⟨name.dropLast, List.dropLast_append_getLast hne⟩⟩

/-- A text counts as recursive exactly if one of its lines, in lowercase, holds `def` or `func` and
a pair of parentheses, and the name announced at the leftmost place of that line stands right
before an opening parenthesis on some line as it was written. So a small letter, a digit or an
underscore stands right before an opening parenthesis in every such text. -/
theorem hasRecursion_iff_definition_and_call (code : Text) :
    ((ofText code).hasRecursion = true ↔
      ∃ l ∈ lines code, ∃ m ∈ lines code, ∃ name,
        ("def".toList <:+: normalize l ∨ "func".toList <:+: normalize l) ∧
          ['(', ')'].Sublist (normalize l) ∧
          Line.LeftmostName ["function".toList, "def".toList, "func".toList] (normalize l) name ∧
          name ++ ['('] <:+: m) ∧
      ((ofText code).hasRecursion = true →
        ∃ c, (isDigit c = true ∨ ('a' ≤ c ∧ c ≤ 'z') ∨ c = '_') ∧ [c, '('] <:+: code) := by
  have hlines : (ofText code).hasRecursion = true ↔
      ∃ l ∈ lines code, ∃ m ∈ lines code, ∃ name,
        ("def".toList <:+: normalize l ∨ "func".toList <:+: normalize l) ∧
          ['(', ')'].Sublist (normalize l) ∧
          Line.LeftmostName Line.functionKeywords (normalize l) name ∧ name ++ ['('] <:+: m := by
    rw [hasRecursion_iff_exists_lines]
    refine exists_congr fun l => and_congr_right fun hl => ?_
    refine exists_congr fun m => and_congr_right fun _ => ?_
    rw [callsItself_iff,
      Line.definesFunction_iff (newline_notMem_normalize (newline_notMem_of_mem_lines hl))]
    simp only [Line.functionName?_eq_some_iff, occurs_iff, Line.call, exists_and_left, and_assoc]
  refine ⟨hlines, ?_⟩
  intro h
  obtain ⟨l, -, m, hm, name, -, -, hname, hcall⟩ := hlines.mp h
  obtain ⟨c, hc, before, hlast⟩ := exists_last_of_leftmostName hname
  refine ⟨c, hc, ?_⟩
  have hword : '\n' ∉ [c, '('] := by
    rw [List.mem_cons, not_or]
    refine ⟨?_, by decide⟩
    rintro rfl
    revert hc
    decide
  -- The character and the parenthesis stand on the line of the call, and so in the text.
  refine occurs_iff.mp ((occurs_iff_exists_line hword).mpr ⟨m, hm, occurs_iff.mpr ?_⟩)
  refine List.IsInfix.trans ⟨before, [], ?_⟩ hcall
  rw [← hlast, List.append_assoc, List.append_nil, List.append_assoc]
  rfl

/-- The keyword `def` announces nothing here, and the name behind `func` is called on the next
line. A capital letter in the call makes it another word. -/
example : (ofText "def: func go (x)\ngo(1)".toList).hasRecursion = true ∧
    (ofText "def: func Go (x)\nGo(1)".toList).hasRecursion = false := by decide

end Signals

end ComplexityGauge
