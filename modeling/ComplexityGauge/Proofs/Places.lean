import ComplexityGauge.Proofs.Naming
import ComplexityGauge.Proofs.Patterns
import Mathlib.Data.Nat.Find

/-!
# Where the patterns of a line stand

The patterns of a line by the places in it, counted from zero. A line opens a loop by a keyword, or
by a `do` and a later opening brace with nothing but blanks between them. A line defines a function
by a keyword and, wherever that stands, an opening parenthesis and a later closing one with no line
feed between them. Any two places will do, so a first candidate that leads nowhere hides no other.

In a text that is one line, no line feed comes between the parentheses. There the first opening one
and the last closing one decide, as they are the two that are furthest apart.

## Main definitions

* `Text.StandsAt`, `Text.AllFrom` — a word at a place, and what all characters of a stretch satisfy
* `Text.FirstAt`, `Text.LastAt` — the first and the last place of a character
* `Line.HoldsPair` — two parentheses with no line feed between them

## Main results

* `Text.anySuffix_iff_exists_drop` — a search tries every place
* `Line.startsDoBlock_drop_iff`, `Line.startsGroup_drop_iff` — what starts at a place
* `Line.patterns_iff_places` — both patterns in full
-/

namespace ComplexityGauge

open Text

namespace Text

variable {c d : Char} {t word : Text} {p : Char → Bool} {i j n : ℕ}

/-! ### Places -/

/-- The word stands in the text from the place `i` on. -/
def StandsAt (word t : Text) (i : ℕ) : Prop := word <+: t.drop i

/-- All characters from the place `i` on and before the place `j` satisfy `p`. -/
def AllFrom (p : Char → Bool) (t : Text) (i j : ℕ) : Prop :=
  ∀ k c, i ≤ k → k < j → t[k]? = some c → p c = true

instance (word t : Text) (i : ℕ) : Decidable (StandsAt word t i) :=
  inferInstanceAs (Decidable (word <+: t.drop i))

theorem allFrom_iff_forall_lt :
    AllFrom p t i j ↔ ∀ k < j, i ≤ k → (t[k]?).all p = true := by
  simp only [AllFrom, Option.all_eq_true]
  exact ⟨fun h k hj hi c hc => h k c hi hj hc, fun h k c hi hj hc => h k hj hi c hc⟩

instance (p : Char → Bool) (t : Text) (i j : ℕ) : Decidable (AllFrom p t i j) :=
  decidable_of_iff _ allFrom_iff_forall_lt.symm

/-- The character stands at the place, and at no earlier one. -/
structure FirstAt (c : Char) (t : Text) (i : ℕ) : Prop where
  here : t[i]? = some c
  before : ∀ k < i, t[k]? ≠ some c

/-- The character stands at the place, and at no later one. -/
structure LastAt (c : Char) (t : Text) (j : ℕ) : Prop where
  here : t[j]? = some c
  after : ∀ k, j < k → t[k]? ≠ some c

/-- A search succeeds exactly if it does at some place. -/
theorem anySuffix_iff_exists_drop {p : Text → Bool} :
    anySuffix p t = true ↔ ∃ i, p (t.drop i) = true := by
  rw [anySuffix_iff]
  constructor
  · rintro ⟨rest, hrest, h⟩
    rw [List.suffix_iff_eq_drop.mp hrest] at h
    exact ⟨_, h⟩
  · rintro ⟨i, h⟩
    exact ⟨t.drop i, List.drop_suffix i t, h⟩

theorem after?_drop_eq_some_iff {rest : Text} :
    after? word (t.drop i) = some rest ↔ StandsAt word t i ∧ rest = t.drop (i + word.length) := by
  rw [after?_eq_some_iff, StandsAt, ← List.drop_drop]
  constructor
  · intro h
    rw [h, List.drop_left]
    exact ⟨List.prefix_append word rest, rfl⟩
  · rintro ⟨⟨more, h⟩, rfl⟩
    rw [← h, List.drop_left]

/-- A word and a test of what follows it, at a place. -/
theorem any_after?_drop_iff {q : Text → Bool} :
    (after? word (t.drop i)).any q = true ↔
      StandsAt word t i ∧ q (t.drop (i + word.length)) = true := by
  rw [Option.any_eq_true]
  constructor
  · rintro ⟨rest, hrest, h⟩
    obtain ⟨hstands, rfl⟩ := after?_drop_eq_some_iff.mp hrest
    exact ⟨hstands, h⟩
  · rintro ⟨hstands, h⟩
    exact ⟨_, after?_drop_eq_some_iff.mpr ⟨hstands, rfl⟩, h⟩

theorem standsAt_singleton_iff : StandsAt [c] t i ↔ t[i]? = some c := by
  rw [StandsAt, ← List.head?_drop]
  cases t.drop i with
  | nil => simp
  | cons d rest => simp [eq_comm]

theorem allFrom_drop_iff : AllFrom p (t.drop n) i j ↔ AllFrom p t (n + i) (n + j) := by
  constructor
  · intro h k c hi hj hc
    obtain ⟨k, rfl⟩ := Nat.exists_eq_add_of_le (Nat.le_of_add_right_le hi)
    exact h k c (by omega) (by omega) (by rwa [List.getElem?_drop])
  · intro h k c hi hj hc
    rw [List.getElem?_drop] at hc
    exact h (n + k) c (by omega) (by omega) hc

theorem allFrom_cons_iff : AllFrom p (c :: t) 0 (j + 1) ↔ p c = true ∧ AllFrom p t 0 j := by
  constructor
  · intro h
    refine ⟨h 0 c le_rfl (Nat.succ_pos j) rfl, fun k d _ hk hd => ?_⟩
    exact h (k + 1) d (Nat.zero_le _) (Nat.succ_lt_succ hk) hd
  · rintro ⟨hc, h⟩ k d - hk hd
    cases k with
    | zero =>
      obtain rfl := Option.some.inj hd
      exact hc
    | succ k => exact h k d (Nat.zero_le k) (Nat.lt_of_succ_lt_succ hk) hd

/-! A character is reached from a place if all characters before it satisfy `p`. -/

theorem exists_reached_cons_iff :
    (∃ j, (d :: t)[j]? = some c ∧ AllFrom p (d :: t) 0 j) ↔
      d = c ∨ p d = true ∧ ∃ j, t[j]? = some c ∧ AllFrom p t 0 j := by
  constructor
  · rintro ⟨j, hj, hall⟩
    cases j with
    | zero => exact Or.inl (Option.some.inj hj)
    | succ j =>
      obtain ⟨hd, hall⟩ := allFrom_cons_iff.mp hall
      exact Or.inr ⟨hd, j, hj, hall⟩
  · rintro (rfl | ⟨hd, j, hj, hall⟩)
    · exact ⟨0, rfl, fun k _ _ hk => absurd hk (Nat.not_lt_zero k)⟩
    · exact ⟨j + 1, hj, allFrom_cons_iff.mpr ⟨hd, hall⟩⟩

theorem exists_reached_drop_iff :
    (∃ k, (t.drop n)[k]? = some c ∧ AllFrom p (t.drop n) 0 k) ↔
      ∃ j, n ≤ j ∧ t[j]? = some c ∧ AllFrom p t n j := by
  constructor
  · rintro ⟨k, hk, hall⟩
    rw [List.getElem?_drop] at hk
    exact ⟨n + k, Nat.le_add_right n k, hk, allFrom_drop_iff.mp hall⟩
  · rintro ⟨j, hj, hc, hall⟩
    obtain ⟨k, rfl⟩ := Nat.exists_eq_add_of_le hj
    refine ⟨k, ?_, allFrom_drop_iff.mpr hall⟩
    rwa [List.getElem?_drop]

/-- The first character that is not passed over is one that is reached. -/
theorem head?_dropWhile_eq_some_iff :
    (t.dropWhile p).head? = some c ↔
      p c = false ∧ ∃ j, t[j]? = some c ∧ AllFrom p t 0 j := by
  induction t with
  | nil => simp
  | cons d t ih =>
    rw [exists_reached_cons_iff]
    by_cases hd : p d = true
    · rw [List.dropWhile_cons_of_pos hd, ih]
      refine and_congr_right fun hc => ?_
      have hne : d ≠ c := by
        rintro rfl
        exact Bool.eq_false_iff.mp hc hd
      rw [or_iff_right hne, and_iff_right hd]
    · rw [List.dropWhile_cons_of_neg hd, List.head?_cons, Option.some_inj]
      constructor
      · rintro rfl
        exact ⟨Bool.eq_false_iff.mpr hd, Or.inl rfl⟩
      · rintro ⟨-, heq | ⟨hpos, -⟩⟩
        · exact heq
        · exact absurd hpos hd

/-- The stretch at the start whose characters satisfy `p` holds the ones of these that are
reached. -/
theorem mem_takeWhile_iff_reached :
    c ∈ t.takeWhile p ↔ p c = true ∧ ∃ j, t[j]? = some c ∧ AllFrom p t 0 j := by
  induction t with
  | nil => simp
  | cons d t ih =>
    rw [exists_reached_cons_iff]
    by_cases hd : p d = true
    · rw [List.takeWhile_cons_of_pos hd, List.mem_cons, ih]
      constructor
      · rintro (rfl | ⟨hc, hreached⟩)
        · exact ⟨hd, Or.inl rfl⟩
        · exact ⟨hc, Or.inr ⟨hd, hreached⟩⟩
      · rintro ⟨hc, rfl | ⟨-, hreached⟩⟩
        · exact Or.inl rfl
        · exact Or.inr ⟨hc, hreached⟩
    · rw [List.takeWhile_cons_of_neg hd]
      refine iff_of_false List.not_mem_nil ?_
      rintro ⟨hc, rfl | ⟨hpos, -⟩⟩
      · exact hd hc
      · exact hd hpos

/-! ### The first and the last place -/

theorem exists_firstAt (h : t[i]? = some c) : ∃ first ≤ i, FirstAt c t first := by
  have hsome : ∃ k, t[k]? = some c := ⟨i, h⟩
  exact ⟨Nat.find hsome, Nat.find_min' hsome h, Nat.find_spec hsome, fun _ => Nat.find_min hsome⟩

theorem exists_lastAt (h : t[j]? = some c) : ∃ last, j ≤ last ∧ LastAt c t last := by
  obtain ⟨hlt, -⟩ := List.getElem?_eq_some_iff.mp h
  have hlast := Nat.findGreatest_spec (P := fun k => t[k]? = some c) hlt.le h
  refine ⟨_, Nat.le_findGreatest hlt.le h, hlast, ?_⟩
  intro k hk hc
  obtain ⟨hklt, -⟩ := List.getElem?_eq_some_iff.mp hc
  exact Nat.findGreatest_is_greatest hk hklt.le hc

end Text

namespace Line

variable {l : Text} {i : ℕ}

/-! ### Loops -/

/-- A `do` and behind it, after blanks at most, an opening brace. -/
theorem startsDoBlock_drop_iff :
    startsDoBlock (l.drop i) = true ↔
      ∃ j, i < j ∧ StandsAt "do".toList l i ∧ l[j]? = some '{' ∧ AllFrom isBlank l (i + 2) j := by
  have hbrace : startsBrace (l.drop (i + 2)) = true ↔
      ∃ j, i + 2 ≤ j ∧ l[j]? = some '{' ∧ AllFrom isBlank l (i + 2) j := by
    rw [startsBrace, beq_iff_eq, head?_dropWhile_eq_some_iff, and_iff_right (by decide),
      exists_reached_drop_iff]
  rw [startsDoBlock_eq_any_after?, any_after?_drop_iff]
  constructor
  · rintro ⟨hdo, h⟩
    obtain ⟨j, hij, hj, hall⟩ := hbrace.mp h
    exact ⟨j, by omega, hdo, hj, hall⟩
  · rintro ⟨j, hij, hdo, hj, hall⟩
    -- The place behind the `d` holds the `o`, so the brace stands behind both.
    have hnext : j ≠ i + 1 := by
      rintro rfl
      obtain ⟨rest, hrest⟩ := hdo
      have ho : (l.drop i)[1]? = some 'o' := by rw [← hrest]; rfl
      rw [List.getElem?_drop, hj] at ho
      exact absurd ho (by decide)
    exact ⟨hdo, hbrace.mpr ⟨j, by omega, hj, hall⟩⟩

theorem opensLoop_iff : opensLoop l = true ↔
    "for".toList <:+: l ∨ "while".toList <:+: l ∨
      ∃ i j, i < j ∧ StandsAt "do".toList l i ∧ l[j]? = some '{' ∧
        AllFrom isBlank l (i + 2) j := by
  rw [opensLoop, Bool.or_eq_true, anySuffix_iff_exists_drop]
  simp only [startsDoBlock_drop_iff, loopKeywords, List.any_cons, List.any_nil, Bool.or_false,
    Bool.or_eq_true, occurs_iff, or_assoc]

/-! ### Parentheses -/

/-- Somewhere in the text stands an opening parenthesis, and behind it a closing one with no line
feed between them. -/
def HoldsPair (t : Text) : Prop :=
  ∃ i j, i < j ∧ t[i]? = some '(' ∧ t[j]? = some ')' ∧ AllFrom (· ≠ '\n') t (i + 1) j

theorem startsGroup_drop_iff :
    startsGroup (l.drop i) = true ↔
      ∃ j, i < j ∧ l[i]? = some '(' ∧ l[j]? = some ')' ∧ AllFrom (· ≠ '\n') l (i + 1) j := by
  have hclosing : ((l.drop (i + 1)).takeWhile (· ≠ '\n')).contains ')' = true ↔
      ∃ j, i + 1 ≤ j ∧ l[j]? = some ')' ∧ AllFrom (· ≠ '\n') l (i + 1) j := by
    rw [List.contains_iff_mem, mem_takeWhile_iff_reached, and_iff_right (by decide),
      exists_reached_drop_iff]
  rw [startsGroup, any_after?_drop_iff, standsAt_singleton_iff]
  refine (and_congr_right' hclosing).trans ?_
  constructor
  · rintro ⟨hopen, j, hij, hj, hall⟩
    exact ⟨j, hij, hopen, hj, hall⟩
  · rintro ⟨j, hij, hopen, hj, hall⟩
    exact ⟨hopen, j, hij, hj, hall⟩

theorem holdsPair_iff : (lines l).any holdsGroup = true ↔ HoldsPair l := by
  rw [any_holdsGroup_lines, anySuffix_iff_exists_drop]
  simp only [startsGroup_drop_iff, HoldsPair]

/-- In one line the outermost parentheses decide. -/
theorem holdsPair_iff_first_lt_last (h : '\n' ∉ l) :
    HoldsPair l ↔ ∃ i j, FirstAt '(' l i ∧ LastAt ')' l j ∧ i < j := by
  constructor
  · rintro ⟨i, j, hij, hi, hj, -⟩
    obtain ⟨first, hfirst, hopen⟩ := exists_firstAt hi
    obtain ⟨last, hlast, hclose⟩ := exists_lastAt hj
    exact ⟨first, last, hopen, hclose, by omega⟩
  · rintro ⟨i, j, hopen, hclose, hij⟩
    refine ⟨i, j, hij, hopen.here, hclose.here, fun k c _ _ hc => ?_⟩
    refine decide_eq_true ?_
    rintro rfl
    exact h (List.mem_of_getElem? hc)

/-- What a line is searched for, by places. It opens a loop if it holds a loop keyword, or a `do`
with a later brace and only blanks between them. It defines a function if it holds `def` or `func`,
and an opening parenthesis with a later closing one and no line feed between them, wherever the
keyword stands. Where the text holds no line feed, the first opening parenthesis has to stand before
the last closing one. -/
theorem patterns_iff_places (l : Text) :
    (opensLoop l = true ↔
      "for".toList <:+: l ∨ "while".toList <:+: l ∨
        ∃ i j, i < j ∧ StandsAt "do".toList l i ∧ l[j]? = some '{' ∧
          AllFrom isBlank l (i + 2) j) ∧
    (definesFunction l = true ↔
      ("def".toList <:+: l ∨ "func".toList <:+: l) ∧
        ∃ i j, i < j ∧ l[i]? = some '(' ∧ l[j]? = some ')' ∧
          AllFrom (· ≠ '\n') l (i + 1) j) ∧
    ('\n' ∉ l →
      (definesFunction l = true ↔
        ("def".toList <:+: l ∨ "func".toList <:+: l) ∧
          ∃ i j, FirstAt '(' l i ∧ LastAt ')' l j ∧ i < j)) := by
  have hdefines : definesFunction l = true ↔
      ("def".toList <:+: l ∨ "func".toList <:+: l) ∧ HoldsPair l := by
    rw [definesFunction, Bool.and_eq_true, any_occurs_functionKeywords_iff, holdsPair_iff]
  refine ⟨opensLoop_iff, hdefines, fun h => ?_⟩
  rw [hdefines, holdsPair_iff_first_lt_last h]

/-- The second `do` opens the block. The keyword may stand behind its parentheses, and in front of a
pair on two lines it announces nothing. -/
theorem patterns_iff_places_dodo :
    opensLoop "dodo \t\x7b".toList = true ∧ definesFunction "(x) undef".toList = true ∧
      ¬ HoldsPair "def (\n)".toList := by
  refine ⟨?_, ?_, ?_⟩
  · exact (patterns_iff_places _).1.mpr
      (Or.inr (Or.inr ⟨2, 6, by decide, by decide, rfl, by decide⟩))
  · have hkeyword : "def".toList <:+: "(x) undef".toList := occurs_iff.mp (by decide)
    have hopen : FirstAt '(' "(x) undef".toList 0 :=
      ⟨rfl, fun _ hk => absurd hk (Nat.not_lt_zero _)⟩
    obtain ⟨last, hlast, hclose⟩ := exists_lastAt (show "(x) undef".toList[2]? = some ')' from rfl)
    exact ((patterns_iff_places _).2.2 (by decide)).mpr
      ⟨Or.inl hkeyword, 0, last, hopen, hclose, by omega⟩
  · intro hpair
    have hkeyword : "def".toList <:+: "def (\n)".toList := occurs_iff.mp (by decide)
    have hdefines := (patterns_iff_places _).2.1.mpr ⟨Or.inl hkeyword, hpair⟩
    exact absurd hdefines (by decide)

end Line

end ComplexityGauge
