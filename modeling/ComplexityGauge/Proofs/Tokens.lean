import ComplexityGauge.Json.Reader
import ComplexityGauge.Json.Source
import Mathlib.Data.Nat.Notation

/-!
# Reading words, numbers and texts

The parts of a value that hold no other value are read back as they were written, whatever follows
them. A number ends where something stands that may follow a value; a word and a text end by
themselves. Two limits are in the way of reading: an integer may have too many digits, and a word
for a double needs a level of its own.

## Main definitions

* `Json.ReadsAs` — what is read within the limits, and that a limit is named beyond them
* `Json.Ended` — a place where a value may end

## Main results

* `Json.readsAs_word`, `Json.readsAs_number` — the reader on words and numbers
* `Json.readText_append` — the reader on texts
-/

namespace ComplexityGauge.Json

open Text

variable {rest : WideText}

/-! ### Outcomes -/

section ReadsAs

variable {α β : Type} {result : Except Stop α} {p q : Prop} {a : α} {b : β}

/-- Reading comes to `a` if the limits allow for it, and else stops at one of the limits. -/
structure ReadsAs (result : Except Stop α) (allowed : Prop) (a : α) : Prop where
  eq_ok : allowed → result = .ok a
  eq_error : ¬ allowed → result = .error .oversizedInteger ∨ result = .error .tooDeep

theorem ReadsAs.ok (a : α) : ReadsAs (.ok a) True a :=
  ⟨fun _ => rfl, fun h => absurd trivial h⟩

theorem ReadsAs.congr (h : ReadsAs result p a) (hiff : p ↔ q) : ReadsAs result q a :=
  ⟨fun hq => h.eq_ok (hiff.mpr hq), fun hq => h.eq_error (mt hiff.mp hq)⟩

/-- What is read in any case is read within the limits. -/
theorem ReadsAs.of_eq_ok (h : result = .ok a) : ReadsAs result True a := h ▸ ReadsAs.ok a

/-- A step behind another one is taken only if the limits allow for the first. -/
theorem ReadsAs.bind {f : α → Except Stop β} (h : ReadsAs result p a) (hf : ReadsAs (f a) q b) :
    ReadsAs (result >>= f) (p ∧ q) b := by
  by_cases hp : p
  · rw [h.eq_ok hp]
    exact ⟨fun hpq => hf.eq_ok hpq.2, fun hpq => hf.eq_error fun hq => hpq ⟨hp, hq⟩⟩
  · -- The first step names a limit, and the second one is not taken.
    refine ⟨fun hpq => absurd hpq.1 hp, fun _ => ?_⟩
    rcases h.eq_error hp with herror | herror
    · exact Or.inl (by rw [herror]; rfl)
    · exact Or.inr (by rw [herror]; rfl)

end ReadsAs

/-! ### Blanks and ends -/

/-- The text does not start with a blank. -/
def Solid (t : WideText) : Prop := ∀ s ∈ t.head?, s.isChar isJsonBlank = false

/-- The characters that may stand right behind a value. -/
def closers : Text := [' ', '\t', '\n', '\r', ',', ']', '\x7d']

/-- A value may end where the text starts. -/
def Ended (t : WideText) : Prop := ∀ s ∈ t.head?, ∃ c ∈ closers, s = .char c

theorem isChar_of_mem_blanks (b : Blanks) : ∀ s ∈ b.symbols, s.isChar isJsonBlank = true := by
  intro s hs
  obtain ⟨c, hc, rfl⟩ := List.mem_map.mp hs
  have hblank : [' ', '\t', '\n', '\r'].all isJsonBlank = true := by decide
  exact List.all_eq_true.mp hblank c (b.blank_of_mem c hc)

theorem solid_cons {c : Char} (h : isJsonBlank c = false) (t : WideText) :
    Solid (.char c :: t) := by
  intro s hs
  obtain rfl : .char c = s := Option.some.inj hs
  exact h

theorem skipBlanks_of_solid {t : WideText} (h : Solid t) : skipBlanks t = t := by
  cases t with
  | nil => rfl
  | cons s t => exact List.dropWhile_cons_of_neg (by simp [h s rfl])

/-- The reader passes over the blanks of a source. -/
theorem skipBlanks_append (b : Blanks) {t : WideText} (h : Solid t) :
    skipBlanks (b.symbols ++ t) = t := by
  rw [skipBlanks, List.dropWhile_append_of_pos (isChar_of_mem_blanks b)]
  exact skipBlanks_of_solid h

theorem ended_nil : Ended [] := fun _ hs => nomatch hs

theorem ended_cons {c : Char} (hc : c ∈ closers) (t : WideText) : Ended (.char c :: t) := by
  intro s hs
  obtain rfl : .char c = s := Option.some.inj hs
  exact ⟨c, hc, rfl⟩

theorem ended_append (b : Blanks) {t : WideText} (h : Ended t) : Ended (b.symbols ++ t) := by
  intro s hs
  cases hb : b.symbols with
  | nil =>
    rw [hb] at hs
    exact h s hs
  | cons s' more =>
    rw [hb] at hs
    obtain rfl : s' = s := Option.some.inj hs
    have hmem : s' ∈ b.symbols := hb ▸ List.mem_cons_self
    obtain ⟨c, hc, rfl⟩ := List.mem_map.mp hmem
    have hcloser : [' ', '\t', '\n', '\r'] ⊆ closers :=
      List.subset_append_left _ [',', ']', '\x7d']
    exact ⟨c, hcloser (b.blank_of_mem c hc), rfl⟩

/-- What may stand behind a value goes on with no number. -/
theorem Ended.isChar_eq_false (h : Ended rest) {p : Char → Bool}
    (hclosers : closers.any p = false) : ∀ s ∈ rest.head?, s.isChar p = false := by
  intro s hs
  obtain ⟨c, hc, rfl⟩ := h s hs
  exact Bool.eq_false_iff.mpr (List.any_eq_false.mp hclosers c hc)

/-! ### Numbers -/

section Digits

variable {digits : Text}

theorem isChar_of_mem_ofText (h : ∀ c ∈ digits, isDigit c = true) :
    ∀ s ∈ WideText.ofText digits, s.isChar isDigit = true := by
  intro s hs
  obtain ⟨c, hc, rfl⟩ := List.mem_map.mp hs
  exact h c hc

theorem filterMap_char?_ofText (t : Text) : (WideText.ofText t).filterMap Symbol.char? = t := by
  rw [WideText.ofText, List.filterMap_map]
  exact List.filterMap_some

/-- The reader takes all digits up to the first symbol that is none. -/
theorem leadingDigits_append (h : ∀ c ∈ digits, isDigit c = true)
    (hrest : ∀ s ∈ rest.head?, s.isChar isDigit = false) :
    leadingDigits (WideText.ofText digits ++ rest) = digits := by
  have hstop : rest.takeWhile (Symbol.isChar isDigit) = [] := by
    cases rest with
    | nil => rfl
    | cons s rest => exact List.takeWhile_cons_of_neg (by simp [hrest s rfl])
  rw [leadingDigits, List.takeWhile_append_of_pos (isChar_of_mem_ofText h), hstop, List.append_nil,
    filterMap_char?_ofText]

theorem behindDigits_append (h : ∀ c ∈ digits, isDigit c = true)
    (hrest : ∀ s ∈ rest.head?, s.isChar isDigit = false) :
    behindDigits (WideText.ofText digits ++ rest) = rest := by
  rw [behindDigits, List.dropWhile_append_of_pos (isChar_of_mem_ofText h)]
  cases rest with
  | nil => rfl
  | cons s rest => exact List.dropWhile_cons_of_neg (by simp [hrest s rfl])

end Digits

/-- A run of digits starts with a digit. -/
theorem Digits.exists_eq_cons (d : Digits) :
    ∃ c more, d.text = c :: more ∧ isDigit c = true := by
  obtain ⟨c, more, hdigits⟩ := List.exists_cons_of_ne_nil d.ne_nil
  exact ⟨c, more, hdigits, d.isDigit_of_mem c (by rw [hdigits]; exact List.mem_cons_self)⟩

theorem Digits.isEmpty_text (d : Digits) : d.text.isEmpty = false :=
  List.isEmpty_eq_false_iff.mpr d.ne_nil

theorem splitSign_append (sign : Sign) (d : Digits) (rest : WideText) :
    splitSign (WideText.ofText (sign.text ++ d.text) ++ rest) =
      (decide (sign = .minus), WideText.ofText d.text ++ rest) := by
  cases sign with
  | plus | minus => rfl
  | absent =>
    -- The first digit is taken for no sign.
    obtain ⟨c, more, hdigits, hc⟩ := d.exists_eq_cons
    have hplus : c ≠ '+' := by rintro rfl; exact absurd hc (by decide)
    have hminus : c ≠ '-' := by rintro rfl; exact absurd hc (by decide)
    rw [hdigits]
    unfold splitSign
    split
    · next h => simp_all [WideText.ofText, Sign.text]
    · next h => simp_all [WideText.ofText, Sign.text]
    · simp [Sign.text]

/-- The reader takes back a power of ten. -/
theorem powerOfTen?_append (e : Exponent) (hrest : ∀ s ∈ rest.head?, s.isChar isDigit = false) :
    powerOfTen? (WideText.ofText e.text ++ rest) = some (e.value, rest) := by
  have htext : WideText.ofText e.text ++ rest =
      .char (if e.capital then 'E' else 'e') ::
        (WideText.ofText (e.sign.text ++ e.digits.text) ++ rest) := rfl
  have hletter : ((if e.capital then 'E' else 'e') = 'e' || (if e.capital then 'E' else 'e') = 'E')
      = true := by
    cases e.capital <;> rfl
  rw [htext, powerOfTen?, if_pos hletter, splitSign_append]
  simp only [leadingDigits_append e.digits.isDigit_of_mem hrest,
    behindDigits_append e.digits.isDigit_of_mem hrest, e.digits.isEmpty_text, Bool.false_eq_true,
    if_false, Exponent.value, decide_eq_true_eq]

namespace Number

variable (n : Number)

/-- Behind the digits of a number stands neither a digit nor a point. -/
theorem head_exponentText (h : Ended rest) {p : Char → Bool}
    (hletters : p 'e' = false ∧ p 'E' = false)
    (hclosers : closers.any p = false) :
    ∀ s ∈ (WideText.ofText n.exponentText ++ rest).head?, s.isChar p = false := by
  unfold exponentText
  split
  · next e _ =>
    intro s hs
    obtain rfl : .char (if e.capital then 'E' else 'e') = s := Option.some.inj hs
    cases e.capital with
    | true => exact hletters.2
    | false => exact hletters.1
  · exact h.isChar_eq_false hclosers

theorem head_fractionText (h : Ended rest) :
    ∀ s ∈ (WideText.ofText (n.fractionText ++ n.exponentText) ++ rest).head?,
      s.isChar isDigit = false := by
  unfold fractionText
  split
  · intro s hs
    obtain rfl : .char '.' = s := Option.some.inj hs
    rfl
  · exact n.head_exponentText h (by decide) (by decide)

/-- The reader takes back the digits before the point. -/
theorem wholeDigits?_append (hrest : ∀ s ∈ rest.head?, s.isChar isDigit = false) :
    wholeDigits? (WideText.ofText n.whole.text ++ rest) = some (n.whole.text, rest) := by
  unfold wholeDigits?
  split
  · next rest' h =>
    -- The reader takes a zero alone, and so does the number, which has no other digit then.
    have hhead : n.whole.text.head? = some '0' := by
      obtain ⟨c, more, hdigits, -⟩ := n.whole.exists_eq_cons
      rw [hdigits] at h ⊢
      simpa using (List.cons.inj h).1
    rw [n.eq_zero_of_head hhead] at h ⊢
    obtain rfl : rest = rest' := (List.cons.inj h).2
    rfl
  · rw [leadingDigits_append n.whole.isDigit_of_mem hrest,
      behindDigits_append n.whole.isDigit_of_mem hrest, n.whole.isEmpty_text]
    rfl

/-- The reader takes back the digits behind the point. -/
theorem fractionDigits_append (h : Ended rest) :
    Json.fractionDigits (WideText.ofText (n.fractionText ++ n.exponentText) ++ rest) =
      (n.fractionDigits, WideText.ofText n.exponentText ++ rest) := by
  unfold fractionText fractionDigits
  cases n.fraction with
  | some digits =>
    have hrest := n.head_exponentText h (p := isDigit) (by decide) (by decide)
    have htext : WideText.ofText ('.' :: digits.text ++ n.exponentText) ++ rest =
        .char '.' :: (WideText.ofText digits.text ++ (WideText.ofText n.exponentText ++ rest)) := by
      simp [WideText.ofText]
    rw [htext, Json.fractionDigits, leadingDigits_append digits.isDigit_of_mem hrest,
      behindDigits_append digits.isDigit_of_mem hrest, digits.isEmpty_text]
    rfl
  | none =>
    -- Neither an exponent nor the end starts with a point.
    have hpoint := n.head_exponentText h (p := (· == '.')) (by decide) (by decide)
    rw [List.nil_append, Json.fractionDigits]
    intro rest' hrest'
    exact absurd (hpoint (.char '.') (by rw [hrest']; rfl)) (by decide)

theorem powerOfTen?_exponentText (h : Ended rest) :
    powerOfTen? (WideText.ofText n.exponentText ++ rest) =
      n.exponent.map fun e => (e.value, rest) := by
  unfold exponentText
  cases n.exponent with
  | some e => exact powerOfTen?_append e (h.isChar_eq_false (by decide))
  | none =>
    change powerOfTen? rest = none
    unfold powerOfTen?
    split
    · next c rest' =>
      have hletter : (c = 'e' || c = 'E') = false :=
        h.isChar_eq_false (p := fun c => c = 'e' || c = 'E') (by decide) (.char c) rfl
      simp only [hletter, Bool.false_eq_true, if_false]
    · rfl

/-- Behind the digits before the point the reader takes back the rest of the number. -/
theorem readsAs_finishNumber (h : Ended rest) :
    ReadsAs (finishNumber n.negative n.whole.text
        (WideText.ofText (n.fractionText ++ n.exponentText) ++ rest))
      (n.longestInteger ≤ maxIntegerDigits) (n.value, rest) := by
  rw [finishNumber, n.fractionDigits_append h]
  simp only [n.powerOfTen?_exponentText h]
  obtain ⟨negative, whole, hzero, fraction, exponent⟩ := n
  cases exponent with
  | some e => exact (ReadsAs.ok _).congr (iff_of_true trivial (Nat.zero_le _))
  | none =>
    cases fraction with
    | some digits =>
      simp only [Option.map_none, Number.fractionDigits, digits.isEmpty_text, Bool.not_false,
        if_true]
      exact (ReadsAs.ok _).congr (iff_of_true trivial (Nat.zero_le _))
    | none =>
      change ReadsAs (if maxIntegerDigits < whole.text.length then _ else _)
        (whole.text.length ≤ maxIntegerDigits) _
      by_cases hlong : maxIntegerDigits < whole.text.length
      · rw [if_pos hlong]
        exact ⟨fun hle => absurd hle (Nat.not_le_of_lt hlong), fun _ => Or.inl rfl⟩
      · rw [if_neg hlong]
        exact (ReadsAs.ok _).congr (iff_of_true trivial (Nat.le_of_not_lt hlong))

end Number

/-! ### Words and numbers -/

theorem words_eq_map :
    words = [Word.null, .true, .false, .nan, .infinity, .minusInfinity].map
      fun w => (w.text, w.value) := rfl

/-- The reader takes back a word. -/
theorem word?_append (w : Word) (rest : WideText) :
    word? (WideText.ofText w.text ++ rest) = some (w.value, rest) := by
  rw [word?, words_eq_map]
  cases w <;> rfl

theorem readsAs_word (w : Word) (levels : ℕ) (rest : WideText) :
    ReadsAs (readAtom levels (WideText.ofText w.text ++ rest)) (w.depth ≤ levels)
      (w.value, rest) := by
  rw [readAtom, word?_append]
  cases w with
  | null | true | false => exact (ReadsAs.ok _).congr (iff_of_true trivial (Nat.zero_le levels))
  | nan | infinity | minusInfinity =>
    change ReadsAs (if levels = 0 then _ else _) (1 ≤ levels) _
    by_cases hlevels : levels = 0
    · rw [if_pos hlevels]
      exact ⟨fun h => absurd h (by omega), fun _ => Or.inr rfl⟩
    · rw [if_neg hlevels]
      exact (ReadsAs.ok _).congr (iff_of_true trivial (Nat.pos_of_ne_zero hlevels))

namespace Number

variable (n : Number)

/-- A number starts with a digit, behind a minus perhaps. -/
theorem exists_symbols_eq (rest : WideText) :
    ∃ c more, isDigit c = true ∧
      WideText.ofText n.text ++ rest =
        (if n.negative then [Symbol.char '-'] else []) ++ (.char c :: more) ∧
      WideText.ofText n.whole.text ++
        (WideText.ofText (n.fractionText ++ n.exponentText) ++ rest) = .char c :: more := by
  obtain ⟨c, more, hdigits, hc⟩ := n.whole.exists_eq_cons
  refine ⟨c, _, hc, ?_, by rw [hdigits]; rfl⟩
  rw [text, hdigits]
  cases n.negative <;> simp [WideText.ofText]

/-- No word stands where a number does. -/
theorem word?_eq_none (rest : WideText) : word? (WideText.ofText n.text ++ rest) = none := by
  obtain ⟨c, more, hc, hsymbols, -⟩ := n.exists_symbols_eq rest
  have hletters : ['n', 't', 'f', 'N', 'I', '-'].any isDigit = false := by decide
  have hne : ∀ d ∈ ['n', 't', 'f', 'N', 'I', '-'], d ≠ c := by
    rintro d hd rfl
    exact List.any_eq_false.mp hletters d hd hc
  simp only [List.forall_mem_cons] at hne
  rw [hsymbols, word?, List.findSome?_eq_none_iff]
  cases n.negative <;> simp [words, WideText.after?, hne]

/-- The reader takes back the sign of a number. -/
theorem splitMinus_append (rest : WideText) :
    splitMinus (WideText.ofText n.text ++ rest) =
      (n.negative, WideText.ofText n.whole.text ++
        (WideText.ofText (n.fractionText ++ n.exponentText) ++ rest)) := by
  obtain ⟨c, more, hc, hsymbols, hdigits⟩ := n.exists_symbols_eq rest
  rw [hsymbols, hdigits]
  cases n.negative with
  | true => rfl
  | false =>
    have hminus : c ≠ '-' := by
      rintro rfl
      exact absurd hc (by decide)
    simp [splitMinus, hminus]

end Number

/-- The reader takes back a number. -/
theorem readsAs_number (n : Number) (levels : ℕ) (h : Ended rest) :
    ReadsAs (readAtom levels (WideText.ofText n.text ++ rest))
      (n.longestInteger ≤ maxIntegerDigits) (n.value, rest) := by
  rw [readAtom, n.word?_eq_none, readNumber, n.splitMinus_append]
  simp only [n.wholeDigits?_append (n.head_fractionText h)]
  exact n.readsAs_finishNumber h

/-! ### Texts -/

section Texts

variable {start done : WideText} {fuel : ℕ}

/-- A symbol that stands for itself. -/
theorem readQuoted_plain {s : Symbol} (h : IsPlainSymbol s) :
    readQuoted start done (fuel + 1) (s :: rest) = readQuoted start (s :: done) fuel rest := by
  obtain ⟨hquote, hslash, hcontrol⟩ := h
  -- The equation for the last case asks that none of the cases before it applies.
  rw [readQuoted]
  · refine if_neg ?_
    cases s with
    | char c => simpa [Symbol.isChar] using hcontrol c rfl
    | half index => exact Bool.false_ne_true
  · exact hquote
  all_goals simp [hslash]

/-- The reader takes back an escape of one letter. -/
theorem readQuoted_escape (e : Escape) :
    readQuoted start done (fuel + 1) ((Piece.escape e).text ++ rest) =
      readQuoted start (.char e.char :: done) fuel rest := by
  cases e <;> rfl

/-- The reader takes back a code unit, if something stands behind it. -/
theorem codeUnit?_append (u : CodeUnit) (h : rest ≠ []) :
    codeUnit? (u.symbols ++ rest) = some (u.value, rest) := by
  obtain ⟨next, rest, rfl⟩ := List.exists_cons_of_ne_nil h
  simp only [CodeUnit.symbols, List.cons_append, List.nil_append, codeUnit?, u.first.value_eq,
    u.second.value_eq, u.third.value_eq, u.fourth.value_eq, CodeUnit.value]

/-- A code unit in a text is joined with a second one behind it. -/
theorem readQuoted_pair (high : CodeUnit) {c : Char} {t : WideText} (hrest : rest ≠ [])
    (h : lowHalf? high.value rest = some (c, t)) :
    readQuoted start done (fuel + 1) ((Piece.unit high).text ++ rest) =
      readQuoted start (.char c :: done) fuel t := by
  have hescape : unicodeEscape? (high.symbols ++ rest) = some (.char c, t) := by
    simp only [unicodeEscape?, codeUnit?_append high hrest, h]
  rw [Piece.text, List.cons_append, List.cons_append, readQuoted, hescape]

/-- A code unit with no second one behind it stands for its own symbol. -/
theorem readQuoted_unit (u : CodeUnit) (hrest : rest ≠ []) (h : lowHalf? u.value rest = none) :
    readQuoted start done (fuel + 1) ((Piece.unit u).text ++ rest) =
      readQuoted start (.ofCode u.value :: done) fuel rest := by
  have hescape : unicodeEscape? (u.symbols ++ rest) = some (.ofCode u.value, rest) := by
    simp only [unicodeEscape?, codeUnit?_append u hrest, h]
  rw [Piece.text, List.cons_append, List.cons_append, readQuoted, hescape]

theorem lowHalf?_unit (high : ℕ) (low : CodeUnit) (h : rest ≠ []) :
    lowHalf? high ((Piece.unit low).text ++ rest) =
      (Symbol.joined? high low.value).map fun c => (c, rest) := by
  simp only [Piece.text, List.cons_append, lowHalf?, codeUnit?_append low h, Option.bind_eq_bind,
    Option.bind_some]
  cases Symbol.joined? high low.value <;> rfl

/-- Only a code unit adds a low half. -/
theorem lowHalf?_eq_none_of_head {high : ℕ} {t : WideText}
    (h : ∀ rest, t ≠ .char '\\' :: .char 'u' :: rest) : lowHalf? high t = none := by
  unfold lowHalf?
  split
  · next rest => exact absurd rfl (h rest)
  · rfl

theorem Escape.letter_ne (e : Escape) : e.letter ≠ 'u' := by
  cases e <;> decide

/-- A half before a part that is no code unit stands alone. -/
theorem lowHalf?_piece {high : ℕ} {p : Piece} (h : ∀ low, p ≠ .unit low) :
    lowHalf? high (p.text ++ rest) = none := by
  cases p with
  | plain s isPlain =>
    refine lowHalf?_eq_none_of_head fun rest h => ?_
    exact isPlain.2.1 (List.cons.inj h).1
  | escape e =>
    refine lowHalf?_eq_none_of_head fun rest h => ?_
    exact e.letter_ne (Symbol.char.inj (List.cons.inj (List.cons.inj h).2).1)
  | unit low => exact absurd rfl (h low)

theorem length_le_length_flatMap_text (pieces : List Piece) :
    pieces.length ≤ (pieces.flatMap Piece.text).length := by
  induction pieces with
  | nil => exact Nat.le_refl 0
  | cons p pieces ih =>
    have hpiece : 1 ≤ p.text.length := by
      cases p <;> exact Nat.succ_le_succ (Nat.zero_le _)
    rw [List.flatMap_cons, List.length_append, List.length_cons]
    omega

/-- What stands behind the parts of a text is not the end. -/
theorem flatMap_text_append_ne_nil (pieces : List Piece) (rest : WideText) :
    pieces.flatMap Piece.text ++ .char '"' :: rest ≠ [] := by simp

/-- A part that is not joined with the next one stands for its own symbol. -/
theorem readQuoted_alone {p : Piece} {pieces : List Piece}
    (hp : ∀ high low more, p = .unit high → pieces = .unit low :: more → False) :
    readQuoted start done (fuel + 1)
        (p.text ++ (pieces.flatMap Piece.text ++ .char '"' :: rest)) =
      readQuoted start (p.symbol :: done) fuel
        (pieces.flatMap Piece.text ++ .char '"' :: rest) := by
  cases p with
  | plain s isPlain => exact readQuoted_plain isPlain
  | escape e => exact readQuoted_escape e
  | unit high =>
    have hlow : lowHalf? high.value (pieces.flatMap Piece.text ++ .char '"' :: rest) = none := by
      cases pieces with
      | nil => exact lowHalf?_eq_none_of_head fun rest h => by simp at h
      | cons next more =>
        rw [List.flatMap_cons, List.append_assoc]
        exact lowHalf?_piece fun low hnext => hp high low more rfl (by rw [hnext])
    exact readQuoted_unit high (flatMap_text_append_ne_nil pieces rest) hlow

/-- The reader takes back the parts of a text up to the closing quote, one at each step or two
that write one character together. -/
theorem readQuoted_append (start rest : WideText) (pieces : List Piece) (done : WideText)
    (fuel : ℕ) (hfuel : pieces.length < fuel) :
    readQuoted start done fuel (pieces.flatMap Piece.text ++ .char '"' :: rest) =
      .ok (done.reverse ++ Piece.symbols pieces, rest) := by
  -- The induction goes along the parts as they are joined into symbols.
  induction pieces using Piece.symbols.induct generalizing done fuel with
  | case1 =>
    obtain ⟨fuel, rfl⟩ := Nat.exists_eq_succ_of_ne_zero (Nat.ne_of_gt hfuel)
    exact congrArg (fun t => Except.ok (t, rest)) (List.append_nil done.reverse).symm
  | case2 high low pieces c hjoined ih =>
    obtain ⟨fuel, rfl⟩ := Nat.exists_eq_succ_of_ne_zero (Nat.ne_of_gt (Nat.zero_lt_of_lt hfuel))
    simp only [List.length_cons] at hfuel
    have hlow : lowHalf? high.value
        ((Piece.unit low).text ++ (pieces.flatMap Piece.text ++ .char '"' :: rest)) =
        some (c, pieces.flatMap Piece.text ++ .char '"' :: rest) := by
      rw [lowHalf?_unit _ low (flatMap_text_append_ne_nil pieces rest), hjoined]
      rfl
    rw [List.flatMap_cons, List.flatMap_cons, List.append_assoc, List.append_assoc,
      readQuoted_pair high (by simp [Piece.text]) hlow, ih _ fuel (by omega), Piece.symbols,
      hjoined, List.reverse_cons, List.append_assoc]
    rfl
  | case3 high low pieces hjoined ih =>
    obtain ⟨fuel, rfl⟩ := Nat.exists_eq_succ_of_ne_zero (Nat.ne_of_gt (Nat.zero_lt_of_lt hfuel))
    have hlow : lowHalf? high.value
        ((Piece.unit low :: pieces).flatMap Piece.text ++ .char '"' :: rest) = none := by
      rw [List.flatMap_cons, List.append_assoc,
        lowHalf?_unit _ low (flatMap_text_append_ne_nil pieces rest), hjoined]
      rfl
    rw [List.flatMap_cons, List.append_assoc,
      readQuoted_unit high (flatMap_text_append_ne_nil _ rest) hlow,
      ih _ fuel (Nat.lt_of_succ_lt_succ hfuel), Piece.symbols, hjoined, List.reverse_cons,
      List.append_assoc]
    rfl
  | case4 p pieces hp ih =>
    obtain ⟨fuel, rfl⟩ := Nat.exists_eq_succ_of_ne_zero (Nat.ne_of_gt (Nat.zero_lt_of_lt hfuel))
    rw [List.flatMap_cons, List.append_assoc, readQuoted_alone hp,
      ih _ fuel (Nat.lt_of_succ_lt_succ hfuel), Piece.symbols, List.reverse_cons,
      List.append_assoc]
    · rfl
    · exact hp

/-- The reader takes back a quoted text. -/
theorem readText_append (levels : ℕ) (pieces : List Piece) (rest : WideText) {fuel : ℕ}
    (hfuel : pieces.length < fuel) :
    readText fuel levels (pieces.flatMap Piece.text ++ .char '"' :: rest) =
      .ok (Piece.symbols pieces, rest) := by
  rw [readText, readQuoted_append _ _ _ _ _ hfuel]
  rfl

end Texts

end ComplexityGauge.Json
