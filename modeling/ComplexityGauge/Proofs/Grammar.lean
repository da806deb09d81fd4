import ComplexityGauge.Proofs.Sources
import Mathlib.Tactic.SplitIfs

/-!
# The grammar that the reader follows

Whatever the reader takes off a text is a source of the value that it comes to. Together with the
reading of sources this tells exactly which texts are read, and as what: the documents within the
limits, each as its value.

Words, numbers and texts come first, each by the branches of its reader. Arrays and objects follow
by induction on the steps that the reader has left, because a value is read with one step less than
the array that it stands in.

## Main definitions

* `Json.ValuesHaveSources`, `Json.ItemsHaveSources`, `Json.MembersHaveSources` — what is read with
  so many steps has a source

## Main results

* `Json.haveSources` — whatever is read has a source
* `Json.read_eq_ok_iff` — the texts that are read, and their values
-/

namespace ComplexityGauge.Json

open Text

variable {t rest : WideText}

/-! ### Outcomes -/

section Outcomes

variable {α β : Type} {result : Except Stop α}

theorem exists_of_bind_eq_ok {f : α → Except Stop β} {b : β} (h : result >>= f = .ok b) :
    ∃ a, result = .ok a ∧ f a = .ok b := by
  cases result with
  | error stop => cases h
  | ok a => exact ⟨a, rfl, h⟩

theorem eq_ok_of_mapError_eq_ok {f : Stop → Stop} {a : α} (h : result.mapError f = .ok a) :
    result = .ok a := by
  cases result with
  | error stop => cases h
  | ok b => exact h

end Outcomes

/-! ### Runs of characters -/

/-- The symbols in front of the first one without a property are characters. -/
theorem exists_takeWhile_eq (p : Char → Bool) (t : WideText) :
    ∃ run, (∀ c ∈ run, p c = true) ∧ t.takeWhile (Symbol.isChar p) = WideText.ofText run := by
  induction t with
  | nil => exact ⟨[], fun _ h => absurd h List.not_mem_nil, rfl⟩
  | cons s t ih =>
    obtain ⟨run, hrun, htake⟩ := ih
    cases hs : s.isChar p with
    | false =>
      refine ⟨[], fun _ h => absurd h List.not_mem_nil, ?_⟩
      exact List.takeWhile_cons_of_neg (by simp [hs])
    | true =>
      cases s with
      | half index => exact absurd hs Bool.false_ne_true
      | char c =>
        refine ⟨c :: run, List.forall_mem_cons.mpr ⟨hs, hrun⟩, ?_⟩
        rw [List.takeWhile_cons_of_pos hs, htake]
        rfl

theorem exists_blanks (t : WideText) : ∃ b : Blanks, t = b.symbols ++ skipBlanks t := by
  obtain ⟨run, hrun, htake⟩ := exists_takeWhile_eq isJsonBlank t
  refine ⟨⟨run, fun c hc => ?_⟩, ?_⟩
  · simpa [isJsonBlank, or_assoc] using hrun c hc
  · rw [Blanks.symbols, ← htake]
    exact List.takeWhile_append_dropWhile.symm

/-! ### Numbers -/

theorem isDigit_of_mem_leadingDigits (t : WideText) :
    ∀ c ∈ leadingDigits t, isDigit c = true := by
  obtain ⟨run, hrun, htake⟩ := exists_takeWhile_eq isDigit t
  rw [leadingDigits, htake, filterMap_char?_ofText]
  exact hrun

theorem leadingDigits_append_behindDigits (t : WideText) :
    WideText.ofText (leadingDigits t) ++ behindDigits t = t := by
  obtain ⟨run, -, htake⟩ := exists_takeWhile_eq isDigit t
  rw [leadingDigits, htake, filterMap_char?_ofText, ← htake]
  exact List.takeWhile_append_dropWhile

/-- The digits at the start of a text that has any. -/
def Digits.leading (t : WideText) (h : (leadingDigits t).isEmpty = false) : Digits where
  text := leadingDigits t
  ne_nil := List.isEmpty_eq_false_iff.mp h
  isDigit_of_mem := isDigit_of_mem_leadingDigits t

theorem exists_sign (t : WideText) :
    ∃ sign : Sign, t = WideText.ofText sign.text ++ (splitSign t).2 ∧
      (splitSign t).1 = decide (sign = .minus) := by
  unfold splitSign
  split
  · exact ⟨.minus, rfl, rfl⟩
  · exact ⟨.plus, rfl, rfl⟩
  · exact ⟨.absent, rfl, rfl⟩

theorem exists_exponent {x : Int} (h : powerOfTen? t = some (x, rest)) :
    ∃ e : Exponent, t = WideText.ofText e.text ++ rest ∧ e.value = x := by
  unfold powerOfTen? at h
  split at h
  case h_2 => cases h
  case h_1 c t =>
    obtain ⟨sign, hsplit, hminus⟩ := exists_sign t
    generalize splitSign t = parts at h hsplit hminus
    obtain ⟨negative, unsigned⟩ := parts
    dsimp only at h hsplit hminus
    subst hminus hsplit
    cases hempty : (leadingDigits unsigned).isEmpty with
    | true => simp [hempty] at h
    | false =>
      by_cases hletter : c = 'e' ∨ c = 'E'
      case neg => simp [hletter] at h
      simp only [Bool.or_eq_true, decide_eq_true_eq, hletter, if_true, hempty, Bool.false_eq_true,
        if_false, Option.some.injEq, Prod.mk.injEq] at h
      obtain ⟨rfl, rfl⟩ := h
      refine ⟨⟨decide (c = 'E'), sign, .leading unsigned hempty⟩, ?_, rfl⟩
      have hc : (if decide (c = 'E') then 'E' else 'e') = c := by
        rcases hletter with rfl | rfl <;> rfl
      rw [Exponent.text, hc]
      calc Symbol.char c :: (WideText.ofText sign.text ++ unsigned)
          = .char c :: (WideText.ofText sign.text ++
              (WideText.ofText (leadingDigits unsigned) ++ behindDigits unsigned)) := by
            rw [leadingDigits_append_behindDigits]
        _ = WideText.ofText (c :: (sign.text ++ leadingDigits unsigned)) ++
              behindDigits unsigned := by simp [WideText.ofText]

theorem exists_fraction (t : WideText) :
    ∃ fraction : Option Digits, ∀ n : Number, n.fraction = fraction →
      t = WideText.ofText n.fractionText ++ (fractionDigits t).2 ∧
        (fractionDigits t).1 = n.fractionDigits := by
  unfold fractionDigits Number.fractionText Number.fractionDigits
  split
  case h_1 t =>
    cases hempty : (leadingDigits t).isEmpty with
    | true =>
      refine ⟨none, fun n hn => ?_⟩
      rw [hn]
      exact ⟨rfl, rfl⟩
    | false =>
      refine ⟨some (.leading t hempty), fun n hn => ?_⟩
      rw [hn]
      exact ⟨congrArg (_ :: ·) (leadingDigits_append_behindDigits t).symm, rfl⟩
  case h_2 =>
    refine ⟨none, fun n hn => ?_⟩
    rw [hn]
    exact ⟨rfl, rfl⟩

/-- What stands behind the first digits of a number finishes a number. -/
theorem exists_number {negative : Bool} {whole : Digits} {v : Json}
    (hzero : whole.text.head? = some '0' → whole.text = ['0'])
    (h : finishNumber negative whole.text t = .ok (v, rest)) :
    ∃ n : Number, n.negative = negative ∧ n.whole = whole ∧
      t = WideText.ofText (n.fractionText ++ n.exponentText) ++ rest ∧ n.value = v := by
  obtain ⟨fraction, hfraction⟩ := exists_fraction t
  cases hpower : powerOfTen? (fractionDigits t).2 with
  | some power =>
    obtain ⟨e, hsplit, he⟩ := exists_exponent hpower
    let n : Number := ⟨negative, whole, hzero, fraction, some e⟩
    obtain ⟨ht, hdigits⟩ := hfraction n rfl
    simp only [finishNumber, hpower, Except.ok.injEq, Prod.mk.injEq] at h
    obtain ⟨rfl, rfl⟩ := h
    refine ⟨n, rfl, rfl, ?_, ?_⟩
    · rw [ht, hsplit]
      simp [WideText.ofText, n, Number.exponentText]
    · rw [hdigits, ← he]
      rfl
  | none =>
    let n : Number := ⟨negative, whole, hzero, fraction, none⟩
    obtain ⟨ht, hdigits⟩ := hfraction n rfl
    have hsplit : t = WideText.ofText (n.fractionText ++ n.exponentText) ++
        (fractionDigits t).2 := by
      rw [Number.exponentText, List.append_nil]
      exact ht
    simp only [finishNumber, hpower, hdigits] at h
    cases fraction with
    | some d =>
      simp only [Number.fractionDigits, n, d.isEmpty_text, Bool.not_false, if_true,
        Except.ok.injEq, Prod.mk.injEq] at h
      obtain ⟨rfl, rfl⟩ := h
      exact ⟨n, rfl, rfl, hsplit, rfl⟩
    | none =>
      by_cases hlong : maxIntegerDigits < whole.text.length
      · simp [Number.fractionDigits, n, hlong] at h
      · simp only [Number.fractionDigits, n, List.isEmpty_nil, Bool.not_true, Bool.false_eq_true,
          if_false, hlong, Except.ok.injEq, Prod.mk.injEq] at h
        obtain ⟨rfl, rfl⟩ := h
        exact ⟨n, rfl, rfl, hsplit, rfl⟩

theorem exists_whole {whole : Text} (h : wholeDigits? t = some (whole, rest)) :
    ∃ d : Digits, d.text = whole ∧ (whole.head? = some '0' → whole = ['0']) ∧
      t = WideText.ofText whole ++ rest := by
  unfold wholeDigits? at h
  split at h
  case h_1 rest =>
    obtain ⟨rfl, rfl⟩ := Prod.mk.inj (Option.some.inj h)
    exact ⟨⟨['0'], List.cons_ne_nil _ _, List.forall_mem_singleton.mpr rfl⟩, rfl, fun _ => rfl, rfl⟩
  case h_2 hzero =>
    cases hempty : (leadingDigits t).isEmpty with
    | true => simp [hempty] at h
    | false =>
      simp only [hempty, Bool.false_eq_true, if_false, Option.some.injEq, Prod.mk.injEq] at h
      obtain ⟨rfl, rfl⟩ := h
      have hsplit := leadingDigits_append_behindDigits t
      refine ⟨.leading t hempty, rfl, fun hhead => ?_, hsplit.symm⟩
      -- The text does not start with a zero.
      obtain ⟨more, hmore⟩ := List.head?_eq_some_iff.mp hhead
      rw [hmore] at hsplit
      exact absurd hsplit.symm (hzero _)

/-- A number that was read was written. -/
theorem exists_number_of_readNumber {v : Json} (h : readNumber t = .ok (v, rest)) :
    ∃ n : Number, t = WideText.ofText n.text ++ rest ∧ n.value = v := by
  unfold readNumber at h
  split at h
  case h_2 => cases h
  case h_1 whole tail hwhole =>
    obtain ⟨d, rfl, hzero, hsplit⟩ := exists_whole hwhole
    obtain ⟨n, hnegative, rfl, htail, hvalue⟩ := exists_number hzero h
    refine ⟨n, ?_, hvalue⟩
    have hminus : t = WideText.ofText (if n.negative then ['-'] else []) ++ (splitMinus t).2 := by
      rw [hnegative]
      unfold splitMinus
      split <;> rfl
    calc t = WideText.ofText (if n.negative then ['-'] else []) ++
          (WideText.ofText n.whole.text ++
            (WideText.ofText (n.fractionText ++ n.exponentText) ++ rest)) := by
          rw [← htail, ← hsplit]
          exact hminus
      _ = WideText.ofText n.text ++ rest := by
          simp [Number.text, WideText.ofText]

/-! ### Words -/

theorem eq_append_of_after? {word : Text} (h : WideText.after? word t = some rest) :
    t = WideText.ofText word ++ rest := by
  induction word generalizing t with
  | nil => exact Option.some.inj h
  | cons c word ih =>
    cases t with
    | nil => cases h
    | cons s t =>
      cases s with
      | half index => cases h
      | char d =>
        by_cases hcd : c = d
        · rw [WideText.after?, if_pos hcd] at h
          rw [hcd, ih h]
          rfl
        · rw [WideText.after?, if_neg hcd] at h
          cases h

theorem exists_word {v : Json} (h : word? t = some (v, rest)) :
    ∃ w : Word, t = WideText.ofText w.text ++ rest ∧ w.value = v := by
  obtain ⟨entry, hentry, hafter⟩ := List.exists_of_findSome?_eq_some h
  rw [words_eq_map] at hentry
  obtain ⟨w, -, rfl⟩ := List.mem_map.mp hentry
  obtain ⟨rest', hrest, hpair⟩ := Option.map_eq_some_iff.mp hafter
  obtain ⟨rfl, rfl⟩ := Prod.mk.inj hpair
  exact ⟨w, eq_append_of_after? hrest, rfl⟩

/-- A word or number that was read was written. -/
theorem exists_source_of_readAtom {levels : ℕ} {v : Json} (h : readAtom levels t = .ok (v, rest)) :
    ∃ s : Source, t = s.symbols ++ rest ∧ s.value = v := by
  unfold readAtom at h
  split at h
  case h_1 x rest' hword =>
    obtain ⟨w, hsplit, hvalue⟩ := exists_word hword
    split_ifs at h
    obtain ⟨rfl, rfl⟩ := Prod.mk.inj (Except.ok.inj h)
    exact ⟨.word w, hsplit, hvalue⟩
  case h_2 hword =>
    obtain ⟨w, hsplit, hvalue⟩ := exists_word hword
    obtain ⟨rfl, rfl⟩ := Prod.mk.inj (Except.ok.inj h)
    exact ⟨.word w, hsplit, hvalue⟩
  case h_3 =>
    obtain ⟨n, hsplit, hvalue⟩ := exists_number_of_readNumber h
    exact ⟨.number n, hsplit, hvalue⟩

/-! ### Texts -/

theorem exists_escape : ∀ {letter c : Char}, plainEscape? letter = some c →
    ∃ e : Escape, e.letter = letter ∧ e.char = c := by
  intro letter c h
  unfold plainEscape? at h
  split at h
  case h_1 => exact ⟨.quote, rfl, Option.some.inj h⟩
  case h_2 => exact ⟨.backslash, rfl, Option.some.inj h⟩
  case h_3 => exact ⟨.slash, rfl, Option.some.inj h⟩
  case h_4 => exact ⟨.backspace, rfl, Option.some.inj h⟩
  case h_5 => exact ⟨.formFeed, rfl, Option.some.inj h⟩
  case h_6 => exact ⟨.lineFeed, rfl, Option.some.inj h⟩
  case h_7 => exact ⟨.carriageReturn, rfl, Option.some.inj h⟩
  case h_8 => exact ⟨.tab, rfl, Option.some.inj h⟩
  case h_9 => cases h

theorem exists_codeUnit {n : ℕ} (h : codeUnit? t = some (n, rest)) :
    ∃ u : CodeUnit, t = u.symbols ++ rest ∧ u.value = n ∧ rest ≠ [] := by
  unfold codeUnit? at h
  split at h
  case h_2 => cases h
  case h_1 a b c d next rest' =>
    split at h
    case h_2 => cases h
    case h_1 ha hb hc hd =>
      obtain ⟨rfl, rfl⟩ := Prod.mk.inj (Option.some.inj h)
      exact ⟨⟨⟨a, _, ha⟩, ⟨b, _, hb⟩, ⟨c, _, hc⟩, ⟨d, _, hd⟩⟩, rfl, rfl, List.cons_ne_nil _ _⟩

theorem exists_low {high : ℕ} {c : Char} (h : lowHalf? high t = some (c, rest)) :
    ∃ low : CodeUnit, t = (Piece.unit low).text ++ rest ∧
      Symbol.joined? high low.value = some c := by
  unfold lowHalf? at h
  split at h
  case h_2 => cases h
  case h_1 tail =>
    obtain ⟨⟨low, rest'⟩, hlow, hjoined⟩ := Option.bind_eq_some_iff.mp h
    obtain ⟨c', hc', hpair⟩ := Option.bind_eq_some_iff.mp hjoined
    obtain ⟨rfl, rfl⟩ := Prod.mk.inj (Option.some.inj hpair)
    obtain ⟨u, hsplit, rfl, -⟩ := exists_codeUnit hlow
    exact ⟨u, by rw [hsplit]; rfl, hc'⟩

/-- A code unit that is not joined with what follows stands for its own symbol. -/
theorem symbols_unit_cons {high : CodeUnit} {pieces : List Piece}
    (h : lowHalf? high.value (pieces.flatMap Piece.text ++ .char '"' :: rest) = none) :
    Piece.symbols (.unit high :: pieces) = .ofCode high.value :: Piece.symbols pieces := by
  cases pieces with
  | nil => rfl
  | cons next pieces =>
    cases next with
    | plain | escape => rw [Piece.symbols] <;> simp [Piece.symbol]
    | unit low =>
      rw [List.flatMap_cons, List.append_assoc,
        lowHalf?_unit _ low (flatMap_text_append_ne_nil pieces rest), Option.map_eq_none_iff] at h
      rw [Piece.symbols, h]

/-- Pieces of a text that go on behind a first one. -/
theorem exists_pieces_cons {done text : WideText} {p : Piece} {s : Symbol}
    (hsymbols : ∀ pieces, t = pieces.flatMap Piece.text ++ .char '"' :: rest →
      Piece.symbols (p :: pieces) = s :: Piece.symbols pieces)
    (h : ∃ pieces, t = pieces.flatMap Piece.text ++ .char '"' :: rest ∧
      text = (s :: done).reverse ++ Piece.symbols pieces) :
    ∃ pieces, p.text ++ t = pieces.flatMap Piece.text ++ .char '"' :: rest ∧
      text = done.reverse ++ Piece.symbols pieces := by
  obtain ⟨pieces, ht, htext⟩ := h
  refine ⟨p :: pieces, by rw [ht, List.flatMap_cons, List.append_assoc], ?_⟩
  rw [htext, hsymbols pieces ht, List.reverse_cons, List.append_assoc]
  rfl

/-- Code units are read two by two if they are halves of a pair, and one by one else. -/
theorem exists_units {s : Symbol} (h : unicodeEscape? t = some (s, rest)) :
    ∃ high : CodeUnit,
      (∃ low c, t = high.symbols ++ ((Piece.unit low).text ++ rest) ∧
        Symbol.joined? high.value low.value = some c ∧ s = .char c) ∨
      (t = high.symbols ++ rest ∧ lowHalf? high.value rest = none ∧ s = .ofCode high.value) := by
  unfold unicodeEscape? at h
  split at h
  case h_2 => cases h
  case h_1 unit tail hunit =>
    obtain ⟨high, rfl, rfl, -⟩ := exists_codeUnit hunit
    split at h
    case h_1 c rest' hlow =>
      obtain ⟨rfl, rfl⟩ := Prod.mk.inj (Option.some.inj h)
      obtain ⟨low, rfl, hjoined⟩ := exists_low hlow
      exact ⟨high, Or.inl ⟨low, c, rfl, hjoined, rfl⟩⟩
    case h_2 hlow =>
      obtain ⟨rfl, rfl⟩ := Prod.mk.inj (Option.some.inj h)
      exact ⟨high, Or.inr ⟨rfl, hlow, rfl⟩⟩

/-- The symbols of a text that was read stand for pieces up to a quote. -/
theorem exists_pieces (start : WideText) (fuel : ℕ) :
    ∀ {done t text rest : WideText}, readQuoted start done fuel t = .ok (text, rest) →
      ∃ pieces, t = pieces.flatMap Piece.text ++ .char '"' :: rest ∧
        text = done.reverse ++ Piece.symbols pieces := by
  induction fuel with
  | zero =>
    intro done t text rest h
    cases h
  | succ fuel ih =>
    intro done t text rest h
    unfold readQuoted at h
    split at h
    case h_1 heq => cases heq
    case h_2 => cases h
    case h_3 =>
      -- The closing quote.
      obtain ⟨rfl, rfl⟩ := Prod.mk.inj (Except.ok.inj h)
      exact ⟨[], rfl, (List.append_nil _).symm⟩
    case h_4 => cases h
    case h_5 fuel' tail heq =>
      -- One code unit or two.
      obtain rfl := Nat.succ.inj heq
      split at h
      case h_2 => cases h
      case h_1 s tail' hescape =>
        obtain ⟨high, ⟨low, c, rfl, hjoined, rfl⟩ | ⟨rfl, hlow, rfl⟩⟩ := exists_units hescape
        · obtain ⟨pieces, rfl, rfl⟩ := ih h
          refine ⟨.unit high :: .unit low :: pieces, ?_, ?_⟩
          · simp [Piece.text]
          · rw [Piece.symbols, hjoined]
            simp
        · refine exists_pieces_cons (p := .unit high) (fun pieces hpieces => ?_) (ih h)
          exact symbols_unit_cons (hpieces ▸ hlow)
    case h_6 fuel' e tail hnot heq =>
      -- An escape of one letter.
      obtain rfl := Nat.succ.inj heq
      split at h
      case h_2 => cases h
      case h_1 c hc =>
        obtain ⟨letter, hletter, hplain⟩ := Option.bind_eq_some_iff.mp hc
        obtain ⟨escape, rfl, rfl⟩ := exists_escape hplain
        obtain rfl : e = .char escape.letter := by
          cases e with
          | char d => exact congrArg Symbol.char (Option.some.inj hletter)
          | half index => cases hletter
        exact exists_pieces_cons (p := .escape escape)
          (fun pieces _ => by rw [Piece.symbols] <;> simp [Piece.symbol]) (ih h)
    case h_7 fuel' s tail hquote hlast hunit hslash heq =>
      -- A symbol that stands for itself.
      obtain rfl := Nat.succ.inj heq
      have hplain : s ≠ .char '\\' := by
        rintro rfl
        cases tail with
        | nil => exact hlast rfl rfl
        | cons e tail => exact hslash e tail rfl rfl
      split_ifs at h with hcontrol
      · cases h
      · have hs : IsPlainSymbol s := by
          refine ⟨hquote, hplain, ?_⟩
          rintro c rfl
          simpa [Symbol.isChar] using hcontrol
        exact exists_pieces_cons (p := .plain s hs)
          (fun pieces _ => by rw [Piece.symbols] <;> simp [Piece.symbol]) (ih h)

theorem exists_pieces_of_readText {fuel levels : ℕ} {text : WideText}
    (h : readText fuel levels t = .ok (text, rest)) :
    ∃ pieces, .char '"' :: t = Piece.quoted pieces ++ rest ∧ text = Piece.symbols pieces := by
  obtain ⟨pieces, rfl, htext⟩ := exists_pieces _ _ (eq_ok_of_mapError_eq_ok h)
  exact ⟨pieces, by simp [Piece.quoted], htext⟩

/-! ### Arrays and objects -/

/-- Every value that is read with so many steps has a source. -/
def ValuesHaveSources (fuel : ℕ) : Prop :=
  ∀ {levels : ℕ} {t rest : WideText} {v : Json}, readValue fuel levels t = .ok (v, rest) →
    ∃ s : Source, t = s.symbols ++ rest ∧ s.value = v

/-- All items that are read with so many steps have a source. -/
def ItemsHaveSources (fuel : ℕ) : Prop :=
  ∀ {levels : ℕ} {done items : List Json} {t rest : WideText},
    readItems fuel levels done t = .ok (items, rest) →
      ∃ i : Items, t = i.symbols ++ .char ']' :: rest ∧ items = done.reverse ++ i.values

/-- All members that are read with so many steps have a source. -/
def MembersHaveSources (fuel : ℕ) : Prop :=
  ∀ {levels : ℕ} {done members : List (Text × Json)} {t rest : WideText},
    readMembers fuel levels done t = .ok (members, rest) →
      ∃ m : Members, t = m.symbols ++ .char '\x7d' :: rest ∧ members = done.reverse ++ m.values

/-- The first character tells what kind of value was read. -/
theorem valuesHaveSources_succ {fuel : ℕ} (hitems : ItemsHaveSources fuel)
    (hmembers : MembersHaveSources fuel) : ValuesHaveSources (fuel + 1) := by
  intro levels t rest v h
  rw [readValue.eq_def] at h
  dsimp only at h
  split at h
  case h_1 tail =>
    -- A quote, so a text.
    obtain ⟨⟨text, rest'⟩, htext, hpair⟩ := exists_of_bind_eq_ok h
    obtain ⟨rfl, rfl⟩ := Prod.mk.inj (Except.ok.inj hpair)
    obtain ⟨pieces, hsplit, rfl⟩ := exists_pieces_of_readText htext
    exact ⟨.text pieces, hsplit, rfl⟩
  case h_2 => cases h
  case h_3 tail levels =>
    -- A bracket. The array ends at once, or items follow.
    obtain ⟨before, hbefore⟩ := exists_blanks tail
    split at h
    case h_1 rest' hclose =>
      obtain ⟨rfl, rfl⟩ := Prod.mk.inj (Except.ok.inj h)
      refine ⟨.emptyArray before, ?_, rfl⟩
      rw [hclose] at hbefore
      rw [hbefore]
      simp [Source.symbols]
    case h_2 =>
      obtain ⟨⟨items, rest'⟩, hread, hpair⟩ := exists_of_bind_eq_ok h
      obtain ⟨rfl, rfl⟩ := Prod.mk.inj (Except.ok.inj hpair)
      obtain ⟨i, hi, rfl⟩ := hitems hread
      refine ⟨.array before i, ?_, rfl⟩
      rw [hi] at hbefore
      rw [hbefore]
      simp [Source.symbols]
  case h_4 => cases h
  case h_5 tail levels =>
    -- A brace. The object ends at once, or members follow.
    obtain ⟨before, hbefore⟩ := exists_blanks tail
    split at h
    case h_1 rest' hclose =>
      obtain ⟨rfl, rfl⟩ := Prod.mk.inj (Except.ok.inj h)
      refine ⟨.emptyObject before, ?_, rfl⟩
      rw [hclose] at hbefore
      rw [hbefore]
      simp [Source.symbols]
    case h_2 =>
      obtain ⟨⟨members, rest'⟩, hread, hpair⟩ := exists_of_bind_eq_ok h
      obtain ⟨rfl, rfl⟩ := Prod.mk.inj (Except.ok.inj hpair)
      obtain ⟨m, hm, rfl⟩ := hmembers hread
      refine ⟨.object before m, ?_, rfl⟩
      rw [hm] at hbefore
      rw [hbefore]
      simp [Source.symbols]
  case h_6 => exact exists_source_of_readAtom h

/-- Behind an item the array ends, or a comma stands and more items follow. -/
theorem itemsHaveSources_succ {fuel : ℕ} (hvalues : ValuesHaveSources fuel)
    (hitems : ItemsHaveSources fuel) : ItemsHaveSources (fuel + 1) := by
  intro levels done items t rest h
  rw [readItems] at h
  obtain ⟨⟨item, tail⟩, hread, h⟩ := exists_of_bind_eq_ok h
  obtain ⟨s, rfl, rfl⟩ := hvalues hread
  obtain ⟨after, hafter⟩ := exists_blanks tail
  dsimp only at h
  split at h
  case h_1 rest' hclose =>
    obtain ⟨rfl, rfl⟩ := Prod.mk.inj (Except.ok.inj h)
    rw [hclose] at hafter
    exact ⟨.last s after, by simp [Items.symbols, hafter], by simp [Items.values]⟩
  case h_2 more hcomma =>
    obtain ⟨before, hbefore⟩ := exists_blanks more
    obtain ⟨i, hi, rfl⟩ := hitems h
    rw [hi] at hbefore
    rw [hcomma, hbefore] at hafter
    exact ⟨.more s after before i, by simp [Items.symbols, hafter], by simp [Items.values]⟩
  case h_3 => cases h

/-- Behind a member the object ends, or a comma stands and more members follow. -/
theorem membersHaveSources_succ {fuel : ℕ} (hvalues : ValuesHaveSources fuel)
    (hmembers : MembersHaveSources fuel) : MembersHaveSources (fuel + 1) := by
  intro levels done members t rest h
  rw [readMembers.eq_def] at h
  dsimp only at h
  split at h
  case h_2 => cases h
  case h_1 quoted =>
    obtain ⟨⟨text, tail⟩, htext, h⟩ := exists_of_bind_eq_ok h
    obtain ⟨name, hname, rfl⟩ := exists_pieces_of_readText htext
    obtain ⟨afterName, hafterName⟩ := exists_blanks tail
    dsimp only at h
    split at h
    case h_2 => cases h
    case h_1 behindColon hcolon =>
      obtain ⟨before, hbefore⟩ := exists_blanks behindColon
      obtain ⟨⟨value, behind⟩, hread, h⟩ := exists_of_bind_eq_ok h
      obtain ⟨s, hs, rfl⟩ := hvalues hread
      obtain ⟨after, hafter⟩ := exists_blanks behind
      -- What was read up to the value, put together again.
      rw [hs] at hbefore
      rw [hcolon, hbefore] at hafterName
      rw [hname, hafterName]
      dsimp only at h
      split at h
      case h_1 rest' hclose =>
        obtain ⟨rfl, rfl⟩ := Prod.mk.inj (Except.ok.inj h)
        rw [hclose] at hafter
        refine ⟨.last name afterName before s after, ?_, by simp [Members.values]⟩
        rw [hafter]
        simp [Members.symbols, memberText]
      case h_2 more hcomma =>
        obtain ⟨next, hnext⟩ := exists_blanks more
        obtain ⟨m, hm, rfl⟩ := hmembers h
        rw [hm] at hnext
        rw [hcomma, hnext] at hafter
        refine ⟨.more name afterName before s after next m, ?_, by simp [Members.values]⟩
        rw [hafter]
        simp [Members.symbols, memberText]
      case h_3 => cases h

/-- Whatever is read has a source. -/
theorem haveSources (fuel : ℕ) :
    ValuesHaveSources fuel ∧ ItemsHaveSources fuel ∧ MembersHaveSources fuel := by
  induction fuel with
  | zero =>
    -- Without steps nothing is read.
    refine ⟨?_, ?_, ?_⟩
    · intro _ _ _ _ h
      cases h
    · intro _ _ _ _ _ h
      cases h
    · intro _ _ _ _ _ h
      cases h
  | succ fuel ih =>
    obtain ⟨hvalues, hitems, hmembers⟩ := ih
    exact ⟨valuesHaveSources_succ hitems hmembers, itemsHaveSources_succ hvalues hitems,
      membersHaveSources_succ hvalues hmembers⟩

/-- A text that was read is a document. -/
theorem exists_document {v : Json} (h : read t = .ok v) :
    ∃ d : Document, d.symbols = t ∧ d.value = v := by
  obtain ⟨before, hbefore⟩ := exists_blanks t
  unfold read at h
  dsimp only at h
  split at h
  case h_1 value houtcome =>
    obtain rfl := Except.ok.inj h
    obtain ⟨⟨value', tail⟩, hread, h⟩ := exists_of_bind_eq_ok houtcome
    obtain ⟨s, hs, rfl⟩ := (haveSources _).1 hread
    obtain ⟨after, hafter⟩ := exists_blanks tail
    dsimp only at h
    split at h
    case h_2 => cases h
    case h_1 hend =>
      obtain rfl := Except.ok.inj h
      rw [hend, List.append_nil] at hafter
      refine ⟨⟨before, s, after⟩, ?_, rfl⟩
      rw [Document.symbols, ← hafter, ← hs, ← hbefore]
  all_goals cases h

/-- The texts that are read are the documents within the limits. -/
theorem read_eq_ok_iff {v : Json} :
    read t = .ok v ↔ ∃ d : Document, d.Readable ∧ d.symbols = t ∧ d.value = v := by
  constructor
  · intro h
    obtain ⟨d, rfl, rfl⟩ := exists_document h
    -- Beyond the limits the reader would have named one of them.
    refine ⟨d, Classical.byContradiction fun hd => ?_, rfl, rfl⟩
    rcases Document.read_eq_error hd with herror | herror
    · cases herror.symm.trans h
    · cases herror.symm.trans h
  · rintro ⟨d, hd, rfl, rfl⟩
    exact Document.read_eq_ok hd

end ComplexityGauge.Json
