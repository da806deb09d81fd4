import ComplexityGauge.Proofs.Payload
import ComplexityGauge.Proofs.Sources

/-!
# Written texts are read back

The writer writes one of the sources of a value, the one without blanks and with as few escapes as
it can do with. So what holds of every source holds of what is written, and the reader undoes the
writer on objects whose members are texts, whatever characters stand in them.

## Main definitions

* `Json.Piece.ofChar` — a character as the writer writes it
* `Json.ofTexts`, `Json.Document.ofTexts` — an object whose members are texts, and its source

## Main results

* `Json.Piece.symbols_map_ofChar` — the pieces of a text stand for the text
* `Json.Document.readable_ofTexts` — objects of texts keep to the limits
* `Json.read_render_ofTexts` — the reader takes back an object of texts
-/

namespace ComplexityGauge.Json

open Text

/-! ### Characters -/

theorem isPlainSymbol_char {c : Char} (hquote : c ≠ '"') (hslash : c ≠ '\\')
    (hcontrol : 32 ≤ c.toNat) : IsPlainSymbol (.char c) := by
  refine ⟨by simpa using hquote, by simpa using hslash, ?_⟩
  rintro _ ⟨⟩
  exact hcontrol

theorem hexValue?_hexDigit : ∀ n < 16, hexValue? (hexDigit n) = some n := by decide

/-- The digit that the writer uses for a number below 16. -/
def HexDigit.ofFin (n : Fin 16) : HexDigit := ⟨hexDigit n, n, hexValue?_hexDigit n n.isLt⟩

/-- A control character by its number. -/
def CodeUnit.ofChar (c : Char) : CodeUnit :=
  ⟨.ofFin 0, .ofFin 0, .ofFin (Fin.ofNat 16 (c.toNat / 16)), .ofFin (Fin.ofNat 16 c.toNat)⟩

theorem CodeUnit.value_ofChar {c : Char} (h : c.toNat < 128) : (ofChar c).value = c.toNat := by
  change ((0 * 16 + 0) * 16 + c.toNat / 16 % 16) * 16 + c.toNat % 16 = c.toNat
  omega

namespace Piece

/-- A character as the writer writes it. -/
def ofChar (c : Char) : Piece :=
  if hquote : c = '"' then .escape .quote
  else if hslash : c = '\\' then .escape .backslash
  else if c = '\n' then .escape .lineFeed
  else if hcontrol : c.toNat < 32 ∨ c.toNat = 127 then .unit (.ofChar c)
  else .plain (.char c) (isPlainSymbol_char hquote hslash (by omega))

theorem text_ofChar (c : Char) : (ofChar c).text = .ofText (renderChar c) := by
  unfold ofChar renderChar
  simp only [Bool.or_eq_true, decide_eq_true_eq]
  split_ifs with hquote hslash hnewline hcontrol
  · rfl
  · rfl
  · rfl
  · have hhigh : c.toNat / 16 % 16 = c.toNat / 16 := by omega
    change WideText.ofText
        ['\\', 'u', '0', '0', hexDigit (c.toNat / 16 % 16), hexDigit (c.toNat % 16)] = _
    rw [hhigh]
    rfl
  · rfl

theorem symbol_ofChar (c : Char) : (ofChar c).symbol = .char c := by
  unfold ofChar
  split_ifs with hquote hslash hnewline hcontrol
  · rw [hquote]; rfl
  · rw [hslash]; rfl
  · rw [hnewline]; rfl
  · rw [symbol, CodeUnit.value_ofChar (by omega)]
    exact (dif_neg (by omega)).trans (congrArg Symbol.char (Char.ofNat_toNat c))
  · rfl

theorem value_lt_of_ofChar {c : Char} {high : CodeUnit} (h : ofChar c = .unit high) :
    high.value < 0xD800 := by
  unfold ofChar at h
  split_ifs at h with hquote hslash hnewline hcontrol
  obtain rfl := Piece.unit.inj h
  rw [CodeUnit.value_ofChar (by omega)]
  omega

/-- A code unit below the surrogates is no first half of a pair. -/
theorem joined?_eq_none {high : ℕ} (h : high < 0xD800) (low : ℕ) :
    Symbol.joined? high low = none := by
  refine if_neg ?_
  simp only [Bool.and_eq_true, decide_eq_true_eq, not_and]
  omega

theorem symbols_ofChar_cons (c : Char) (pieces : List Piece) :
    symbols (ofChar c :: pieces) = .char c :: symbols pieces := by
  rw [← symbol_ofChar c]
  cases h : ofChar c with
  | plain s isPlain => rw [symbols]; simp
  | escape e => rw [symbols]; simp
  | unit high =>
    have hjoined := joined?_eq_none (value_lt_of_ofChar h)
    cases pieces with
    | nil => rfl
    | cons next pieces =>
      cases next with
      | plain | escape => rw [symbols]; simp
      | unit low => rw [symbols, hjoined]; rfl

/-- The pieces of a text stand for the text. -/
theorem symbols_map_ofChar (t : Text) : symbols (t.map ofChar) = .ofText t := by
  induction t with
  | nil => rfl
  | cons c t ih => rw [List.map_cons, symbols_ofChar_cons, ih]; rfl

theorem flatMap_text_map_ofChar (t : Text) :
    (t.map ofChar).flatMap text = WideText.ofText (t.flatMap renderChar) := by
  rw [List.flatMap_map, WideText.ofText, List.map_flatMap]
  exact List.flatMap_congr fun c _ => text_ofChar c

theorem quoted_map_ofChar (t : Text) : quoted (t.map ofChar) = .ofText (renderText t) := by
  rw [quoted, flatMap_text_map_ofChar]
  simp [WideText.ofText, renderText]

end Piece

/-! ### Objects of texts -/

/-- The value of an object whose members are texts. -/
def ofTexts (members : List (Text × Text)) : List (Text × Json) :=
  members.map fun m => (m.1, .text m.2)

/-- No blanks. -/
def Blanks.none : Blanks := ⟨[], fun _ h => absurd h List.not_mem_nil⟩

/-- A text as the writer writes it. -/
def Source.ofText (t : Text) : Source := .text (t.map Piece.ofChar)

/-- Members that are texts as the writer writes them. -/
def Members.ofTexts (m : Text × Text) : List (Text × Text) → Members
  | [] => .last (m.1.map Piece.ofChar) .none .none (.ofText m.2) .none
  | next :: rest =>
    .more (m.1.map Piece.ofChar) .none .none (.ofText m.2) .none .none (Members.ofTexts next rest)

/-- An object of texts as the writer writes it. -/
def Document.ofTexts (members : List (Text × Text)) : Document where
  before := .none
  source := match members with
    | [] => .emptyObject .none
    | m :: members => .object .none (.ofTexts m members)
  after := .none

theorem symbols_none : Blanks.none.symbols = [] := rfl

theorem Source.symbols_ofText (t : Text) : (ofText t).symbols = .ofText (renderText t) :=
  Piece.quoted_map_ofChar t

theorem Source.value_ofText (t : Text) : (ofText t).value = .text t := by
  rw [ofText, Source.value, Piece.symbols_map_ofChar, Json.ofWide_ofText]

namespace Members

variable (m : Text × Text) (members : List (Text × Text))

theorem symbols_ofTexts :
    (ofTexts m members).symbols = .ofText (renderMembers (Json.ofTexts (m :: members))) := by
  induction members generalizing m with
  | nil =>
    simp [ofTexts, Members.symbols, memberText, symbols_none, Source.symbols_ofText,
      Piece.quoted_map_ofChar, Json.ofTexts, renderMembers, render, WideText.ofText]
  | cons next members ih =>
    have hnext := ih next
    simp [ofTexts, Members.symbols, memberText, symbols_none, Source.symbols_ofText,
      Piece.quoted_map_ofChar, Json.ofTexts, renderMembers, render, WideText.ofText] at hnext ⊢
    exact hnext

theorem values_ofTexts : (ofTexts m members).values = Json.ofTexts (m :: members) := by
  induction members generalizing m with
  | nil =>
    rw [ofTexts, values, Piece.symbols_map_ofChar, Source.value_ofText, WideText.shown_ofText]
    rfl
  | cons next members ih =>
    rw [ofTexts, values, Piece.symbols_map_ofChar, Source.value_ofText, WideText.shown_ofText, ih]
    rfl

/-- Texts are not nested, and they hold no integers. -/
theorem measures_ofTexts :
    (ofTexts m members).depth = 0 ∧ (ofTexts m members).longestInteger = 0 := by
  induction members generalizing m with
  | nil => exact ⟨rfl, rfl⟩
  | cons next members ih =>
    obtain ⟨hdepth, hlongest⟩ := ih next
    rw [ofTexts, depth, longestInteger, hdepth, hlongest]
    exact ⟨rfl, rfl⟩

end Members

namespace Document

variable (members : List (Text × Text))

theorem symbols_ofTexts :
    (ofTexts members).symbols = .ofText (render (.object (Json.ofTexts members))) := by
  cases members with
  | nil => rfl
  | cons m members =>
    simp [ofTexts, symbols, Source.symbols, symbols_none, Members.symbols_ofTexts, render,
      WideText.ofText]

theorem value_ofTexts : (ofTexts members).value = .object (Json.ofTexts members) := by
  cases members with
  | nil => rfl
  | cons m members => exact congrArg Json.object (Members.values_ofTexts m members)

/-- Objects of texts keep to the limits. -/
theorem readable_ofTexts : (ofTexts members).Readable := by
  cases members with
  | nil => exact ⟨by decide, by decide⟩
  | cons m members =>
    obtain ⟨hdepth, hlongest⟩ := Members.measures_ofTexts m members
    constructor
    · rw [ofTexts, Source.depth, hdepth]
      decide
    · rw [ofTexts, Source.longestInteger, hlongest]
      decide

end Document

/-- The reader takes back an object whose members are texts. -/
theorem read_render_ofTexts (members : List (Text × Text)) :
    read (.ofText (render (.object (ofTexts members)))) = .ok (.object (ofTexts members)) := by
  rw [← Document.symbols_ofTexts, Document.read_eq_ok (Document.readable_ofTexts members),
    Document.value_ofTexts]

end ComplexityGauge.Json
