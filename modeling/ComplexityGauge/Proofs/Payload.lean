import ComplexityGauge.Proofs.Lines
import ComplexityGauge.Record.Message
import ComplexityGauge.Service.Payload

/-!
# What a request for an analysis says

A request for an analysis is read from the members of an object. Its code may be refused, its
language hint never is, so the reading is the reading of the code with a language added. Texts that
come as JSON are wide texts: they are read back as they were sent, halves of surrogate pairs
included. Such a half stays in a hint when it is trimmed and lowercased, and so a hint that holds
one names no language.

## Main definitions

* `AnalysisRequest.languageOf` — the language that the members of an object ask for
* `IsAscii` — a text that is written by the same bytes in ASCII and in UTF-8
* `Payload.HoldsObject` — a request whose body is declared to be JSON and is read as an object

## Main results

* `AnalysisRequest.read_shape` — the reading of a request for an analysis
* `AnalysisRequest.languageOf_ofWide`, `AnalysisRequest.languageOf_of_forall_ne` — the language by
  what was sent as a hint
* `Encoding.decode?_encode` — ASCII characters are read back from the bytes that write them
* `Payload.read_of_holdsObject` — the reading of a body by its members
-/

namespace ComplexityGauge

open Text

/-! ### Checked values -/

namespace Validated

variable {α β : Type}

theorem map_eq (f : α → β) (v : Validated α) : f <$> v = v.map f := rfl

theorem seq_valid (v : Validated (α → β)) (a : α) : v <*> valid a = v.map fun f => f a := by
  cases v <;> rfl

theorem map_map {γ : Type} (f : α → β) (g : β → γ) (v : Validated α) :
    (v.map f).map g = v.map fun a => g (f a) := by
  cases v <;> rfl

theorem andThen_eq_valid_iff {v : Validated α} {f : α → Validated β} {b : β} :
    v.andThen f = .valid b ↔ ∃ a, v = .valid a ∧ f a = .valid b := by
  cases v with
  | valid a =>
    constructor
    · intro h
      exact ⟨a, rfl, h⟩
    · rintro ⟨_, ⟨⟩, h⟩
      exact h
  | invalid first more =>
    constructor
    · intro h
      exact nomatch h
    · rintro ⟨_, ⟨⟩, -⟩

theorem map_eq_valid_iff {v : Validated α} {f : α → β} {b : β} :
    v.map f = .valid b ↔ ∃ a, v = .valid a ∧ f a = b := by
  cases v with
  | valid a =>
    constructor
    · intro h
      exact ⟨a, rfl, valid.inj h⟩
    · rintro ⟨_, ⟨⟩, rfl⟩
      rfl
  | invalid first more =>
    constructor
    · intro h
      exact nomatch h
    · rintro ⟨_, ⟨⟩, -⟩

end Validated

/-! ### Wide texts -/

namespace WideText

@[simp] theorem shown_ofText (t : Text) : (ofText t).shown = t := by
  rw [shown, ofText, List.map_map]
  exact List.map_id _

theorem any_isHalf_ofText (t : Text) : (ofText t).any Symbol.isHalf = false := by
  rw [ofText, List.any_map]
  exact List.any_eq_false.mpr fun _ _ => Bool.false_ne_true

@[simp] theorem length_shown (t : WideText) : t.shown.length = t.length := List.length_map _

@[simp] theorem shown_eq_nil_iff {t : WideText} : t.shown = [] ↔ t = [] := List.map_eq_nil_iff

/-- The replacement character is no blank, and neither is half of a pair. -/
theorem isBlank_shown (s : Symbol) : isBlank s.shown = s.isChar isBlank := by
  cases s with
  | char c => rfl
  | half index => exact (by decide : isBlank '\uFFFD' = false)

/-- Trimming may come before or after halves are replaced. -/
theorem shown_trim (t : WideText) : t.trim.shown = Text.trim t.shown := by
  have hblank : isBlank ∘ Symbol.shown = Symbol.isChar isBlank := funext isBlank_shown
  simp only [trim, Text.trim, trimWhile, dropEndWhile, shown, List.dropWhile_map, hblank,
    ← List.map_reverse]

/-- A wide text without halves is a text. -/
theorem ofText_shown {t : WideText} (h : t.any Symbol.isHalf = false) : ofText t.shown = t := by
  induction t with
  | nil => rfl
  | cons symbol t ih =>
    rw [List.any_cons, Bool.or_eq_false_iff] at h
    cases symbol with
    | char c => exact congrArg (Symbol.char c :: ·) (ih h.2)
    | half index => exact absurd h.1 Bool.noConfusion

/-- A half is shown as the replacement character. -/
theorem replacement_mem_shown {t : WideText} (h : t.any Symbol.isHalf = true) :
    '\uFFFD' ∈ t.shown := by
  obtain ⟨symbol, hsymbol, hhalf⟩ := List.any_eq_true.mp h
  cases symbol with
  | char c => exact absurd hhalf Bool.false_ne_true
  | half index => exact List.mem_map_of_mem (f := Symbol.shown) hsymbol

end WideText

theorem Json.ofWide_ofText (t : Text) : Json.ofWide (.ofText t) = .text t := by
  rw [ofWide, WideText.any_isHalf_ofText, WideText.shown_ofText]
  rfl

/-- A wide text is read back as it was sent. -/
theorem Field.read_wideText_ofWide (t : WideText) : wideText.read (Json.ofWide t) = .valid t := by
  cases h : t.any Symbol.isHalf with
  | true => rw [Json.ofWide, h]; rfl
  | false =>
    rw [Json.ofWide, h]
    exact congrArg Validated.valid (WideText.ofText_shown h)

/-! ### Language hints -/

/-- The replacement character has no other lowercase form. -/
theorem Text.lowerChar_replacement (afterLetter : Bool) (rest : Text) :
    lowerChar afterLetter '\uFFFD' rest = ['\uFFFD'] := by
  have hsimple : lowerSimple '\uFFFD' = '\uFFFD' := by decide
  rw [lowerChar, if_neg (by decide), if_neg (by decide), hsimple]

theorem Text.replacement_mem_lowerFrom {t : Text} (h : '\uFFFD' ∈ t) (afterLetter : Bool) :
    '\uFFFD' ∈ lowerFrom afterLetter t := by
  induction t generalizing afterLetter with
  | nil => exact absurd h List.not_mem_nil
  | cons c t ih =>
    rw [lowerFrom, List.mem_append]
    rcases List.mem_cons.mp h with rfl | h
    · exact Or.inl (by rw [lowerChar_replacement]; exact List.mem_cons_self)
    · exact Or.inr (ih h _)

/-- The name of a language is a hint at it. -/
theorem Language.ofHint_name (l : Language) : ofHint l.name = l := by
  cases l <;> decide

/-- A hint that holds the replacement character names no language. -/
theorem Language.ofHint_of_replacement_mem {hint : Text} (h : '\uFFFD' ∈ hint) :
    ofHint hint = auto := by
  have hmem : '\uFFFD' ∈ normalize hint :=
    replacement_mem_lowerFrom ((mem_trim_iff (by decide)).mpr h) false
  have hnone : (all.find? fun l => l.name = normalize hint) = none := by
    refine List.find?_eq_none.mpr fun l _ hl => ?_
    -- The names of the languages are plain ASCII.
    rw [← of_decide_eq_true hl] at hmem
    cases l <;> revert hmem <;> decide
  rw [ofHint, hnone, Option.getD_none]

/-! ### Requests for an analysis -/

namespace AnalysisRequest

variable {members : List (Text × Json)}

/-- The language that the members of an object ask for. Everything but a text is no hint. -/
def languageOf (members : List (Text × Json)) : Language :=
  match Json.member? "language".toList members with
  | some (.text hint) => .ofHint hint
  | _ => .auto

/-- A hint that was sent as a text counts, even with halves of surrogate pairs in it. -/
theorem languageOf_ofWide {hint : WideText}
    (h : Json.member? "language".toList members = some (Json.ofWide hint)) :
    languageOf members = .ofHint hint.shown := by
  cases hhalf : hint.any Symbol.isHalf with
  | true =>
    -- A text with a half in it is no text of its own; the language is the same as without a hint.
    rw [Language.ofHint_of_replacement_mem (WideText.replacement_mem_shown hhalf), languageOf, h,
      Json.ofWide, hhalf]
    rfl
  | false =>
    rw [languageOf, h, Json.ofWide, hhalf]
    rfl

/-- Everything else stands for no hint. -/
theorem languageOf_of_forall_ne
    (h : ∀ hint, Json.member? "language".toList members ≠ some (Json.ofWide hint)) :
    languageOf members = .auto := by
  unfold languageOf
  split
  · next hint hmember =>
    have hne := h (.ofText hint)
    rw [Json.ofWide_ofText] at hne
    exact absurd hmember hne
  · rfl

theorem withDefault_languageField (members : List (Text × Json)) :
    withDefault members "language".toList languageField .auto = .valid (languageOf members) := by
  unfold withDefault languageOf
  cases Json.member? "language".toList members with
  | none => rfl
  | some j => cases j <;> rfl

/-- A request is refused for its code only. -/
theorem read_shape (limit : Int) (members : List (Text × Json)) :
    (shape limit).read members =
      (required members "code".toList (codeField limit)).map fun code =>
        { code := code, language := languageOf members } := by
  have hread : (shape limit).read members =
      AnalysisRequest.mk <$> required members "code".toList (codeField limit)
        <*> withDefault members "language".toList languageField .auto := rfl
  rw [hread, withDefault_languageField, Validated.seq_valid, Validated.map_eq]
  generalize required members "code".toList (codeField limit) = code
  exact Validated.map_map _ _ code

/-- The code is checked without the blanks at its ends. -/
theorem required_codeField {sent : WideText} (limit : Int)
    (h : Json.member? "code".toList members = some (Json.ofWide sent)) :
    required members "code".toList (codeField limit) =
      (checkCode limit sent).within (.field "code".toList) := by
  simp only [required, h, codeField, Field.read_wideText_ofWide]
  rfl

end AnalysisRequest

/-! ### Bytes -/

/-- Every character is an ASCII character other than the null character. -/
def IsAscii (t : Text) : Prop := ∀ c ∈ t, 0 < c.toNat ∧ c.toNat < 0x80

instance (t : Text) : Decidable (IsAscii t) :=
  List.decidableBAll (fun c : Char => 0 < c.toNat ∧ c.toNat < 0x80) t

section IsAscii

variable {t : Text}

theorem Utf8.encode_of_isAscii (h : IsAscii t) : encode t = t.map Char.toUInt8 := by
  induction t with
  | nil => rfl
  | cons c t ih =>
    have hsize : c.utf8Size = 1 :=
      Char.utf8Size_eq_one_iff.mpr (Nat.le_of_lt_succ (h c List.mem_cons_self).2)
    rw [encode, List.flatMap_cons, String.utf8EncodeChar_eq_singleton hsize, ← encode,
      ih fun d hd => h d (List.mem_cons_of_mem c hd)]
    rfl

theorem toNat_toUInt8_of_isAscii (h : IsAscii t) : ∀ c ∈ t, c.toUInt8.toNat = c.toNat := by
  intro c hc
  have hlt := (h c hc).2
  simp only [Char.toUInt8, UInt32.toNat_toUInt8]
  exact Nat.mod_eq_of_lt (Nat.lt_trans hlt (by decide))

theorem Utf8.codes?_of_isAscii (h : IsAscii t) :
    codes? (t.map Char.toUInt8) = some (t.map Char.toNat) := by
  have hpieces : pieces true (t.map Char.toUInt8) = t.map fun c => some c.toNat := by
    induction t with
    | nil => rfl
    | cons c t ih =>
      have hc := toNat_toUInt8_of_isAscii h c List.mem_cons_self
      have hstep : step true none c.toUInt8.toNat = ([some c.toNat], none) := by
        rw [hc, step, start, if_pos (h c List.mem_cons_self).2]
      have hrest := ih fun d hd => h d (List.mem_cons_of_mem c hd)
      rw [pieces] at hrest ⊢
      rw [List.map_cons, piecesFrom, hstep, hrest]
      rfl
  rw [codes?, hpieces, List.mapM_map]
  exact List.mapM_pure

/-- ASCII characters have no byte order mark in front of them and are found to be UTF-8. -/
theorem Encoding.ofBytes_of_isAscii (h : IsAscii t) :
    ofBytes (t.map Char.toUInt8) = (utf8, t.map Char.toUInt8) := by
  have hbyte : ∀ b ∈ t.map Char.toUInt8, b ≠ 0 ∧ b.toNat < 0x80 := by
    intro b hb
    obtain ⟨c, hc, rfl⟩ := List.mem_map.mp hb
    have hnat := toNat_toUInt8_of_isAscii h c hc
    refine ⟨fun hzero => ?_, by rw [hnat]; exact (h c hc).2⟩
    rw [hzero] at hnat
    exact absurd (h c hc).1 (by rw [← hnat]; decide)
  have hfind : (marks.find? fun m => m.1.isPrefixOf (t.map Char.toUInt8)) = none := by
    -- The first byte of every mark is zero or no ASCII character.
    have hmarks : ∀ m ∈ marks, ∃ b ∈ m.1, b = 0 ∨ 0x80 ≤ b.toNat := by decide
    refine List.find?_eq_none.mpr fun m hm hprefix => ?_
    obtain ⟨b, hb, hout⟩ := hmarks m hm
    obtain ⟨hne, hlt⟩ := hbyte b ((List.isPrefixOf_iff_prefix.mp hprefix).subset hb)
    exact hout.elim hne (Nat.not_le_of_lt hlt)
  have hunmarked : unmarked (t.map Char.toUInt8) = utf8 := by
    match t, hbyte with
    | [], _ | [_], _ | [_, _, _], _ => rfl
    | [a, b], hbyte | a :: b :: _ :: _ :: _, hbyte =>
      simp only [List.map_cons, List.forall_mem_cons] at hbyte
      simp [unmarked, hbyte.1, hbyte.2.1]
  rw [ofBytes, hfind]
  exact congrArg (·, _) hunmarked

/-- ASCII characters are read back from the bytes that write them. -/
theorem Encoding.decode?_encode (h : IsAscii t) : decode? (Utf8.encode t) = some (.ofText t) := by
  rw [Utf8.encode_of_isAscii h, decode?, ofBytes_of_isAscii h, symbols?, Utf8.codes?_of_isAscii h,
    Option.map_some, List.map_map]
  refine congrArg some (List.map_congr_left fun c hc => ?_)
  have hlt := (h c hc).2
  exact (dif_neg (by omega)).trans (congrArg Symbol.char (Char.ofNat_toNat c))

end IsAscii
/-! ### Bodies -/

namespace Payload

variable {r : Request} {members : List (Text × Json)}

/-- The request declares its body to be JSON, and the body is read as an object with these
members. -/
structure HoldsObject (r : Request) (members : List (Text × Json)) : Prop where
  declared : ∃ value, r.header? "content-type".toList = some value ∧ isJsonType value = true
  written : ∃ t, Encoding.decode? r.body = some t ∧ Json.read t = .ok (.object members)

/-- Without bytes no symbol is written. -/
theorem body_isEmpty_eq_false {t : WideText} (h : Encoding.decode? r.body = some t)
    (ht : t ≠ []) : r.body.isEmpty = false := by
  cases hbody : r.body with
  | nil =>
    rw [hbody] at h
    exact absurd (Option.some.inj h).symm ht
  | cons byte body => rfl

theorem HoldsObject.body_ne_nil (h : HoldsObject r members) : r.body.isEmpty = false := by
  obtain ⟨t, hdecode, hread⟩ := h.written
  refine body_isEmpty_eq_false hdecode ?_
  rintro rfl
  have hempty : Json.read [] = .error (.malformed 0) := rfl
  rw [hempty] at hread
  exact nomatch hread

/-- The reading of a body is the reading of its members. -/
theorem read_of_holdsObject {α : Type} (h : HoldsObject r members) (shape : Shape α) :
    read shape r = ofJson shape (.object members) := by
  obtain ⟨value, hvalue, hjson⟩ := h.declared
  obtain ⟨t, hdecode, hread⟩ := h.written
  rw [read, h.body_ne_nil, hvalue]
  simp only [Bool.false_eq_true, if_false, hjson, if_true, ofBytes, hdecode, hread]

end Payload

end ComplexityGauge
