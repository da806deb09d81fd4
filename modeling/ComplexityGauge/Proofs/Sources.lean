import ComplexityGauge.Proofs.Tokens

/-!
# Reading what was written

The reader takes back every source, unless one of its limits is in the way: it comes to the value of
the source, with what stands behind the source left unread, if the source is not too deep and holds
no integer with too many digits. Otherwise it stops, and what it reports is a limit and no fault.

The reader takes at most two steps for each symbol, one to see that a value starts and one to go
into it, so steps for two a symbol suffice.

## Main definitions

* `Json.Begun` — a place where a value may start
* `Json.Document.Readable` — a document that keeps to the limits

## Main results

* `Json.Source.readsAs`, `Json.Items.readsAs`, `Json.Members.readsAs` — the reader on values,
  items and members
* `Json.Document.read_eq_ok`, `Json.Document.read_eq_error` — the reader on documents
-/

namespace ComplexityGauge.Json

open Text

variable {rest : WideText}

/-! ### Values -/

/-- The text starts with what can be the first character of a value. -/
def Begun (t : WideText) : Prop := ∃ c more, t = .char c :: more ∧ c ∉ closers

theorem Begun.append {t : WideText} (h : Begun t) (rest : WideText) : Begun (t ++ rest) := by
  obtain ⟨c, more, rfl, hc⟩ := h
  exact ⟨c, more ++ rest, rfl, hc⟩

theorem Begun.solid {t : WideText} (h : Begun t) : Solid t := by
  obtain ⟨c, more, rfl, hc⟩ := h
  intro s hs
  obtain rfl : .char c = s := Option.some.inj hs
  rw [Bool.eq_false_iff]
  intro hblank
  have hcloser : ∀ d, isJsonBlank d = true → d ∈ closers := by
    intro d hd
    simp only [isJsonBlank, Bool.or_eq_true, beq_iff_eq] at hd
    rcases hd with ((rfl | rfl) | rfl) | rfl <;> decide
  exact hc (hcloser c hblank)

theorem Begun.ne_cons {t : WideText} (h : Begun t) {d : Char} (hd : d ∈ closers)
    (more : WideText) : t ≠ .char d :: more := by
  obtain ⟨c, more', rfl, hc⟩ := h
  intro heq
  obtain rfl : c = d := Symbol.char.inj (List.cons.inj heq).1
  exact hc hd

/-- The first characters of words and numbers. -/
def startsAtom (c : Char) : Bool := isDigit c || ['-', 'n', 't', 'f', 'N', 'I'].contains c

theorem begun_of_startsAtom {c : Char} (h : startsAtom c = true) (more : WideText) :
    Begun (.char c :: more) := by
  refine ⟨c, more, rfl, fun hc => ?_⟩
  have hcloser : closers.any startsAtom = false := by decide
  exact List.any_eq_false.mp hcloser c hc h

/-- Words and numbers are told from other values by their first characters. -/
theorem readValue_of_startsAtom {c : Char} (h : startsAtom c = true) (fuel levels : ℕ)
    (more : WideText) :
    readValue (fuel + 1) levels (.char c :: more) = readAtom levels (.char c :: more) := by
  have hopener : ['"', '[', '\x7b'].any startsAtom = false := by decide
  have hne : ∀ d ∈ ['"', '[', '\x7b'], c ≠ d := by
    rintro d hd rfl
    exact List.any_eq_false.mp hopener c hd h
  simp only [List.forall_mem_cons] at hne
  rw [readValue] <;> simp [hne]

theorem Word.exists_symbols_eq_cons (w : Word) :
    ∃ c more, WideText.ofText w.text = .char c :: more ∧ startsAtom c = Bool.true := by
  cases w <;> exact ⟨_, _, rfl, by decide⟩

theorem Number.exists_symbols_eq_cons (n : Number) :
    ∃ c more, WideText.ofText n.text = .char c :: more ∧ startsAtom c = true := by
  obtain ⟨c, more, hc, hsymbols, -⟩ := n.exists_symbols_eq []
  rw [List.append_nil] at hsymbols
  rw [hsymbols]
  cases n.negative with
  | true => exact ⟨'-', _, rfl, by decide⟩
  | false => exact ⟨c, more, rfl, by rw [startsAtom, hc, Bool.true_or]⟩

theorem Source.begun (s : Source) : Begun s.symbols := by
  cases s with
  | word w =>
    obtain ⟨c, more, hsymbols, hc⟩ := w.exists_symbols_eq_cons
    rw [symbols, hsymbols]
    exact begun_of_startsAtom hc more
  | number n =>
    obtain ⟨c, more, hsymbols, hc⟩ := n.exists_symbols_eq_cons
    rw [symbols, hsymbols]
    exact begun_of_startsAtom hc more
  | text pieces => exact ⟨'"', _, rfl, by decide⟩
  | emptyArray inside => exact ⟨'[', _, rfl, by decide⟩
  | array before items => exact ⟨'[', _, rfl, by decide⟩
  | emptyObject inside => exact ⟨'\x7b', _, rfl, by decide⟩
  | object before members => exact ⟨'\x7b', _, rfl, by decide⟩

theorem Items.begun (i : Items) : Begun i.symbols := by
  cases i with
  | last item after => exact item.begun.append _
  | more item after before rest => exact item.begun.append _

theorem Members.begun (m : Members) : Begun m.symbols := by
  cases m with
  | last => exact ⟨'"', _, rfl, by decide⟩
  | more => exact ⟨'"', _, rfl, by decide⟩

/-! ### Arrays and objects -/

section Nested

variable {fuel levels : ℕ} {p : Prop}

theorem readsAs_emptyArray (inside : Blanks) :
    ReadsAs (readValue (fuel + 1) levels (.char '[' :: (inside.symbols ++ .char ']' :: rest)))
      (0 < levels) (.array [], rest) := by
  cases levels with
  | zero => exact ⟨fun h => absurd h (Nat.lt_irrefl 0), fun _ => Or.inr rfl⟩
  | succ levels =>
    rw [readValue, skipBlanks_append inside (solid_cons (by decide) rest)]
    exact (ReadsAs.ok _).congr (by simp)

theorem readsAs_emptyObject (inside : Blanks) :
    ReadsAs (readValue (fuel + 1) levels
        (.char '\x7b' :: (inside.symbols ++ .char '\x7d' :: rest)))
      (0 < levels) (.object [], rest) := by
  cases levels with
  | zero => exact ⟨fun h => absurd h (Nat.lt_irrefl 0), fun _ => Or.inr rfl⟩
  | succ levels =>
    rw [readValue, skipBlanks_append inside (solid_cons (by decide) rest)]
    exact (ReadsAs.ok _).congr (by simp)

/-- An array is one level on top of its items. -/
theorem readsAs_array (before : Blanks) {items : Items} {values : List Json}
    (h : ∀ inner, levels = inner + 1 →
      ReadsAs (readItems fuel inner [] (items.symbols ++ .char ']' :: rest)) p (values, rest)) :
    ReadsAs (readValue (fuel + 1) levels
        (.char '[' :: (before.symbols ++ (items.symbols ++ .char ']' :: rest))))
      (0 < levels ∧ p) (.array values, rest) := by
  cases levels with
  | zero => exact ⟨fun h => absurd h.1 (Nat.lt_irrefl 0), fun _ => Or.inr rfl⟩
  | succ levels =>
    have hbegun := items.begun.append (.char ']' :: rest)
    rw [readValue, skipBlanks_append before hbegun.solid]
    split
    · next h => exact absurd h (hbegun.ne_cons (by decide) _)
    · refine ((h levels rfl).bind (q := True) ?_).congr (by simp)
      exact ReadsAs.ok _

/-- An object is one level on top of its members. -/
theorem readsAs_object (before : Blanks) {members : Members} {values : List (Text × Json)}
    (h : ∀ inner, levels = inner + 1 →
      ReadsAs (readMembers fuel inner [] (members.symbols ++ .char '\x7d' :: rest)) p
        (values, rest)) :
    ReadsAs (readValue (fuel + 1) levels
        (.char '\x7b' :: (before.symbols ++ (members.symbols ++ .char '\x7d' :: rest))))
      (0 < levels ∧ p) (.object values, rest) := by
  cases levels with
  | zero => exact ⟨fun h => absurd h.1 (Nat.lt_irrefl 0), fun _ => Or.inr rfl⟩
  | succ levels =>
    have hbegun := members.begun.append (.char '\x7d' :: rest)
    rw [readValue, skipBlanks_append before hbegun.solid]
    split
    · next h => exact absurd h (hbegun.ne_cons (by decide) _)
    · refine ((h levels rfl).bind (q := True) ?_).congr (by simp)
      exact ReadsAs.ok _

/-- The last item of an array. -/
theorem readsAs_lastItem {t : WideText} {item : Json} (after : Blanks) (done : List Json)
    (h : ReadsAs (readValue fuel levels t) p (item, after.symbols ++ .char ']' :: rest)) :
    ReadsAs (readItems (fuel + 1) levels done t) p (done.reverse ++ [item], rest) := by
  have hend : ReadsAs (.ok ((item :: done).reverse, rest) : Except Stop _) True
      (done.reverse ++ [item], rest) := by
    rw [List.reverse_cons]
    exact ReadsAs.ok _
  rw [readItems]
  refine (h.bind (q := True) ?_).congr (by simp)
  simp only [skipBlanks_append after (solid_cons (show isJsonBlank ']' = false by decide) _)]
  exact hend

/-- An item of an array that others follow. -/
theorem readsAs_moreItems {t tail : WideText} {item : Json} {q : Prop} (after before : Blanks)
    (done : List Json) {items : Items} {values : List Json}
    (h : ReadsAs (readValue fuel levels t) p
      (item, after.symbols ++ (.char ',' :: (before.symbols ++ (items.symbols ++ tail)))))
    (hmore : ReadsAs (readItems fuel levels (item :: done) (items.symbols ++ tail)) q
      ((item :: done).reverse ++ values, rest)) :
    ReadsAs (readItems (fuel + 1) levels done t) (p ∧ q)
      (done.reverse ++ item :: values, rest) := by
  rw [readItems]
  refine h.bind ?_
  simp only [skipBlanks_append after (solid_cons (show isJsonBlank ',' = false by decide) _),
    skipBlanks_append before (items.begun.append tail).solid]
  simpa using hmore

/-- A member of an object is read as its name and its value, and what stands behind it tells how to
go on. -/
theorem readsAs_member {q : Prop} {name : List Piece} (afterName before : Blanks) {value : Source}
    {tail : WideText} {done : List (Text × Json)} {result : List (Text × Json) × WideText}
    (hname : name.length < fuel + 1)
    (h : ReadsAs (readValue fuel levels (value.symbols ++ rest)) p (value.value, tail))
    (hmore : ReadsAs
      (match skipBlanks tail with
        | .char '\x7d' :: rest =>
          .ok ((((Piece.symbols name).shown, value.value) :: done).reverse, rest)
        | .char ',' :: rest =>
          readMembers fuel levels (((Piece.symbols name).shown, value.value) :: done)
            (skipBlanks rest)
        | rest => stopInside levels rest) q result) :
    ReadsAs (readMembers (fuel + 1) levels done
        (memberText name afterName before value.symbols ++ rest)) (p ∧ q) result := by
  have hsplit : memberText name afterName before value.symbols ++ rest =
      .char '"' :: (name.flatMap Piece.text ++ .char '"' ::
        (afterName.symbols ++ .char ':' :: (before.symbols ++ (value.symbols ++ rest)))) := by
    simp [memberText, Piece.quoted]
  rw [hsplit, readMembers]
  refine ((ReadsAs.of_eq_ok (readText_append levels name _ hname)).bind (q := p ∧ q) ?_).congr
    (by simp)
  simp only [skipBlanks_append afterName (solid_cons (show isJsonBlank ':' = false by decide) _),
    skipBlanks_append before (value.begun.append rest).solid]
  exact h.bind hmore

/-- The last member of an object. -/
theorem readsAs_lastMember {name : List Piece} (afterName before : Blanks) {value : Source}
    (after : Blanks) (done : List (Text × Json)) (hname : name.length < fuel + 1)
    (h : ReadsAs (readValue fuel levels
      (value.symbols ++ (after.symbols ++ .char '\x7d' :: rest))) p
        (value.value, after.symbols ++ .char '\x7d' :: rest)) :
    ReadsAs (readMembers (fuel + 1) levels done
        (memberText name afterName before value.symbols ++
          (after.symbols ++ .char '\x7d' :: rest))) p
      (done.reverse ++ [((Piece.symbols name).shown, value.value)], rest) := by
  refine (readsAs_member (q := True) afterName before hname h ?_).congr (by simp)
  rw [skipBlanks_append after (solid_cons (by decide) rest), List.reverse_cons]
  exact ReadsAs.ok _

/-- A member of an object that others follow. -/
theorem readsAs_moreMembers {q : Prop} {tail : WideText} {name : List Piece}
    (afterName before : Blanks) {value : Source} (after next : Blanks)
    (done : List (Text × Json)) {members : Members} {values : List (Text × Json)}
    (hname : name.length < fuel + 1)
    (h : ReadsAs (readValue fuel levels (value.symbols ++
        (after.symbols ++ .char ',' :: (next.symbols ++ (members.symbols ++ tail))))) p
      (value.value, after.symbols ++ .char ',' :: (next.symbols ++ (members.symbols ++ tail))))
    (hmore : ReadsAs (readMembers fuel levels
        (((Piece.symbols name).shown, value.value) :: done) (members.symbols ++ tail)) q
      ((((Piece.symbols name).shown, value.value) :: done).reverse ++ values, rest)) :
    ReadsAs (readMembers (fuel + 1) levels done
        (memberText name afterName before value.symbols ++
          (after.symbols ++ .char ',' :: (next.symbols ++ (members.symbols ++ tail))))) (p ∧ q)
      (done.reverse ++ ((Piece.symbols name).shown, value.value) :: values, rest) := by
  refine readsAs_member afterName before hname h ?_
  rw [skipBlanks_append after (solid_cons (by decide) _)]
  simp only [skipBlanks_append next (members.begun.append tail).solid]
  simpa using hmore

end Nested

theorem length_lt_of_quoted {pieces : List Piece} {fuel : ℕ}
    (h : (Piece.quoted pieces).length ≤ fuel) : pieces.length < fuel := by
  have hpieces := length_le_length_flatMap_text pieces
  simp only [Piece.quoted, List.length_cons, List.length_append, List.length_nil] at h
  omega

theorem length_memberText (name : List Piece) (afterName before : Blanks) (value : WideText) :
    (Piece.quoted name).length + value.length <
      (memberText name afterName before value).length := by
  simp only [memberText, List.length_append, List.length_cons]
  omega

mutual

/-- The reader takes back a value within its limits. -/
theorem Source.readsAs (s : Source) (levels : ℕ) {rest : WideText} {fuel : ℕ}
    (hfuel : 2 * s.symbols.length ≤ fuel) (hrest : Ended rest) :
    ReadsAs (readValue fuel levels (s.symbols ++ rest))
      (s.depth ≤ levels ∧ s.longestInteger ≤ maxIntegerDigits) (s.value, rest) := by
  -- A value has a first symbol, so at least one step is left.
  obtain ⟨fuel, rfl⟩ : ∃ more, fuel = more + 1 := by
    obtain ⟨c, more, hsymbols, -⟩ := s.begun
    rw [hsymbols, List.length_cons] at hfuel
    exact Nat.exists_eq_succ_of_ne_zero (by omega)
  match s with
  | .word w =>
    obtain ⟨c, more, hsymbols, hc⟩ := w.exists_symbols_eq_cons
    have hread := readsAs_word w levels rest
    rw [Source.symbols]
    rw [hsymbols, List.cons_append] at hread ⊢
    rw [readValue_of_startsAtom hc]
    exact hread.congr (by simp [Source.depth, Source.longestInteger])
  | .number n =>
    obtain ⟨c, more, hsymbols, hc⟩ := n.exists_symbols_eq_cons
    have hread := readsAs_number n levels hrest
    rw [Source.symbols]
    rw [hsymbols, List.cons_append] at hread ⊢
    rw [readValue_of_startsAtom hc]
    exact hread.congr (by simp [Source.depth, Source.longestInteger])
  | .text pieces =>
    have hpieces : pieces.length < fuel + 1 := length_lt_of_quoted (by
      rw [Source.symbols] at hfuel
      omega)
    have hsplit : (Source.text pieces).symbols ++ rest =
        .char '"' :: (pieces.flatMap Piece.text ++ .char '"' :: rest) := by
      simp [Source.symbols, Piece.quoted]
    rw [hsplit, readValue, readText_append levels pieces rest hpieces]
    exact (ReadsAs.ok _).congr (by simp [Source.depth, Source.longestInteger])
  | .emptyArray inside =>
    have hsplit : (Source.emptyArray inside).symbols ++ rest =
        .char '[' :: (inside.symbols ++ .char ']' :: rest) := by simp [Source.symbols]
    rw [hsplit]
    exact (readsAs_emptyArray inside).congr (by
      simp [Source.depth, Source.longestInteger, Nat.succ_le_iff])
  | .emptyObject inside =>
    have hsplit : (Source.emptyObject inside).symbols ++ rest =
        .char '\x7b' :: (inside.symbols ++ .char '\x7d' :: rest) := by simp [Source.symbols]
    rw [hsplit]
    exact (readsAs_emptyObject inside).congr (by
      simp [Source.depth, Source.longestInteger, Nat.succ_le_iff])
  | .array before items =>
    have hsplit : (Source.array before items).symbols ++ rest =
        .char '[' :: (before.symbols ++ (items.symbols ++ .char ']' :: rest)) := by
      simp [Source.symbols]
    have hitems : 2 * items.symbols.length + 1 ≤ fuel := by
      simp only [Source.symbols, List.length_cons, List.length_append, List.length_nil] at hfuel
      omega
    -- Inside the brackets one level less is left.
    rw [hsplit]
    refine (readsAs_array (p := items.depth + 1 ≤ levels ∧
      items.longestInteger ≤ maxIntegerDigits) before fun inner hinner => ?_).congr ?_
    · exact (items.readsAs inner [] hitems).congr (by omega)
    · simp only [Source.depth, Source.longestInteger]
      omega
  | .object before members =>
    have hsplit : (Source.object before members).symbols ++ rest =
        .char '\x7b' :: (before.symbols ++ (members.symbols ++ .char '\x7d' :: rest)) := by
      simp [Source.symbols]
    have hmembers : 2 * members.symbols.length + 1 ≤ fuel := by
      simp only [Source.symbols, List.length_cons, List.length_append, List.length_nil] at hfuel
      omega
    rw [hsplit]
    refine (readsAs_object (p := members.depth + 1 ≤ levels ∧
      members.longestInteger ≤ maxIntegerDigits) before fun inner hinner => ?_).congr ?_
    · exact (members.readsAs inner [] hmembers).congr (by omega)
    · simp only [Source.depth, Source.longestInteger]
      omega

/-- The reader takes back the items of an array within its limits. -/
theorem Items.readsAs (i : Items) (levels : ℕ) (done : List Json) {rest : WideText} {fuel : ℕ}
    (hfuel : 2 * i.symbols.length + 1 ≤ fuel) :
    ReadsAs (readItems fuel levels done (i.symbols ++ .char ']' :: rest))
      (i.depth ≤ levels ∧ i.longestInteger ≤ maxIntegerDigits)
      (done.reverse ++ i.values, rest) := by
  obtain ⟨fuel, rfl⟩ : ∃ more, fuel = more + 1 := Nat.exists_eq_succ_of_ne_zero (by omega)
  match i with
  | .last item after =>
    rw [Items.symbols, List.length_append] at hfuel
    rw [Items.symbols, List.append_assoc]
    have hitem : 2 * item.symbols.length ≤ fuel := by omega
    exact readsAs_lastItem after done
      (item.readsAs levels hitem (ended_append after (ended_cons (by decide) rest)))
  | .more item after before more =>
    simp only [Items.symbols, List.length_append, List.length_cons] at hfuel
    have hsplit : (Items.more item after before more).symbols ++ .char ']' :: rest =
        item.symbols ++ (after.symbols ++ .char ',' ::
          (before.symbols ++ (more.symbols ++ .char ']' :: rest))) := by
      simp [Items.symbols]
    have hitem : 2 * item.symbols.length ≤ fuel := by omega
    have hmore : 2 * more.symbols.length + 1 ≤ fuel := by omega
    rw [hsplit]
    refine (readsAs_moreItems after before done
      (item.readsAs levels hitem (ended_append after (ended_cons (by decide) _)))
      (more.readsAs levels (item.value :: done) hmore)).congr ?_
    simp only [Items.depth, Items.longestInteger]
    omega

/-- The reader takes back the members of an object within its limits. -/
theorem Members.readsAs (m : Members) (levels : ℕ) (done : List (Text × Json)) {rest : WideText}
    {fuel : ℕ} (hfuel : 2 * m.symbols.length + 1 ≤ fuel) :
    ReadsAs (readMembers fuel levels done (m.symbols ++ .char '\x7d' :: rest))
      (m.depth ≤ levels ∧ m.longestInteger ≤ maxIntegerDigits)
      (done.reverse ++ m.values, rest) := by
  obtain ⟨fuel, rfl⟩ : ∃ more, fuel = more + 1 := Nat.exists_eq_succ_of_ne_zero (by omega)
  match m with
  | .last name afterName before value after =>
    have hmember := length_memberText name afterName before value.symbols
    simp only [Members.symbols, List.length_append] at hfuel
    rw [Members.symbols, List.append_assoc]
    have hname : (Piece.quoted name).length ≤ fuel + 1 := by omega
    have hvalue : 2 * value.symbols.length ≤ fuel := by omega
    exact readsAs_lastMember afterName before after done (length_lt_of_quoted hname)
      (value.readsAs levels hvalue (ended_append after (ended_cons (by decide) rest)))
  | .more name afterName before value after next more =>
    have hmember := length_memberText name afterName before value.symbols
    simp only [Members.symbols, List.length_append, List.length_cons] at hfuel
    have hsplit : (Members.more name afterName before value after next more).symbols ++
          .char '\x7d' :: rest =
        memberText name afterName before value.symbols ++ (after.symbols ++ .char ',' ::
          (next.symbols ++ (more.symbols ++ .char '\x7d' :: rest))) := by
      simp [Members.symbols]
    have hname : (Piece.quoted name).length ≤ fuel + 1 := by omega
    have hvalue : 2 * value.symbols.length ≤ fuel := by omega
    have hmore : 2 * more.symbols.length + 1 ≤ fuel := by omega
    rw [hsplit]
    refine (readsAs_moreMembers afterName before after next done (length_lt_of_quoted hname)
      (value.readsAs levels hvalue (ended_append after (ended_cons (by decide) _)))
      (more.readsAs levels _ hmore)).congr ?_
    simp only [Members.depth, Members.longestInteger]
    omega

end

/-! ### Documents -/

namespace Document

variable {d : Document}

/-- The document keeps to the limits of the reader. -/
structure Readable (d : Document) : Prop where
  depth_le : d.source.depth ≤ maxDepth
  longestInteger_le : d.source.longestInteger ≤ maxIntegerDigits

/-- The reader takes back a document within its limits. -/
theorem readsAs (d : Document) :
    ReadsAs (readValue (2 * d.symbols.length + 2) maxDepth (d.source.symbols ++ d.after.symbols))
      d.Readable (d.value, d.after.symbols) := by
  -- The reader starts with two steps for each symbol of the document, blanks included.
  have hfuel : 2 * d.source.symbols.length ≤ 2 * d.symbols.length + 2 := by
    simp only [symbols, List.length_append]
    omega
  have hend : Ended d.after.symbols := by
    have := ended_append d.after ended_nil
    rwa [List.append_nil] at this
  exact (d.source.readsAs maxDepth hfuel hend).congr
    ⟨fun h => ⟨h.1, h.2⟩, fun h => ⟨h.depth_le, h.longestInteger_le⟩⟩

theorem symbols_ne_nil (d : Document) : d.symbols ≠ [] := by
  obtain ⟨c, more, hsymbols, -⟩ := d.source.begun
  simp [symbols, hsymbols]

theorem skipBlanks_symbols (d : Document) :
    skipBlanks d.symbols = d.source.symbols ++ d.after.symbols :=
  skipBlanks_append d.before (d.source.begun.append _).solid

theorem skipBlanks_after (d : Document) : skipBlanks d.after.symbols = [] := by
  have hskip := skipBlanks_append d.after (t := []) fun _ hs => nomatch hs
  rwa [List.append_nil] at hskip

/-- The reader takes back a document that keeps to its limits. -/
theorem read_eq_ok (h : d.Readable) : read d.symbols = .ok d.value := by
  rw [read, d.skipBlanks_symbols, d.readsAs.eq_ok h]
  simp only [bind, Except.bind, d.skipBlanks_after]
  rfl

/-- It names a limit where a document does not keep to it. -/
theorem read_eq_error (h : ¬ d.Readable) :
    read d.symbols = .error .oversizedInteger ∨ read d.symbols = .error .tooDeep := by
  rw [read, d.skipBlanks_symbols]
  rcases d.readsAs.eq_error h with herror | herror
  · exact Or.inl (by rw [herror]; rfl)
  · exact Or.inr (by rw [herror]; rfl)

end Document

end ComplexityGauge.Json
