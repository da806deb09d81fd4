import ComplexityGauge.Proofs.Layers

/-!
# Declared sizes

The size limit looks at the method of a request and at one of its headers, and at nothing else. A
header that writes a number in plain digits is compared with the limit, zeros in front or not. A
header with any other character in it, and a header that is not there, are passed over. Superscript
digits are the exception: they pass for digits and write no number, so the size cannot be judged.

Bodies are never measured. A body above the limit is turned away if its size is declared, and read
if it is not.

## Main definitions

* `DeclaredSize.IsNumeral` — a header that writes a number in plain digits
* `DeclaredSize.HasSuperscripts` — digits with a superscript among them
* `SizeLimit.DeclaresAbove`, `SizeLimit.DeclaresSuperscripts` — requests with such a header
* `SizeLimit.FewDigits` — requests without a number that is too long to be computed

## Main results

* `SizeLimit.judge_of_declaresAbove`, `SizeLimit.judge_of_declaresSuperscripts`,
  `SizeLimit.judge_eq_pass` — the judgement by the header
* `Service.answer_of_declared` — the answer to a request that declares its size, or does not
-/

namespace ComplexityGauge

open Text

/-! ### Numerals -/

namespace Text

/-- A number is read back from its digits. -/
theorem digitsValue_ofNat (n : ℕ) : digitsValue (ofNat n) = n :=
  Nat.ofDigitChars_ten_toDigits

/-- Zeros in front do not count. -/
theorem digitsValue_zeros_append (zeros : ℕ) (digits : Text) :
    digitsValue (List.replicate zeros '0' ++ digits) = digitsValue digits := by
  induction zeros with
  | zero => rfl
  | succ zeros ih => exact ih

theorem isDigit_of_mem_ofNat {ch : Char} {n : ℕ} (h : ch ∈ ofNat n) : isDigit ch = true := by
  have hdigit := Nat.isDigit_of_mem_toDigits (by decide) (by decide) h
  rw [Char.isDigit, Bool.and_eq_true, decide_eq_true_eq, decide_eq_true_eq] at hdigit
  rw [isDigit, Bool.and_eq_true, decide_eq_true_eq, decide_eq_true_eq]
  exact hdigit

end Text

namespace DeclaredSize

variable {value : Text}

/-- The value writes a number in plain digits. -/
def IsNumeral (value : Text) : Prop := value ≠ [] ∧ ∀ ch ∈ value, isDigit ch = true

/-- The superscripts that pass for digits in a header. -/
def superscripts : List Char := ['\u00B9', '\u00B2', '\u00B3']

/-- The value is made of digits, and superscripts are among them. -/
def HasSuperscripts (value : Text) : Prop :=
  (∀ ch ∈ value, isDigit ch = true ∨ ch ∈ superscripts) ∧ ∃ ch ∈ value, ch ∈ superscripts

theorem isNumeral_zeros_ofNat (zeros n : ℕ) :
    IsNumeral (List.replicate zeros '0' ++ ofNat n) := by
  refine ⟨List.append_ne_nil_of_right_ne_nil _ Nat.toDigits_ne_nil, ?_⟩
  intro ch hch
  rcases List.mem_append.mp hch with hch | hch
  · rw [List.eq_of_mem_replicate hch]
    decide
  · exact isDigit_of_mem_ofNat hch

theorem isDigit_of_mem_superscripts {ch : Char} (h : ch ∈ superscripts) : isDigit ch = false := by
  have hnone : superscripts.all (fun ch => isDigit ch == false) = true := by decide
  exact beq_iff_eq.mp (List.all_eq_true.mp hnone ch h)

theorem hasSuperscripts_singleton {ch : Char} (h : ch ∈ superscripts) : HasSuperscripts [ch] := by
  refine ⟨fun ch' hch' => Or.inr ?_, ch, List.mem_singleton_self ch, h⟩
  rw [List.mem_singleton.mp hch']
  exact h

theorem IsNumeral.not_hasSuperscripts (h : IsNumeral value) : ¬ HasSuperscripts value := by
  rintro ⟨-, ch, hch, hsuper⟩
  exact absurd (h.2 ch hch) (by rw [isDigit_of_mem_superscripts hsuper]; decide)

theorem isAnyDigit_iff {ch : Char} :
    isAnyDigit ch = true ↔ isDigit ch = true ∨ ch ∈ superscripts := by
  simp only [isAnyDigit, superscripts, Bool.or_eq_true, beq_iff_eq, List.mem_cons, List.not_mem_nil,
    or_false]
  tauto

theorem IsNumeral.all_isAnyDigit (h : IsNumeral value) : value.all isAnyDigit = true :=
  List.all_eq_true.mpr fun ch hch => isAnyDigit_iff.mpr (Or.inl (h.2 ch hch))

theorem HasSuperscripts.all_isAnyDigit (h : HasSuperscripts value) :
    value.all isAnyDigit = true :=
  List.all_eq_true.mpr fun ch hch => isAnyDigit_iff.mpr (h.1 ch hch)

/-! ### What a header says -/

theorem ofText_of_isNumeral (h : IsNumeral value) (hlength : value.length ≤ Failure.maxDigits) :
    ofText value = .bytes (digitsValue value) := by
  have hall : value.all isDigit = true := List.all_eq_true.mpr h.2
  have hleading : ¬ Failure.maxDigits < (value.takeWhile isDigit).length := by
    have := (List.takeWhile_prefix isDigit (l := value)).length_le
    omega
  -- Each test of the reader is decided by now.
  simp only [ofText, List.isEmpty_eq_false_iff.mpr h.1, h.all_isAnyDigit, Bool.not_true,
    Bool.or_self, Bool.false_eq_true, if_false, if_neg hleading, hall, if_true]

theorem ofText_of_hasSuperscripts (h : HasSuperscripts value)
    (hlength : value.length ≤ Failure.maxDigits) : ofText value = .noNumber value := by
  have hany := h.all_isAnyDigit
  obtain ⟨-, ch, hch, hsuper⟩ := h
  have hall : value.all isDigit = false :=
    List.all_eq_false.mpr ⟨ch, hch, by rw [isDigit_of_mem_superscripts hsuper]; decide⟩
  have hleading : ¬ Failure.maxDigits < (value.takeWhile isDigit).length := by
    have := (List.takeWhile_prefix isDigit (l := value)).length_le
    omega
  simp only [ofText, List.isEmpty_eq_false_iff.mpr (List.ne_nil_of_mem hch), hany, Bool.not_true,
    Bool.or_self, Bool.false_eq_true, if_false, if_neg hleading, hall]

theorem ofText_of_other (hnumeral : ¬ IsNumeral value) (hsuper : ¬ HasSuperscripts value) :
    ofText value = .unstated := by
  refine if_pos ?_
  by_contra hdigits
  simp only [Bool.or_eq_true, List.isEmpty_iff, Bool.not_eq_true', not_or, Bool.not_eq_false,
    List.all_eq_true] at hdigits
  obtain ⟨hne, hany⟩ := hdigits
  have hclass (ch : Char) (hch : ch ∈ value) : isDigit ch = true ∨ ch ∈ superscripts :=
    isAnyDigit_iff.mp (hany ch hch)
  -- Digits that are no superscripts are plain ones.
  have hplain (ch : Char) (hch : ch ∈ value) : isDigit ch = true := by
    refine (hclass ch hch).resolve_right fun h => ?_
    exact hsuper ⟨hclass, ch, hch, h⟩
  exact hnumeral ⟨hne, hplain⟩

end DeclaredSize

/-! ### The judgement -/

namespace SizeLimit

open DeclaredSize

variable {limit : Int} {r : Request}

/-- The request sends something and declares a number of bytes above the limit. -/
def DeclaresAbove (limit : Int) (r : Request) : Prop :=
  r.method ∈ sendingMethods ∧ ∃ value, r.header? "content-length".toList = some value ∧
    IsNumeral value ∧ limit < digitsValue value

/-- The request sends something and declares its size with superscripts. -/
def DeclaresSuperscripts (r : Request) : Prop :=
  r.method ∈ sendingMethods ∧ ∃ value, r.header? "content-length".toList = some value ∧
    HasSuperscripts value

/-- A size that is declared in digits is declared in few enough to be computed. -/
def FewDigits (r : Request) : Prop :=
  ∀ value, r.header? "content-length".toList = some value → value.all isAnyDigit = true →
    value.length ≤ 4300

theorem fewDigits_of_length (h : ∀ value, r.header? "content-length".toList = some value →
    value.length ≤ 4300) : FewDigits r :=
  fun value hvalue _ => h value hvalue

/-- The size of a body is declared by its length in digits. -/
theorem declaresAbove_of_length (hsends : r.method ∈ sendingMethods)
    (hlarge : limit < r.body.length) {zeros : ℕ}
    (hvalue : r.header? "content-length".toList =
      some (List.replicate zeros '0' ++ ofNat r.body.length)) : DeclaresAbove limit r := by
  refine ⟨hsends, _, hvalue, isNumeral_zeros_ofNat zeros _, ?_⟩
  rw [digitsValue_zeros_append, digitsValue_ofNat]
  exact hlarge

theorem judge_of_sends (h : r.method ∈ sendingMethods) :
    judge limit r = match (declared r).failure? with
      | some cause => .failure cause
      | none => if (declared r).exceeds limit then .tooLarge else .pass :=
  if_pos (List.contains_iff_mem.mpr h)

theorem declared_of_value {value : Text} (h : r.header? "content-length".toList = some value) :
    declared r = .ofText value := by
  rw [declared, h]

theorem judge_of_declaresAbove (hfew : FewDigits r) (h : DeclaresAbove limit r) :
    judge limit r = .tooLarge := by
  obtain ⟨hsends, value, hvalue, hnumeral, hlarge⟩ := h
  rw [judge_of_sends hsends, declared_of_value hvalue,
    ofText_of_isNumeral hnumeral (hfew value hvalue hnumeral.all_isAnyDigit)]
  exact if_pos (decide_eq_true hlarge)

theorem judge_of_declaresSuperscripts (hfew : FewDigits r) (limit : Int)
    (h : DeclaresSuperscripts r) : ∃ value, judge limit r = .failure (.noNumber value) := by
  obtain ⟨hsends, value, hvalue, hsuper⟩ := h
  refine ⟨value, ?_⟩
  rw [judge_of_sends hsends, declared_of_value hvalue,
    ofText_of_hasSuperscripts hsuper (hfew value hvalue hsuper.all_isAnyDigit)]
  rfl

/-- Every other request may pass. -/
theorem judge_eq_pass (hfew : FewDigits r) (habove : ¬ DeclaresAbove limit r)
    (hsuper : ¬ DeclaresSuperscripts r) : judge limit r = .pass := by
  by_cases hsends : r.method ∈ sendingMethods
  swap
  · -- Of requests that send nothing, no header is looked at.
    exact if_neg (mt List.contains_iff_mem.mp hsends)
  rw [judge_of_sends hsends]
  cases hvalue : r.header? "content-length".toList with
  | none =>
    rw [declared, hvalue]
    rfl
  | some value =>
    rw [declared_of_value hvalue]
    by_cases hnumeral : IsNumeral value
    · have hsmall : ¬ limit < digitsValue value :=
        fun hlarge => habove ⟨hsends, value, hvalue, hnumeral, hlarge⟩
      rw [ofText_of_isNumeral hnumeral (hfew value hvalue hnumeral.all_isAnyDigit)]
      exact if_neg (by simpa [exceeds] using hsmall)
    · rw [ofText_of_other hnumeral fun h => hsuper ⟨hsends, value, hvalue, h⟩]
      rfl

/-- Sizes that cannot be judged are those declared with superscripts. -/
theorem judge_eq_failure_iff (hfew : FewDigits r) :
    (∃ cause, judge limit r = .failure cause) ↔ DeclaresSuperscripts r := by
  constructor
  · rintro ⟨cause, hcause⟩
    by_contra hsuper
    by_cases habove : DeclaresAbove limit r
    · rw [judge_of_declaresAbove hfew habove] at hcause
      exact nomatch hcause
    · rw [judge_eq_pass hfew habove hsuper] at hcause
      exact nomatch hcause
  · intro h
    obtain ⟨value, hvalue⟩ := judge_of_declaresSuperscripts hfew limit h
    exact ⟨_, hvalue⟩

end SizeLimit

/-! ### Answers -/

namespace Service

open SizeLimit

variable {s : Settings} {now : Text} {c : Counters} {r : Request}

/-- The answer to a request that declares more than the limit, written out. -/
def oversizeJson (limit : Int) : Json :=
  .object [("success".toList, .bool false), ("state".toList, .text "error".toList),
    ("error".toList, .text "request_too_large".toList),
    ("details".toList, .text ("Request body exceeds ".toList ++ ofInt limit ++ " bytes".toList))]

/-- A question asked ahead sends nothing. -/
theorem preflight?_of_sends (origins : List Text) (h : r.method ∈ sendingMethods) :
    Cors.preflight? origins r = none := by
  apply preflight?_eq_none
  rintro hmethod
  rw [hmethod] at h
  exact absurd h (by decide)

theorem status_admitted (s : Settings) (now : Text) (c : Counters) (r : Request) :
    (admitted s now c r).response.status ≠ 413 := by
  unfold admitted
  cases hrouted : routed s c now r with
  | ok served => exact (routed_own hrouted).status_ne.1
  | error cause => exact show 500 ≠ 413 by decide

/-- A request that declares more bytes than the limit is turned away before its body is looked at,
and leaves no trace. So is every body above the limit whose length is declared, with zeros in front
or without. A request that declares nothing of the kind goes on to its route, however long its body
is. -/
theorem answer_of_declared (s : Settings) (now : Text) (c : Counters)
    (hsends : r.method ∈ sendingMethods) (hfew : FewDigits r) :
    let o := answer s now c r
    (DeclaresAbove s.maxRequestSize r →
      o.response.status = 413 ∧ o.response.body = .json (oversizeJson s.maxRequestSize) ∧
        o.entries = [] ∧ o.counters = c ∧
        ∀ body, answer s now c { r with body := body } = o) ∧
    (s.maxRequestSize < r.body.length →
      (∃ zeros, r.header? "content-length".toList =
        some (List.replicate zeros '0' ++ ofNat r.body.length)) →
      DeclaresAbove s.maxRequestSize r) ∧
    (¬ DeclaresAbove s.maxRequestSize r → ¬ DeclaresSuperscripts r →
      o = admitted s now c r ∧ o.response.status ≠ 413) := by
  refine ⟨?declared, ?truthful, ?admitted⟩
  case declared =>
    intro h
    have hlarge := judge_of_declaresAbove hfew h
    rw [answer_of_tooLarge hlarge]
    refine ⟨rfl, rfl, rfl, rfl, fun body => ?_⟩
    -- The judgement does not see the body.
    exact answer_of_tooLarge (r := { r with body := body }) hlarge
  case truthful =>
    rintro hlarge ⟨zeros, hvalue⟩
    exact declaresAbove_of_length hsends hlarge hvalue
  case admitted =>
    intro habove hsuper
    rw [answer_of_pass (preflight?_of_sends s.origins hsends) (judge_eq_pass hfew habove hsuper)]
    exact ⟨rfl, status_admitted s now c r⟩

/-- A loop that is sent for analysis with a declaration of its size. -/
def declaredLoop (size : Text) : Request :=
  { paddedLoop with headers := ("content-length".toList, size) :: paddedLoop.headers }

theorem fewDigits_declaredLoop {size : Text} (hsize : size.length ≤ 4300) :
    FewDigits (declaredLoop size) := by
  refine fewDigits_of_length fun value hvalue => ?_
  obtain rfl : size = value := Option.some.inj hvalue
  exact hsize

/-- A body of twenty bytes under a limit of four. -/
theorem answer_declaredLoop :
    (declaredLoop "0020".toList).body.length = 20 ∧
      (answer { maxRequestSize := 4 } [] {} (declaredLoop "0020".toList)).response.status =
        413 := by
  have hlength : (declaredLoop "0020".toList).body.length = 20 := by decide
  obtain ⟨habove, htruthful, -⟩ := answer_of_declared { maxRequestSize := 4 } [] {}
    (r := declaredLoop "0020".toList) (by decide) (fewDigits_declaredLoop (by decide))
  refine ⟨hlength, (habove (htruthful ?_ ⟨2, ?_⟩)).1⟩
  · rw [hlength]
    decide
  · rw [hlength]
    decide

/-- Not every body above the limit is turned away. One whose size is not declared is read. -/
theorem not_forall_oversized_refused :
    ¬ ∀ (environment : Variables) (file : Option Text) (s : Settings),
      Settings.load environment file = .valid s →
      ∀ (now : Text) (c : Counters) (r : Request), r.method ∈ sendingMethods →
        s.maxRequestSize < r.body.length → (answer s now c r).response.status = 413 := by
  intro h
  have hloads : Settings.load [("MAX_REQUEST_SIZE".toList, some ['4'])] none =
      .valid { maxRequestSize := 4 } := rfl
  have hrefused := h _ none _ hloads [] {} paddedLoop (by decide) (by decide)
  have hanalysed : (answer { maxRequestSize := 4 } [] {} paddedLoop).response.status = 200 := by
    decide +kernel
  omega

end Service

end ComplexityGauge
