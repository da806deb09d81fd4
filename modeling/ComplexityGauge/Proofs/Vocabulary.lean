import ComplexityGauge.Proofs.Mounts

/-!
# Names of languages

A language is looked up by name in three places: as a hint, as the name of an example, and on the
route that answers with an example. Each place trims and lowercases for itself, two of them know
`auto` and one falls back to another language than the others. They agree all the same. What they
look up is the trimmed text in lowercase, and the names of the languages hold no letter that full
lowercasing brings forth from beyond ASCII, so the capital ASCII letters are all it has to change.

## Main definitions

* `Service.AsksExample`, `Service.AsksExamples` — the requests for an example and for their list

## Main results

* `Text.lower_eq_iff` — a word without inert characters as a lowercase form
* `Language.ofHint_eq_iff` — the hints at a language
* `Language.ofExampleName_eq` — the two lookups differ in what they fall back to
* `Service.answer_example` — the three lookups agree
-/

namespace ComplexityGauge

open Text

namespace Text

variable {t u word : Text}

/-- Texts that resemble each other are equal if the first holds no inert character. The dot above
of a dotted `i` is one. -/
theorem Resembles.eq_of_left (h : Resembles t u) (ht : ∀ c ∈ t, isInert c = false) : t = u := by
  induction h with
  | nil => rfl
  | same c h ih => rw [ih (List.forall_mem_cons.mp ht).2]
  | inert hc hd h ih => exact absurd hc (by simp [ht _ List.mem_cons_self])
  | dotted h ih =>
    have hdot := ht '\u0307' (List.mem_cons_of_mem _ List.mem_cons_self)
    exact absurd hdot (by decide)

theorem Resembles.eq_of_right (h : Resembles t u) (hu : ∀ c ∈ u, isInert c = false) : t = u := by
  induction h with
  | nil => rfl
  | same c h ih => rw [ih (List.forall_mem_cons.mp hu).2]
  | inert hc hd h ih => exact absurd hd (by simp [hu _ List.mem_cons_self])
  | dotted h ih =>
    have hdotted := hu dottedCapitalI List.mem_cons_self
    exact absurd hdotted (by decide)

/-- A word without inert characters is the lowercase form of the texts that become the word when
their capital ASCII letters are changed. -/
theorem lower_eq_iff (hword : ∀ c ∈ word, isInert c = false) :
    lower t = word ↔ t.map lowerAscii = word := by
  constructor
  · rintro rfl
    exact ((resembles_lower t).eq_of_left hword).symm
  · rintro rfl
    exact (resembles_lower t).eq_of_right hword

end Text

/-! ### Lookups -/

namespace Language

variable {l : Language} {t : Text}

theorem name_injective : Function.Injective name := Function.LeftInverse.injective ofHint_name

theorem isInert_eq_false_of_mem_name (l : Language) : ∀ c ∈ l.name, isInert c = false := by
  have hall : (l.name.all fun c => !isInert c) = true := by cases l <;> decide
  intro c hc
  have hinert := List.all_eq_true.mp hall c hc
  rwa [Bool.not_eq_true'] at hinert

/-- No two languages share a name, so what is found is what was looked for. -/
theorem find?_name_eq_some_iff {languages : List Language} :
    (languages.find? fun l' => l'.name = t) = some l ↔ l ∈ languages ∧ l.name = t := by
  constructor
  · intro h
    exact ⟨List.mem_of_find?_eq_some h, of_decide_eq_true (List.find?_some h :)⟩
  · rintro ⟨hl, rfl⟩
    cases hfind : languages.find? fun l' => l'.name = l.name with
    | none => exact absurd (List.find?_eq_none.mp hfind l hl) (by simp)
    | some l' =>
      have hname : l'.name = l.name := of_decide_eq_true (List.find?_some hfind :)
      rw [name_injective hname]

theorem ofHint_eq_iff_normalize (hl : l ≠ auto) : ofHint t = l ↔ normalize t = l.name := by
  have hall : l ∈ all := by cases l <;> decide
  rw [ofHint]
  constructor
  · intro h
    -- The language does not come from the fallback, which is no hint.
    cases hfind : all.find? fun l' => l'.name = normalize t with
    | none =>
      rw [hfind] at h
      exact absurd h.symm hl
    | some l' =>
      rw [hfind] at h
      obtain rfl : l' = l := h
      exact (find?_name_eq_some_iff.mp hfind).2.symm
  · intro h
    rw [find?_name_eq_some_iff.mpr ⟨hall, h.symm⟩]
    rfl

/-- A hint names a language if, trimmed and with small ASCII letters, it is the name. No letter from
beyond ASCII is part of such a hint. -/
theorem ofHint_eq_iff (hl : l ≠ auto) :
    ofHint t = l ↔ (trim t).map lowerAscii = l.name := by
  rw [ofHint_eq_iff_normalize hl, Text.normalize, lower_eq_iff l.isInert_eq_false_of_mem_name]

/-- An example is looked up as a hint is, and only the fallback differs. -/
theorem ofExampleName_eq (t : Text) :
    ofExampleName t = if ofHint t = auto then defaultExample else ofHint t := by
  -- The search for an example passes over `auto` and over nothing else.
  have hlisted : ∀ l, l ∈ withExample ↔ l ≠ auto := by
    intro l
    cases l <;> decide
  rw [ofExampleName]
  cases hfind : withExample.find? fun l => l.name = normalize t with
  | none =>
    have hauto : ofHint t = auto := by
      by_contra hne
      have hname := (ofHint_eq_iff_normalize hne).mp rfl
      have hmiss := List.find?_eq_none.mp hfind _ ((hlisted _).mpr hne)
      exact hmiss (decide_eq_true hname.symm)
    rw [if_pos hauto]
    rfl
  | some l =>
    obtain ⟨hmem, hname⟩ := find?_name_eq_some_iff.mp hfind
    have hne := (hlisted l).mp hmem
    rw [(ofHint_eq_iff_normalize hne).mpr hname.symm, if_neg hne]
    rfl

theorem ofExampleName_mem (t : Text) : ofExampleName t ∈ withExample := by
  rw [ofExampleName_eq]
  cases ofHint t <;> decide

/-- The name of a language with an example leads back to it. -/
theorem ofExampleName_name (hl : l ∈ withExample) : ofExampleName l.name = l := by
  rw [ofExampleName_eq, ofHint_name]
  cases l with
  | auto => exact absurd hl (by decide)
  | python | javascript | pseudocode => rfl

end Language

/-- Looking an example up once more by the name of its language gives the same example. -/
theorem exampleFor_name (t : Text) : exampleFor (Language.ofExampleName t).name = exampleFor t := by
  rw [exampleFor, exampleFor, Language.ofExampleName_name (Language.ofExampleName_mem t)]

/-! ### Routes -/

namespace Service

variable {r : Request} {t : Text}

/-- The request asks for the example of a language given by name, below either mount. -/
structure AsksExample (r : Request) (t : Text) : Prop where
  method : r.method = "GET".toList
  path : r.path = "/examples/".toList ++ t ∨ r.path = "/api/v1/examples/".toList ++ t
  given : t ≠ []
  segment : '/' ∉ t

/-- The request asks for the list of languages with an example, below either mount. -/
structure AsksExamples (r : Request) : Prop where
  method : r.method = "GET".toList
  path : r.path = "/examples".toList ∨ r.path = "/api/v1/examples".toList

theorem AsksExample.route (h : AsksExample r t) : Route.ofPath? r.path = some (.snippet t) := by
  rcases h.path with hpath | hpath
  · rw [hpath]
    exact Route.ofPath?_snippet h.given h.segment
  · have hne : "/examples/".toList ++ t ≠ [] := List.append_ne_nil_of_right_ne_nil _ h.given
    have hmount : r.path = Route.mount ++ ("/examples/".toList ++ t) := by
      rw [hpath, ← List.append_assoc]
      rfl
    rw [hmount, Route.ofPath?_mount_append hne]
    exact Route.ofResource?_snippet h.given h.segment

theorem AsksExamples.route (h : AsksExamples r) : Route.ofPath? r.path = some .snippets := by
  rcases h.path with hpath | hpath <;> rw [hpath] <;> decide

/-- A request for an example is answered with the example that the lookup by name finds. -/
theorem answer_of_asksExample (s : Settings) (now : Text) (c : Counters) (h : AsksExample r t) :
    (answer s now c r).response.status = 200 ∧
      (answer s now c r).response.body =
        .json (.object [("language".toList, .text (Language.ofExampleName t).name),
          ("code".toList, .text (exampleFor t))]) := by
  have hshown : ExampleReply.shape.toJson (exampleReply t) =
      .object [("language".toList, .text (Language.ofExampleName t).name),
        ("code".toList, .text (exampleFor t))] := by
    rw [← exampleFor_name t, ← Json.ofWide_ofText, ← Json.ofWide_ofText]
    rfl
  rw [answer_of_route (judge_of_get s.maxRequestSize h.method) h.route h.method rfl, ← hshown]
  exact ⟨rfl, rfl⟩

theorem answer_of_asksExamples (s : Settings) (now : Text) (c : Counters) (h : AsksExamples r) :
    (answer s now c r).response.status = 200 ∧
      (answer s now c r).response.body =
        .json (.object [
          ("languages".toList, .array (Language.withExample.map fun l => .text l.name)),
          ("default".toList, .text Language.defaultExample.name)]) := by
  rw [answer_of_route (judge_of_get s.maxRequestSize h.method) h.route h.method rfl]
  exact ⟨rfl, rfl⟩

/-- The three lookups agree. A request for an example is answered with the example that is looked
up by name, for a language that is listed: the language that the name is a hint at or, if it is
none, the one that is listed as the default. A text is a hint at a language if it is the name of the
language up to blanks at its ends and capital ASCII letters. Looking a name up twice is looking it
up once. -/
theorem answer_example (t : Text) :
    (∀ (s : Settings) (now : Text) (c : Counters) (r : Request), AsksExample r t →
      ∃ (l : Language) (listed : List Language),
        (answer s now c r).response.status = 200 ∧
        (answer s now c r).response.body =
          .json (.object [("language".toList, .text l.name),
            ("code".toList, .text (exampleFor t))]) ∧
        (∀ (s' : Settings) (now' : Text) (c' : Counters) (r' : Request), AsksExamples r' →
          (answer s' now' c' r').response.status = 200 ∧
            (answer s' now' c' r').response.body =
              .json (.object [
                ("languages".toList, .array (listed.map fun l' => .text l'.name)),
                ("default".toList, .text "pseudocode".toList)])) ∧
        l ∈ listed ∧
        (Language.ofHint t ≠ .auto → l = Language.ofHint t) ∧
        (Language.ofHint t = .auto → l = .pseudocode)) ∧
      (∀ l, l ≠ .auto → (Language.ofHint t = l ↔ (trim t).map lowerAscii = l.name)) ∧
      Language.ofHint (Language.ofHint t).name = Language.ofHint t ∧
      Language.ofExampleName (Language.ofExampleName t).name = Language.ofExampleName t ∧
      exampleFor (Language.ofExampleName t).name = exampleFor t := by
  refine ⟨?routes, fun l => Language.ofHint_eq_iff, (Language.ofHint t).ofHint_name,
    Language.ofExampleName_name (Language.ofExampleName_mem t), exampleFor_name t⟩
  case routes =>
    intro s now c r hasks
    obtain ⟨hstatus, hbody⟩ := answer_of_asksExample s now c hasks
    refine ⟨Language.ofExampleName t, Language.withExample, hstatus, hbody,
      fun s' now' c' r' => answer_of_asksExamples s' now' c', Language.ofExampleName_mem t,
      ?hint, ?none⟩
    case hint =>
      intro hne
      rw [Language.ofExampleName_eq, if_neg hne]
    case none =>
      intro hauto
      rw [Language.ofExampleName_eq, if_pos hauto]
      rfl

/-- A request for the example of a language, below the mount. -/
def askingFor (language : Text) : Request where
  method := "GET".toList
  host := "test".toList
  path := "/api/v1/examples/".toList ++ language

/-- The name of a language in capitals and with a blank at its end. -/
theorem answer_example_capitals :
    AsksExample (askingFor "PYTHON\n".toList) "PYTHON\n".toList ∧
      (answer {} [] {} (askingFor "PYTHON\n".toList)).response.body =
        .json (.object [("language".toList, .text "python".toList),
          ("code".toList, .text (exampleFor "PYTHON\n".toList))]) := by
  have hasks : AsksExample (askingFor "PYTHON\n".toList) "PYTHON\n".toList :=
    ⟨rfl, Or.inr rfl, by decide, by decide⟩
  obtain ⟨l, listed, -, hbody, -, -, hhint, -⟩ :=
    (answer_example "PYTHON\n".toList).1 {} [] {} _ hasks
  have hpython : Language.ofHint "PYTHON\n".toList = .python :=
    (Language.ofHint_eq_iff (by decide)).mpr rfl
  rw [hhint (by rw [hpython]; decide), hpython] at hbody
  exact ⟨hasks, hbody⟩

end Service

end ComplexityGauge
