import ComplexityGauge.Proofs.Answers
import ComplexityGauge.Proofs.Lowering
import Mathlib.Data.List.Nodup

/-!
# Records read twice

A record that was accepted is accepted again in the form in which it is written, and comes out the
same. Reading may change a value: it turns texts into integers, trims a code, fills in a default.
What it comes to is a value of the record, though, and every field reads what it writes.

Only a request for an analysis asks more of its values than their types say. Its code is trimmed,
not empty and within the limit. The requests of this form are the ones that are read back, and
every request that was accepted has it.

## Main definitions

* `Shape.Idempotent` — reading what was read changes nothing
* `AnalysisRequest.Settled` — what the check of a code leaves

## Main results

* `Json.member?_of_mem` — a member of an object with distinct names is found under its name
* `Shape.Faithful.field` — a record with distinct names is read back from what is written for it
* `AnalysisRequest.settled_of_ofJson`, `AnalysisRequest.Settled.ofJson_toJson` — the requests that
  are accepted, and that they are read back
* `Settings.shapes_idempotent` — all records under any settings
-/

namespace ComplexityGauge

open Text

/-! ### Checked values -/

namespace Validated

theorem sequence_map_valid {α : Type} (values : List α) :
    sequence (values.map valid) = valid values := by
  induction values with
  | nil => rfl
  | cons a values ih =>
    rw [List.map_cons, sequence, ih]
    rfl

end Validated

/-! ### Fields -/

namespace Field

variable {α : Type} {f : Field α}

theorem faithful_natural : natural.Faithful := fun _ => rfl

theorem faithful_flag : flag.Faithful := fun _ => rfl

/-- Items are read back one by one; where an item stands only matters to its problems. -/
theorem Faithful.many (hf : f.Faithful) : f.many.Faithful := by
  intro values
  -- Along the array the positions count up, so the induction runs over every first position.
  have hitems (k : ℕ) :
      ((values.map f.write).zipIdx k).map
        (fun item => (f.read item.1).within (.index item.2)) = values.map .valid := by
    induction values generalizing k with
    | nil => rfl
    | cons a values ih =>
      rw [List.map_cons, List.zipIdx_cons, List.map_cons, ih, hf a]
      rfl
  exact (congrArg Validated.sequence (hitems 0)).trans (Validated.sequence_map_valid values)

end Field

theorem DataStructure.faithful_field : field.Faithful := by
  apply Field.faithful_word
  intro kind
  cases kind <;> rfl

theorem TimeClass.faithful_field : field.Faithful := by
  apply Field.faithful_word
  intro c
  cases c <;> rfl

theorem SpaceClass.faithful_field : field.Faithful := by
  apply Field.faithful_word
  intro c
  cases c <;> rfl

theorem AnalysisState.faithful_field : field.Faithful := by
  apply Field.faithful_word
  intro state
  cases state <;> rfl

/-! ### Members -/

/-- Under a name that no other member has, the member itself is found. -/
theorem Json.member?_of_mem {members : List (Text × Json)} {m : Text × Json}
    (hnames : (members.map Prod.fst).Nodup) (hm : m ∈ members) :
    member? m.1 members = some m.2 := by
  have hunique : ∀ m' ∈ members, m'.1 = m.1 → m' = m := by
    intro m' hm' hname
    exact List.inj_on_of_nodup_map hnames hm' hm hname
  -- The search runs from the back and stops at the name, whatever member bears it.
  cases hfind : members.reverse.find? fun m' => m'.1 == m.1 with
  | none =>
    have hmiss := List.find?_eq_none.mp hfind m (List.mem_reverse.mpr hm)
    exact absurd BEq.rfl hmiss
  | some m' =>
    have hname : m'.1 = m.1 := eq_of_beq (List.find?_some hfind :)
    have hmem : m' ∈ members := List.mem_reverse.mp (List.mem_of_find?_eq_some hfind)
    rw [member?, hfind, hunique m' hmem hname]
    rfl

/-! ### Records -/

namespace Shape

variable {α : Type} {s : Shape α}

/-- Whatever is accepted is accepted again as it is written, and comes out the same. -/
def Idempotent (s : Shape α) : Prop :=
  ∀ j a, s.ofJson j = .valid a → s.ofJson (s.toJson a) = .valid a

/-- A record that writes distinct names is read back from what is written for it. -/
theorem Faithful.field (hs : s.Faithful) (names : List Text)
    (hwrite : ∀ a, (s.write a).map Prod.fst = names) (hnames : names.Nodup) : s.field.Faithful := by
  intro a
  have hdistinct : ((s.write a).map Prod.fst).Nodup := by
    rw [hwrite a]
    exact hnames
  apply hs a (s.write a)
  intro m hm
  exact Json.member?_of_mem hdistinct hm

/-- What is read back whatever it is needs no check again. -/
theorem Faithful.idempotent (hs : s.Faithful) (names : List Text)
    (hwrite : ∀ a, (s.write a).map Prod.fst = names) (hnames : names.Nodup) : s.Idempotent := by
  intro j a _
  exact hs.field names hwrite hnames a

end Shape

theorem Signals.faithful_shape : shape.Faithful := by
  intro s members h
  dsimp only [shape] at h ⊢
  -- One fact for each member, in the order of the fields; the records below are alike.
  simp only [List.forall_mem_cons] at h
  obtain ⟨hloops, hrecursion, hkinds, -⟩ := h
  rw [withDefault_of_faithful Field.faithful_natural hloops,
    withDefault_of_faithful Field.faithful_flag hrecursion,
    withDefault_of_faithful DataStructure.faithful_field.many hkinds]
  rfl

theorem Signals.idempotent_shape : shape.Idempotent :=
  faithful_shape.idempotent
    ["max_nested_loops".toList, "has_recursion".toList, "data_structures".toList]
    (fun _ => rfl) (by decide)

theorem Verdict.faithful_shape : shape.Faithful := by
  intro v members h
  dsimp only [shape] at h ⊢
  simp only [List.forall_mem_cons] at h
  obtain ⟨htime, hspace, hwhyTime, hwhySpace, -⟩ := h
  rw [required_of_faithful TimeClass.faithful_field htime,
    required_of_faithful SpaceClass.faithful_field hspace,
    required_of_faithful Field.faithful_wideText hwhyTime,
    required_of_faithful Field.faithful_wideText hwhySpace]
  rfl

theorem Verdict.idempotent_shape : shape.Idempotent :=
  faithful_shape.idempotent
    ["time_complexity".toList, "space_complexity".toList, "time_explanation".toList,
      "space_explanation".toList]
    (fun _ => rfl) (by decide)

theorem Analysis.faithful_shape : shape.Faithful := by
  intro a members h
  dsimp only [shape] at h ⊢
  simp only [List.forall_mem_cons] at h
  obtain ⟨htime, hspace, hwhyTime, hwhySpace, hreport, -⟩ := h
  rw [required_of_faithful TimeClass.faithful_field htime,
    required_of_faithful SpaceClass.faithful_field hspace,
    required_of_faithful Field.faithful_wideText hwhyTime,
    required_of_faithful Field.faithful_wideText hwhySpace,
    required_of_faithful Field.faithful_wideText hreport]
  rfl

theorem Analysis.idempotent_shape : shape.Idempotent :=
  faithful_shape.idempotent
    ["timeComplexity".toList, "spaceComplexity".toList, "timeExplanation".toList,
      "spaceExplanation".toList, "detailedReport".toList]
    (fun _ => rfl) (by decide)

theorem ExampleReply.faithful_shape : shape.Faithful := by
  intro r members h
  dsimp only [shape] at h ⊢
  simp only [List.forall_mem_cons] at h
  obtain ⟨hlanguage, hcode, -⟩ := h
  rw [required_of_faithful Field.faithful_wideText hlanguage,
    required_of_faithful Field.faithful_wideText hcode]
  rfl

theorem ExampleReply.idempotent_shape : shape.Idempotent :=
  faithful_shape.idempotent
    ["language".toList, "code".toList]
    (fun _ => rfl) (by decide)

theorem ErrorReply.faithful_shape : shape.Faithful := by
  intro r members h
  dsimp only [shape] at h ⊢
  simp only [List.forall_mem_cons] at h
  obtain ⟨hsuccess, hstate, herror, hdetails, -⟩ := h
  have hoptional := Field.faithful_wideText.optional Field.write_wideText_ne_null
  rw [withDefault_of_faithful Field.faithful_flag hsuccess,
    withDefault_of_faithful AnalysisState.faithful_field hstate,
    required_of_faithful Field.faithful_wideText herror, withDefault_of_faithful hoptional hdetails]
  rfl

theorem ErrorReply.idempotent_shape : shape.Idempotent :=
  faithful_shape.idempotent
    ["success".toList, "state".toList, "error".toList, "details".toList]
    (fun _ => rfl) (by decide)

theorem DisplayResult.faithful_field : shape.field.Faithful :=
  faithful_shape.field fieldNames (fun _ => rfl) (by decide)

theorem DisplayResult.idempotent_shape : shape.Idempotent :=
  faithful_shape.idempotent fieldNames (fun _ => rfl) (by decide)

/-- The result within an answer is a record of its own, read back as a whole. -/
theorem AnalysisReply.faithful_shape : shape.Faithful := by
  intro r members h
  dsimp only [shape] at h ⊢
  simp only [List.forall_mem_cons] at h
  obtain ⟨hsuccess, hstate, hresult, -⟩ := h
  rw [withDefault_of_faithful Field.faithful_flag hsuccess,
    withDefault_of_faithful AnalysisState.faithful_field hstate,
    required_of_faithful DisplayResult.faithful_field hresult]
  rfl

theorem AnalysisReply.idempotent_shape : shape.Idempotent :=
  faithful_shape.idempotent
    ["success".toList, "state".toList, "result".toList]
    (fun _ => rfl) (by decide)

/-! ### Requests for an analysis -/

namespace WideText

theorem trim_sublist (t : WideText) : t.trim.Sublist t := by
  rw [← List.reverse_sublist, trim, List.reverse_reverse]
  exact (List.dropWhile_sublist _).trans (List.dropWhile_sublist _).reverse

/-- Trimming twice takes nothing more away, because it takes nothing more from the text that is
shown. -/
theorem trim_trim (t : WideText) : t.trim.trim = t.trim := by
  apply t.trim.trim_sublist.eq_of_length
  rw [← length_shown, shown_trim, shown_trim, Text.trim_trim, ← shown_trim, length_shown]

end WideText

namespace AnalysisRequest

variable {limit : ℤ} {r : AnalysisRequest} {j : Json}

/-- The code of the request is as the check of a code leaves it: without blanks at its ends, not
empty, and within the limit. -/
structure Settled (limit : ℤ) (r : AnalysisRequest) : Prop where
  code_ne_nil : r.code ≠ []
  trim_code : r.code.trim = r.code
  length_le : (r.code.length : ℤ) ≤ limit

/-- The length is checked after trimming, so what is accepted needs no second check. -/
theorem settled_of_ofJson (h : (shape limit).ofJson j = .valid r) : r.Settled limit := by
  cases j with
  | object members =>
    change (shape limit).read members = .valid r at h
    rw [read_shape] at h
    -- The code comes out of its check, and the language has no part in the acceptance.
    obtain ⟨code, hcode, rfl⟩ := Validated.map_eq_valid_iff.mp h
    obtain ⟨sent, -, hread⟩ := exists_of_required_eq_valid hcode
    obtain ⟨wide, -, hcheck⟩ := Validated.andThen_eq_valid_iff.mp hread
    obtain ⟨rfl, hne, hle⟩ := checkCode_eq_valid_iff.mp hcheck
    exact ⟨hne, wide.trim_trim, hle⟩
  | null | bool | int | real | text | brokenText | array => exact nomatch h

/-- A settled request is read back: trimming and the two checks leave it as it is, and the name of
its language is a hint at that language. -/
theorem Settled.ofJson_toJson (h : r.Settled limit) :
    (shape limit).ofJson ((shape limit).toJson r) = .valid r := by
  have hnames : (((shape limit).write r).map Prod.fst).Nodup := show fieldNames.Nodup by decide
  have hcode : Json.member? "code".toList ((shape limit).write r) = some (Json.ofWide r.code) :=
    Json.member?_of_mem hnames List.mem_cons_self
  have hlanguage : Json.member? "language".toList ((shape limit).write r) =
      some (.text r.language.name) :=
    Json.member?_of_mem hnames (List.mem_cons_of_mem _ List.mem_cons_self)
  have hcheck : checkCode limit r.code = .valid r.code :=
    checkCode_eq_valid_iff.mpr ⟨h.trim_code, h.code_ne_nil, h.length_le⟩
  change (shape limit).read ((shape limit).write r) = .valid r
  rw [read_shape, required_codeField limit hcode, hcheck, languageOf, hlanguage]
  exact congrArg (fun l => Validated.valid { r with language := l }) r.language.ofHint_name

/-- Exactly the settled requests are read back. -/
theorem ofJson_toJson_eq_valid_iff :
    (shape limit).ofJson ((shape limit).toJson r) = .valid r ↔ r.Settled limit :=
  ⟨settled_of_ofJson, Settled.ofJson_toJson⟩

theorem idempotent_shape (limit : ℤ) : (shape limit).Idempotent := by
  intro j r h
  exact ofJson_toJson_eq_valid_iff.mpr (settled_of_ofJson h)

end AnalysisRequest

/-! ### All records -/

namespace Settings

/-- Under any settings, what one of the records accepts is accepted again as it is written and comes
out the same. The code of an accepted request is trimmed, not empty and within the limit, and its
language is one of those known. -/
theorem shapes_idempotent (s : Settings) :
    Signals.shape.Idempotent ∧ Verdict.shape.Idempotent ∧ Analysis.shape.Idempotent ∧
      (AnalysisRequest.shape s.maxCodeLength).Idempotent ∧ DisplayResult.shape.Idempotent ∧
      AnalysisReply.shape.Idempotent ∧ ExampleReply.shape.Idempotent ∧
      ErrorReply.shape.Idempotent ∧
      ∀ j r, (AnalysisRequest.shape s.maxCodeLength).ofJson j = .valid r →
        r.code ≠ [] ∧ r.code.trim = r.code ∧ (r.code.length : ℤ) ≤ s.maxCodeLength ∧
          r.language.name ∈ ["auto".toList, "python".toList, "javascript".toList,
            "pseudocode".toList] := by
  refine ⟨Signals.idempotent_shape, Verdict.idempotent_shape, Analysis.idempotent_shape,
    AnalysisRequest.idempotent_shape _, DisplayResult.idempotent_shape,
    AnalysisReply.idempotent_shape, ExampleReply.idempotent_shape, ErrorReply.idempotent_shape, ?_⟩
  intro j r h
  obtain ⟨hne, htrim, hle⟩ := AnalysisRequest.settled_of_ofJson h
  refine ⟨hne, htrim, hle, ?_⟩
  cases r.language <;> decide

/-- A request whose code is trimmed and holds half of a surrogate pair, with its language in
capitals, and an answer whose truth value is a word and whose error is such a half. -/
theorem shapes_idempotent_halves :
    (AnalysisRequest.shape ({} : Settings).maxCodeLength).ofJson
        (.object [("code".toList, .brokenText [.char ' ', .char 'x', .half 0, .char '\n']),
          ("language".toList, .text "PYTHON".toList)]) =
        .valid ⟨[.char 'x', .half 0], .python⟩ ∧
      (AnalysisRequest.shape ({} : Settings).maxCodeLength).ofJson
        ((AnalysisRequest.shape ({} : Settings).maxCodeLength).toJson
          ⟨[.char 'x', .half 0], .python⟩) =
        .valid ⟨[.char 'x', .half 0], .python⟩ ∧
      ErrorReply.shape.ofJson (.object [("success".toList, .text "Yes".toList),
        ("error".toList, .brokenText [.half 0])]) =
        .valid ⟨true, .error, [.half 0], none⟩ ∧
      ErrorReply.shape.ofJson (ErrorReply.shape.toJson ⟨true, .error, [.half 0], none⟩) =
        .valid ⟨true, .error, [.half 0], none⟩ := by
  have hrequest : (AnalysisRequest.shape ({} : Settings).maxCodeLength).ofJson
      (.object [("code".toList, .brokenText [.char ' ', .char 'x', .half 0, .char '\n']),
        ("language".toList, .text "PYTHON".toList)]) =
      .valid ⟨[.char 'x', .half 0], .python⟩ := by rfl
  have hreply : ErrorReply.shape.ofJson (.object [("success".toList, .text "Yes".toList),
      ("error".toList, .brokenText [.half 0])]) =
      .valid ⟨true, .error, [.half 0], none⟩ := by rfl
  obtain ⟨-, -, -, hrequests, -, -, -, hreplies, -⟩ := shapes_idempotent {}
  exact ⟨hrequest, hrequests _ _ hrequest, hreply, hreplies _ _ hreply⟩

end Settings

end ComplexityGauge
