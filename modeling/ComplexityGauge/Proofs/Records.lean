import ComplexityGauge.Proofs.Payload

/-!
# Records that are read back

A record is written and read member by member. Where every field reads what it writes, the record
comes back from any object that holds its members, in whatever order they stand there and whatever
else the object holds, because a member is looked up by its name.

What can be wrong with a member is wrong with the member as a whole, since the records of requests
hold no arrays and no other records. So every problem names one of the fields of its record.

## Main definitions

* `Field.Faithful`, `Shape.Faithful` — what was written is read back
* `Field.Flat` — a problem with a value is a problem with the whole of it
* `AnalysisRequest.fieldNames`, `DisplayResult.fieldNames` — the fields of a request

## Main results

* `DisplayResult.faithful_shape` — a shown result is read back from any object that holds it
* `AnalysisRequest.path_of_mem_problems`, `DisplayResult.path_of_mem_problems` — where problems lie
-/

namespace ComplexityGauge

open Text

namespace Validated

variable {α β : Type} {p : Problem}

theorem mem_problems_map {f : α → β} {v : Validated α} :
    p ∈ (f <$> v).problems ↔ p ∈ v.problems := by
  cases v <;> rfl

/-- A record has the problems of its fields. -/
theorem mem_problems_seq {f : Validated (α → β)} {v : Validated α} :
    p ∈ (f <*> v).problems ↔ p ∈ f.problems ∨ p ∈ v.problems := by
  cases f with
  | valid f =>
    cases v with
    | valid a => exact (or_iff_left List.not_mem_nil).symm
    | invalid first more => exact (or_iff_right List.not_mem_nil).symm
  | invalid first more =>
    cases v with
    | valid a => exact (or_iff_left List.not_mem_nil).symm
    | invalid first' more' => exact List.mem_append (s := first :: more)

theorem exists_of_mem_problems_within {place : Place} {v : Validated α}
    (h : p ∈ (v.within place).problems) :
    ∃ q ∈ v.problems, p.path = place :: q.path ∧ p.cause = q.cause := by
  cases v with
  | valid a => exact absurd h List.not_mem_nil
  | invalid first more =>
    rcases List.mem_cons.mp h with rfl | h
    · exact ⟨first, List.mem_cons_self, rfl, rfl⟩
    · obtain ⟨q, hq, rfl⟩ := List.mem_map.mp h
      exact ⟨q, List.mem_cons_of_mem first hq, rfl, rfl⟩

theorem path_of_mem_problems_refuse {c : Cause} (h : p ∈ (refuse c : Validated α).problems) :
    p.path = [] := by
  rw [List.mem_singleton.mp h]

end Validated

open Validated

variable {α : Type} {members : List (Text × Json)} {name : Text}

/-! ### Fields -/

namespace Field

/-- Every value is read back from what is written for it. -/
def Faithful (f : Field α) : Prop := ∀ a, f.read (f.write a) = .valid a

/-- Whatever is wrong with a value is wrong with the whole of it. -/
def Flat (f : Field α) : Prop := ∀ j, ∀ p ∈ (f.read j).problems, p.path = []

theorem faithful_wideText : wideText.Faithful := read_wideText_ofWide

theorem write_wideText_ne_null (t : WideText) : wideText.write t ≠ .null := by
  intro h
  have hread := faithful_wideText t
  rw [h] at hread
  exact nomatch hread

/-- The null value stands for none, so a value must be written in another way. -/
theorem Faithful.optional {f : Field α} (hf : f.Faithful) (hnull : ∀ a, f.write a ≠ .null) :
    f.optional.Faithful := by
  intro a
  cases a with
  | none => rfl
  | some a =>
    have hwrite := hnull a
    have hread := hf a
    unfold Field.optional
    dsimp only
    split
    · next h => exact absurd h hwrite
    · rw [hread]
      rfl

theorem faithful_word {values : List α} {wordOf : α → Text} {cause : List Text → Cause}
    (h : ∀ a, named? values wordOf (wordOf a) = some a) :
    (word values wordOf cause).Faithful := by
  intro a
  unfold word
  dsimp only
  rw [h a]

theorem flat_wideText : wideText.Flat := by
  intro j p hp
  cases j with
  | text t | brokenText t => exact absurd hp List.not_mem_nil
  | null | bool | int | real | array | object => exact path_of_mem_problems_refuse hp

theorem Flat.optional {f : Field α} (hf : f.Flat) : f.optional.Flat := by
  intro j p hp
  unfold Field.optional at hp
  dsimp only at hp
  split at hp
  · exact absurd hp List.not_mem_nil
  · exact hf j p (mem_problems_map.mp hp)

theorem flat_word {values : List α} {wordOf : α → Text} {cause : List Text → Cause} :
    (word values wordOf cause).Flat := by
  intro j p hp
  unfold word at hp
  dsimp only at hp
  split at hp
  · split at hp
    · exact absurd hp List.not_mem_nil
    · exact path_of_mem_problems_refuse hp
  · exact path_of_mem_problems_refuse hp
  · exact path_of_mem_problems_refuse hp

end Field

/-! ### Members -/

theorem required_of_faithful {f : Field α} (hf : f.Faithful) {a : α}
    (h : Json.member? name members = some (f.write a)) : required members name f = .valid a := by
  rw [required, h]
  dsimp only
  rw [hf a]
  rfl

theorem withDefault_of_faithful {f : Field α} (hf : f.Faithful) {a default : α}
    (h : Json.member? name members = some (f.write a)) :
    withDefault members name f default = .valid a := by
  rw [withDefault, h]
  dsimp only
  rw [hf a]
  rfl

/-- A problem with a member lies at its name. -/
theorem path_of_mem_problems_within {f : Field α} (hf : f.Flat) {j : Json} {p : Problem}
    (h : p ∈ ((f.read j).within (.field name)).problems) : p.path = [.field name] := by
  obtain ⟨q, hq, hpath, -⟩ := exists_of_mem_problems_within h
  rw [hpath, hf j q hq]

theorem path_of_mem_problems_required {f : Field α} (hf : f.Flat) {p : Problem}
    (h : p ∈ (required members name f).problems) : p.path = [.field name] := by
  unfold required at h
  split at h
  · exact path_of_mem_problems_within hf h
  · rw [List.mem_singleton.mp h]

theorem path_of_mem_problems_withDefault {f : Field α} (hf : f.Flat) {default : α} {p : Problem}
    (h : p ∈ (withDefault members name f default).problems) : p.path = [.field name] := by
  unfold withDefault at h
  split at h
  · exact path_of_mem_problems_within hf h
  · exact absurd h List.not_mem_nil

/-! ### Records -/

/-- A record is read back from every object that holds the members written for it. -/
def Shape.Faithful (s : Shape α) : Prop :=
  ∀ (a : α) (members : List (Text × Json)),
    (∀ m ∈ s.write a, Json.member? m.1 members = some m.2) → s.read members = .valid a

namespace AnalysisRequest

/-- The fields of a request for an analysis. -/
def fieldNames : List Text := ["code".toList, "language".toList]

theorem flat_codeField (limit : Int) : (codeField limit).Flat := by
  intro j p hp
  unfold codeField at hp
  dsimp only at hp
  cases hread : Field.wideText.read j with
  | invalid first more =>
    rw [hread] at hp
    exact Field.flat_wideText j p (hread ▸ hp)
  | valid sent =>
    rw [hread] at hp
    unfold Validated.andThen checkCode at hp
    dsimp only at hp
    split_ifs at hp
    · exact path_of_mem_problems_refuse hp
    · exact path_of_mem_problems_refuse hp
    · exact absurd hp List.not_mem_nil

/-- A request for an analysis is refused for its code. -/
theorem path_of_mem_problems {limit : Int} {p : Problem}
    (h : p ∈ ((shape limit).read members).problems) :
    ∃ name ∈ fieldNames, p.path = [.field name] := by
  rw [read_shape] at h
  exact ⟨_, List.mem_cons_self,
    path_of_mem_problems_required (flat_codeField limit) (mem_problems_map.mp h)⟩

end AnalysisRequest

theorem Rating.faithful_field : field.Faithful := by
  apply Field.faithful_word
  intro a
  cases a <;> rfl

namespace DisplayResult

/-- The fields of a shown result. -/
def fieldNames : List Text :=
  ["timeComplexity".toList, "spaceComplexity".toList, "timeExplanation".toList,
    "spaceExplanation".toList, "detailedReport".toList, "timeRating".toList, "spaceRating".toList,
    "language".toList, "timestamp".toList]

/-- A shown result is read back from every object that holds it. -/
theorem faithful_shape : shape.Faithful := by
  intro r members h
  dsimp only [shape] at h
  -- One fact for each member, in the order of the fields.
  simp only [List.forall_mem_cons] at h
  obtain ⟨htime, hspace, hwhyTime, hwhySpace, hreport, hrateTime, hrateSpace, hlanguage, hstamp,
    -⟩ := h
  have htext := Field.faithful_wideText
  have hrating := Rating.faithful_field
  have hoptional := htext.optional Field.write_wideText_ne_null
  have hread : shape.read members = DisplayResult.mk
      <$> required members "timeComplexity".toList .wideText
      <*> required members "spaceComplexity".toList .wideText
      <*> required members "timeExplanation".toList .wideText
      <*> required members "spaceExplanation".toList .wideText
      <*> required members "detailedReport".toList .wideText
      <*> withDefault members "timeRating".toList Rating.field .good
      <*> withDefault members "spaceRating".toList Rating.field .good
      <*> withDefault members "language".toList .wideText (.ofText Language.auto.name)
      <*> withDefault members "timestamp".toList (.optional .wideText) none := rfl
  rw [hread, required_of_faithful htext htime, required_of_faithful htext hspace,
    required_of_faithful htext hwhyTime, required_of_faithful htext hwhySpace,
    required_of_faithful htext hreport, withDefault_of_faithful hrating hrateTime,
    withDefault_of_faithful hrating hrateSpace, withDefault_of_faithful htext hlanguage,
    withDefault_of_faithful hoptional hstamp]
  rfl

/-- A problem with a shown result lies at one of its fields. -/
theorem path_of_mem_problems {p : Problem} (h : p ∈ (shape.read members).problems) :
    ∃ name ∈ fieldNames, p.path = [.field name] := by
  unfold shape at h
  simp only [mem_problems_seq, mem_problems_map] at h
  have htext := Field.flat_wideText
  have hrating : Rating.field.Flat := Field.flat_word
  rcases h with (((((((h | h) | h) | h) | h) | h) | h) | h) | h
  · exact ⟨_, by decide, path_of_mem_problems_required htext h⟩
  · exact ⟨_, by decide, path_of_mem_problems_required htext h⟩
  · exact ⟨_, by decide, path_of_mem_problems_required htext h⟩
  · exact ⟨_, by decide, path_of_mem_problems_required htext h⟩
  · exact ⟨_, by decide, path_of_mem_problems_required htext h⟩
  · exact ⟨_, by decide, path_of_mem_problems_withDefault hrating h⟩
  · exact ⟨_, by decide, path_of_mem_problems_withDefault hrating h⟩
  · exact ⟨_, by decide, path_of_mem_problems_withDefault htext h⟩
  · exact ⟨_, by decide, path_of_mem_problems_withDefault htext.optional h⟩

end DisplayResult

end ComplexityGauge
