import ComplexityGauge.Proofs.Mentions
import ComplexityGauge.Proofs.Revalidation
import Mathlib.Data.List.Perm.Subperm

/-!
# Kinds that are listed more than once

The kinds of data structure in signals are meant to be a set. Signals come about in two ways, and
only one of them sees to this. What is collected from a text holds each kind that the text mentions
once, in the order of first mention. A record of signals is taken as it is sent: its kinds are the
items of an array one by one, and an item that stands there twice is a kind that is listed twice.

A report shows the kinds by their names, each as often as it is listed. So a report on a text has at
most three names, and a report on a record can have any number of them.

## Main definitions

* `Report.shownNames` — the names of data structures, read off a report
* `Signals.HasDistinctKinds` — signals whose kinds are a set, in their report too
* `Signals.sentKinds` — the items that are sent as the kinds of a record
* `Field.Exact` — a value is accepted only in the form in which it is written

## Main results

* `Report.shownNames_report` — a report shows the names of the kinds one by one
* `Signals.sentKinds_of_ofJson` — a record has the kinds that are sent, repetitions included
* `Signals.distinctKinds_of_source` — which signals hold each kind once
-/

namespace ComplexityGauge

open Text

/-! ### Names in a report -/

namespace Report

/-- The names in a line: the pieces between its commas behind the words that open the bullet on data
structures. Other lines have none. -/
def namesIn (line : Text) : List Text :=
  match after? structuresPrefix line with
  | some names => (names.splitOn ',').map trim
  | none => []

/-- The names of data structures that a report shows. -/
def shownNames (report : Text) : List Text := (lines report).flatMap namesIn

theorem namesIn_of_third {l : Text} (h : l[2]? ≠ some 'D') : namesIn l = [] := by
  unfold namesIn
  split
  · next names hnames =>
    rw [after?_eq_some_iff.mp hnames] at h
    exact absurd rfl h
  · rfl

/-- The blank behind a comma is no part of the name that follows. -/
theorem map_trim_splitOn_joinedNames (kind : DataStructure) (kinds : List DataStructure) :
    ((DataStructure.joinedNames (kind :: kinds)).splitOn ',').map trim =
      (kind :: kinds).map DataStructure.name := by
  have hcomma (k : DataStructure) : ',' ∉ k.name := k.notMem_name (by decide)
  have htrim (k : DataStructure) : trim k.name = k.name := by cases k <;> decide
  induction kinds generalizing kind with
  | nil =>
    rw [DataStructure.joinedNames_singleton, List.splitOn_eq_singleton (hcomma kind),
      List.map_singleton, htrim, List.map_singleton]
  | cons next kinds ih =>
    rw [DataStructure.joinedNames_cons_cons, List.splitOn_append_cons_self,
      List.splitOn_eq_singleton (hcomma kind), List.splitOn_cons_eq_if_modifyHead,
      if_neg (by decide), List.singleton_append, List.map_cons, htrim, List.map_cons, ← ih next]
    obtain ⟨first, rest, hfirst⟩ := List.exists_cons_of_ne_nil
      (List.splitOn_ne_nil ',' (DataStructure.joinedNames (next :: kinds)))
    rw [hfirst, List.modifyHead_cons, List.map_cons, List.map_cons,
      trim_cons_blank (by decide)]

theorem namesIn_structuresLine (kind : DataStructure) (kinds : List DataStructure) :
    namesIn (structuresLine (kind :: kinds)) = (kind :: kinds).map DataStructure.name := by
  rw [namesIn, structuresLine, after?_eq_some_iff.mpr rfl]
  exact map_trim_splitOn_joinedNames kind kinds

/-- A report shows the names of the kinds one by one. -/
theorem shownNames_report (s : Signals) :
    shownNames s.report = s.dataStructures.map DataStructure.name := by
  have hheading : namesIn heading = [] := namesIn_of_third (by simp [third_heading])
  have hnote : namesIn note = [] := namesIn_of_third (by simp [third_note])
  have hempty : namesIn [] = [] := rfl
  have hloops : namesIn (loopsLine s.maxNestedLoops) = [] :=
    namesIn_of_third (by simp [third_loopsLine])
  have hrecursion : namesIn recursionLine = [] :=
    namesIn_of_third (by simp [third_recursionLine])
  have hstructures :
      (if s.dataStructures = [] then [] else [structuresLine s.dataStructures]).flatMap namesIn =
        s.dataStructures.map DataStructure.name := by
    cases s.dataStructures with
    | nil => rfl
    | cons kind kinds =>
      rw [if_neg (List.cons_ne_nil _ _), List.flatMap_singleton, namesIn_structuresLine]
  -- Of the bullets, only the one on data structures has names.
  have hbullets : s.bulletLines.flatMap namesIn = s.dataStructures.map DataStructure.name := by
    rw [Signals.bulletLines, List.flatMap_append, hstructures]
    split_ifs <;> simp [hloops, hrecursion]
  rw [shownNames, Signals.lines_report]
  simp [hheading, hnote, hempty, hbullets]

end Report

/-! ### Accepted values -/

namespace Validated

variable {α β : Type}

theorem and_eq_valid_iff {v : Validated α} {w : Validated β} {p : α × β} :
    v.and w = .valid p ↔ v = .valid p.1 ∧ w = .valid p.2 := by
  obtain ⟨a, b⟩ := p
  cases v <;> cases w <;> simp [Validated.and]

/-- Functions and values that are joined are accepted together. -/
theorem seq_eq_valid_iff {f : Validated (α → β)} {v : Validated α} {b : β} :
    f <*> v = .valid b ↔ ∃ g a, f = .valid g ∧ v = .valid a ∧ g a = b := by
  change (f.and v).map (fun p => p.1 p.2) = .valid b ↔ _
  simp only [map_eq_valid_iff, and_eq_valid_iff, Prod.exists, and_assoc]

theorem sequence_eq_valid_iff {vs : List (Validated α)} {values : List α} :
    sequence vs = .valid values ↔ vs = values.map .valid := by
  constructor
  · intro h
    induction vs generalizing values with
    | nil =>
      obtain rfl : [] = values := valid.inj h
      rfl
    | cons v vs ih =>
      obtain ⟨⟨a, rest⟩, hand, rfl⟩ := map_eq_valid_iff.mp h
      obtain ⟨rfl, hrest⟩ := and_eq_valid_iff.mp hand
      rw [ih hrest, List.map_cons]
  · rintro rfl
    exact sequence_map_valid values

end Validated

namespace Field

variable {α : Type} {f : Field α}

/-- A value is accepted only in the form in which it is written. -/
def Exact (f : Field α) : Prop := ∀ j a, f.read j = .valid a → j = f.write a

theorem exact_word {values : List α} {wordOf : α → Text} {cause : List Text → Cause} :
    (word values wordOf cause).Exact := by
  intro j a h
  unfold word at h ⊢
  dsimp only at h ⊢
  split at h
  · split at h
    · next v hv =>
      obtain rfl : v = a := Validated.valid.inj h
      have hword := List.find?_some hv
      rw [of_decide_eq_true hword]
    · exact nomatch h
  · exact nomatch h
  · exact nomatch h

/-- An array is accepted item by item, so it is the array that is written for its values. -/
theorem Exact.many (hf : f.Exact) : f.many.Exact := by
  -- Along the array the positions count up, so the induction runs over every first position.
  have hitems (k : ℕ) (items : List Json) (values : List α)
      (h : (items.zipIdx k).map (fun item => (f.read item.1).within (.index item.2)) =
        values.map .valid) : items = values.map f.write := by
    induction items generalizing k values with
    | nil =>
      obtain rfl : values = [] := List.map_eq_nil_iff.mp h.symm
      rfl
    | cons item items ih =>
      rw [List.zipIdx_cons, List.map_cons] at h
      obtain ⟨a, rest, rfl, ha, hrest⟩ := List.map_eq_cons_iff.mp h.symm
      have hread := Validated.of_within_eq_valid ha.symm
      rw [hf item a hread, ih (k + 1) rest hrest.symm, List.map_cons]
  intro j values h
  cases j with
  | array items => exact congrArg Json.array (hitems 0 items values
      (Validated.sequence_eq_valid_iff.mp h))
  | null | bool | int | real | text | brokenText | object => exact nomatch h

end Field

theorem eq_or_exists_of_withDefault_eq_valid {α : Type} {members : List (Text × Json)}
    {name : Text} {f : Field α} {default a : α}
    (h : withDefault members name f default = .valid a) :
    Json.member? name members = none ∧ a = default ∨
      ∃ j, Json.member? name members = some j ∧ f.read j = .valid a := by
  unfold withDefault at h
  split at h
  · next j hj => exact Or.inr ⟨j, hj, Validated.of_within_eq_valid h⟩
  · next hnone => exact Or.inl ⟨hnone, (Validated.valid.inj h).symm⟩

/-! ### Signals -/

namespace Signals

variable {s : Signals} {j : Json}

/-- The kinds of the signals are a set: none is listed twice, and their report names none twice and
not more than there are. -/
structure HasDistinctKinds (s : Signals) : Prop where
  nodup_kinds : s.dataStructures.Nodup
  nodup_names : (Report.shownNames s.report).Nodup
  length_names_le : (Report.shownNames s.report).length ≤ 3

/-- There are three kinds, so a list of more repeats one. -/
theorem hasDistinctKinds_iff : s.HasDistinctKinds ↔ s.dataStructures.Nodup := by
  refine ⟨HasDistinctKinds.nodup_kinds, fun h => ⟨h, ?_, ?_⟩⟩
  · rw [Report.shownNames_report]
    exact h.map DataStructure.name_injective
  · have hall : s.dataStructures ⊆ DataStructure.all := fun kind _ => kind.mem_all
    rw [Report.shownNames_report, List.length_map]
    exact (List.subperm_of_subset h hall).length_le

/-- The items that are sent as the kinds of a record of signals. -/
def sentKinds : Json → List Json
  | .object members =>
    match Json.member? "data_structures".toList members with
    | some (.array items) => items
    | _ => []
  | _ => []

/-- A record of signals has the kinds that are sent, repetitions included. -/
theorem sentKinds_of_ofJson (h : shape.ofJson j = .valid s) :
    sentKinds j = s.dataStructures.map fun kind => .text kind.name := by
  cases j with
  | object members =>
    have hread : Signals.mk
        <$> withDefault members "max_nested_loops".toList .natural 0
        <*> withDefault members "has_recursion".toList .flag false
        <*> withDefault members "data_structures".toList DataStructure.field.many [] =
        .valid s := h
    obtain ⟨g, kinds, hg, hkinds, rfl⟩ := Validated.seq_eq_valid_iff.mp hread
    obtain ⟨g', recursive, hg', -, rfl⟩ := Validated.seq_eq_valid_iff.mp hg
    obtain ⟨loops, -, rfl⟩ := Validated.map_eq_valid_iff.mp hg'
    dsimp only [sentKinds]
    rcases eq_or_exists_of_withDefault_eq_valid hkinds with ⟨hnone, rfl⟩ | ⟨sent, hsent, hmany⟩
    · rw [hnone]
      rfl
    · rw [hsent, Field.exact_word.many sent kinds hmany]
      rfl
  | null | bool | int | real | text | brokenText | array => exact nomatch h

theorem nodup_sentKinds_iff (h : shape.ofJson j = .valid s) :
    (sentKinds j).Nodup ↔ s.dataStructures.Nodup := by
  have hinjective : Function.Injective fun kind : DataStructure => Json.text kind.name :=
    fun _ _ heq => DataStructure.name_injective (Json.text.inj heq)
  rw [sentKinds_of_ofJson h]
  exact List.nodup_map_iff hinjective

/-- What is collected from a text lists each kind that the text mentions, once, in the order of
first mention, and its report names no more than three kinds and none twice. A record of signals
lists the kinds that are sent as they are sent, and it does so with these properties exactly if no
item is sent twice. -/
theorem distinctKinds_of_source (code : Text) (j : Json) (s : Signals)
    (h : shape.ofJson j = .valid s) :
    ((ofText code).HasDistinctKinds ∧
      (∀ kind, kind ∈ (ofText code).dataStructures ↔ kind.MentionedIn code) ∧
      (ofText code).dataStructures.Pairwise (MentionedBefore code)) ∧
    (sentKinds j = s.dataStructures.map fun kind => .text kind.name) ∧
    Report.shownNames s.report = s.dataStructures.map DataStructure.name ∧
    (s.HasDistinctKinds ↔ (sentKinds j).Nodup) := by
  refine ⟨⟨hasDistinctKinds_iff.mpr (nodup_eraseDups _),
    fun _ => mem_dataStructures_iff_mentionedIn, pairwise_dataStructures code⟩,
    sentKinds_of_ofJson h, Report.shownNames_report s, ?_⟩
  rw [hasDistinctKinds_iff, nodup_sentKinds_iff h]

/-- Of two records, the one that sends a kind twice reports it twice. A text that names it twice is
reported like the other one. -/
theorem distinctKinds_of_source_treeTwice :
    let sent (kinds : List Text) : Json :=
      .object [("data_structures".toList, .array (kinds.map .text))]
    let once : Signals := { dataStructures := [.tree, .hash] }
    let twice : Signals := { dataStructures := [.tree, .hash, .tree] }
    (ofText "tree\nmap\ntree".toList).HasDistinctKinds ∧
      shape.ofJson (sent ["tree".toList, "hash".toList]) = .valid once ∧
      once.HasDistinctKinds ∧
      shape.ofJson (sent ["tree".toList, "hash".toList, "tree".toList]) = .valid twice ∧
      ¬ twice.HasDistinctKinds ∧
      Report.shownNames twice.report = ["tree".toList, "hash".toList, "tree".toList] := by
  intro sent once twice
  have honce : shape.ofJson (sent ["tree".toList, "hash".toList]) = .valid once := rfl
  have htwice : shape.ofJson (sent ["tree".toList, "hash".toList, "tree".toList]) =
    .valid twice := rfl
  obtain ⟨⟨htext, -⟩, hkinds, -, hdistinct⟩ :=
    distinctKinds_of_source "tree\nmap\ntree".toList _ _ honce
  obtain ⟨-, hkinds', hnames, hdistinct'⟩ := distinctKinds_of_source [] _ _ htwice
  refine ⟨htext, honce, hdistinct.mpr ?_, htwice, mt hdistinct'.mp ?_, hnames⟩
  · rw [hkinds]
    simp [once, DataStructure.name]
  · rw [hkinds']
    simp [twice, DataStructure.name]

/-- Not every record of signals that is accepted lists its kinds as a set. -/
theorem not_forall_accepted_distinct :
    ¬ ∀ j s, shape.ofJson j = .valid s → s.HasDistinctKinds := by
  intro h
  have haccepted : shape.ofJson (.object [("data_structures".toList,
      .array [.text "array".toList, .text "array".toList])]) =
      .valid { dataStructures := [.array, .array] } := rfl
  exact absurd (h _ _ haccepted).nodup_kinds (by decide)

end Signals

end ComplexityGauge
