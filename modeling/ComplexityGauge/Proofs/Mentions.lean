import ComplexityGauge.Analysis
import ComplexityGauge.Proofs.Concatenation
import ComplexityGauge.Proofs.Patterns
import ComplexityGauge.Proofs.Verdicts
import Mathlib.Data.List.Nodup

/-!
# What a text mentions

The kinds of data structure are collected line by line, from trimmed lowercase lines, and each kind
is kept where it is first found. What comes out can be said of the text as a whole. A kind is
collected if one of its words stands anywhere in the text, capital ASCII letters counting as small
ones, because no word holds a line feed and the patterns do not see more of letter case than that.
The order of the kinds is the order of the lines on which they are first mentioned. The space class
looks at the kinds and not at their order.

## Main definitions

* `Text.MentionsAny`, `DataStructure.MentionedIn` — one of some words, and one of the words for a
  kind, stands in a text
* `Signals.firstLine` — the first line that mentions a kind

## Main results

* `DataStructure.mentionedIn_iff_exists_line` — a text mentions what its lines mention
* `Signals.mem_dataStructures_iff_mentionedIn` — the kinds collected are those mentioned
* `Signals.pairwise_dataStructures` — they are collected in the order of first mention
* `Analysis.structures_of_text` — kinds, order and space class by the text as a whole
-/

namespace ComplexityGauge

open Text

/-! ### Words of a kind -/

theorem Text.lowerAscii_eq_newline_iff {c : Char} : lowerAscii c = '\n' ↔ c = '\n' := by
  constructor
  · intro h
    rcases lowerAscii_cases c with hsame | ⟨hcapital, hsmall⟩
    · exact hsame.symm.trans h
    · -- The small form of a capital letter is no line feed.
      rw [h] at hsmall
      have hcode : '\n'.toNat = 10 := rfl
      omega
  · rintro rfl
    rfl

/-- Changing the case of ASCII letters leaves the lines where they are. -/
theorem Text.lines_map_lowerAscii (t : Text) :
    lines (t.map lowerAscii) = (lines t).map fun l => l.map lowerAscii := by
  induction t with
  | nil => rfl
  | cons c t ih =>
    by_cases hc : c = '\n'
    · subst hc
      rw [lines_cons_newline, List.map_cons, List.map_cons, ← ih]
      exact lines_cons_newline _
    · have hlower : lowerAscii c ≠ '\n' := fun h => hc (lowerAscii_eq_newline_iff.mp h)
      obtain ⟨first, rest, hfirst, hcons⟩ := exists_lines_cons hc t
      obtain ⟨first', rest', hfirst', hcons'⟩ := exists_lines_cons hlower (t.map lowerAscii)
      rw [ih, hfirst, List.map_cons, List.cons.injEq] at hfirst'
      rw [hcons, List.map_cons, hcons', List.map_cons, List.map_cons, hfirst'.1, hfirst'.2]

/-- One of the words stands in the text, in small or capital ASCII letters. -/
def Text.MentionsAny (words : List Text) (t : Text) : Prop :=
  ∃ word ∈ words, occurs word (t.map lowerAscii) = true

instance (words : List Text) (t : Text) : Decidable (MentionsAny words t) :=
  inferInstanceAs (Decidable (∃ word ∈ words, occurs word (t.map lowerAscii) = true))

namespace DataStructure

variable {kind : DataStructure} {t line : Text}

/-- A word for the kind stands in the text. -/
def MentionedIn (kind : DataStructure) (t : Text) : Prop := MentionsAny kind.keywords t

instance (kind : DataStructure) (t : Text) : Decidable (kind.MentionedIn t) :=
  inferInstanceAs (Decidable (MentionsAny kind.keywords t))

theorem mem_all (kind : DataStructure) : kind ∈ all := by
  cases kind <;> decide

theorem newline_notMem_keywords (kind : DataStructure) : ∀ word ∈ kind.keywords, '\n' ∉ word := by
  cases kind <;> decide

/-- A line shows a kind in the form in which it is searched exactly if it mentions the kind. -/
theorem mem_dataStructures_normalize_iff :
    kind ∈ Line.dataStructures (normalize line) ↔ kind.MentionedIn line := by
  rw [Line.dataStructures_normalize, Line.dataStructures, List.mem_filter, List.any_eq_true]
  exact and_iff_right kind.mem_all

/-- A text mentions what one of its lines mentions. -/
theorem mentionedIn_iff_exists_line :
    kind.MentionedIn t ↔ ∃ l ∈ lines t, kind.MentionedIn l := by
  constructor
  · rintro ⟨word, hword, hoccurs⟩
    have hline := (occurs_iff_exists_line (kind.newline_notMem_keywords word hword)).mp hoccurs
    rw [lines_map_lowerAscii] at hline
    obtain ⟨_, hlower, hoccurs⟩ := hline
    obtain ⟨l, hl, rfl⟩ := List.mem_map.mp hlower
    exact ⟨l, hl, word, hword, hoccurs⟩
  · rintro ⟨l, hl, word, hword, hoccurs⟩
    refine ⟨word, hword, (occurs_iff_exists_line (kind.newline_notMem_keywords word hword)).mpr ?_⟩
    rw [lines_map_lowerAscii]
    exact ⟨_, List.mem_map_of_mem hl, hoccurs⟩

end DataStructure

/-! ### First occurrences

Removing the repetitions of a joined list leaves its entries in the order of the lists in which they
are first found, and in the order of that list where two are first found in the same one. -/

section FirstOccurrences

variable {α β : Type} [DecidableEq β]

/-- One more entry is kept if it is new. -/
theorem eraseDups_concat (l : List β) (b : β) :
    (l ++ [b]).eraseDups = if b ∈ l then l.eraseDups else l.eraseDups ++ [b] := by
  rw [List.eraseDups_append, List.removeAll, List.filter_singleton]
  by_cases hb : b ∈ l
  · simp [hb]
  · simp [hb, List.eraseDups_cons]

theorem nodup_eraseDups (l : List β) : l.eraseDups.Nodup := by
  induction l using List.reverseRecOn with
  | nil => exact List.nodup_nil
  | append_singleton l b ih =>
    rw [eraseDups_concat]
    split_ifs with hb
    · exact ih
    · refine List.nodup_append.mpr ⟨ih, List.nodup_singleton b, ?_⟩
      rintro a ha _ hmem rfl
      exact hb (List.mem_eraseDups.mp (List.mem_singleton.mp hmem ▸ ha))

theorem eraseDups_sublist (l : List β) : l.eraseDups.Sublist l := by
  induction l using List.reverseRecOn with
  | nil => exact List.Sublist.slnil
  | append_singleton l b ih =>
    rw [eraseDups_concat]
    split_ifs
    · exact ih.trans (List.sublist_append_left l [b])
    · exact ih.append (List.Sublist.refl [b])

/-- The position of the first list in which the entry is found. -/
def firstIn (f : α → List β) (xs : List α) (b : β) : ℕ := xs.findIdx fun x => b ∈ f x

theorem firstIn_cons_of_mem {f : α → List β} {x : α} {b : β} (hb : b ∈ f x) (xs : List α) :
    firstIn f (x :: xs) b = 0 := by
  rw [firstIn, List.findIdx_cons, decide_eq_true hb]
  rfl

theorem firstIn_cons_of_notMem {f : α → List β} {x : α} {b : β} (hb : b ∉ f x) (xs : List α) :
    firstIn f (x :: xs) b = firstIn f xs b + 1 := by
  rw [firstIn, List.findIdx_cons, decide_eq_false hb]
  rfl

/-- The first list comes before all others, and within it the order is its own. -/
theorem pairwise_eraseDups_flatMap {f : α → List β} {r : β → β → Prop}
    (hf : ∀ x, (f x).Pairwise r) (xs : List α) :
    (xs.flatMap f).eraseDups.Pairwise fun a b =>
      firstIn f xs a < firstIn f xs b ∨ firstIn f xs a = firstIn f xs b ∧ r a b := by
  induction xs with
  | nil => exact List.Pairwise.nil
  | cons x xs ih =>
    rw [List.flatMap_cons, List.eraseDups_append, List.removeAll, Signals.eraseDups_filter,
      List.pairwise_append]
    have hnew (b : β) (hb : (!(f x).elem b) = true) : b ∉ f x := by
      simpa using hb
    refine ⟨?here, ?later, ?across⟩
    case here =>
      have hhere := (hf x).sublist (eraseDups_sublist (f x))
      refine hhere.imp_of_mem fun {a b} ha hb hr => Or.inr ⟨?_, hr⟩
      rw [firstIn_cons_of_mem (List.mem_eraseDups.mp ha),
        firstIn_cons_of_mem (List.mem_eraseDups.mp hb)]
    case later =>
      rw [List.pairwise_filter]
      refine ih.imp fun {a b} hab ha hb => ?_
      rw [firstIn_cons_of_notMem (hnew a ha), firstIn_cons_of_notMem (hnew b hb)]
      exact hab.imp Nat.succ_lt_succ (And.imp_left (congrArg (· + 1)))
    case across =>
      intro a ha b hb
      rw [firstIn_cons_of_mem (List.mem_eraseDups.mp ha),
        firstIn_cons_of_notMem (hnew b (List.mem_filter.mp hb).2)]
      exact Or.inl (Nat.succ_pos _)

end FirstOccurrences

namespace Signals

variable {code : Text} {kind : DataStructure}

/-- The kinds collected from a text are those that it mentions. -/
theorem mem_dataStructures_iff_mentionedIn :
    kind ∈ (ofText code).dataStructures ↔ kind.MentionedIn code := by
  rw [mem_dataStructures_iff, List.mem_flatMap, DataStructure.mentionedIn_iff_exists_line]
  simp only [normalLines, List.mem_map, exists_exists_and_eq_and,
    DataStructure.mem_dataStructures_normalize_iff]

/-- The number of the first line that mentions the kind. -/
def firstLine (code : Text) (kind : DataStructure) : ℕ :=
  (lines code).findIdx fun l => kind ∈ Line.dataStructures (normalize l)

theorem firstIn_normalLines (code : Text) (kind : DataStructure) :
    firstIn Line.dataStructures (normalLines code) kind = firstLine code kind := by
  rw [firstIn, normalLines, List.findIdx_map]
  rfl

theorem firstLine_eq (code : Text) (kind : DataStructure) :
    firstLine code kind = (lines code).findIdx fun l => MentionsAny kind.keywords l := by
  simp only [firstLine, DataStructure.mem_dataStructures_normalize_iff]
  rfl

/-- The kind `a` is mentioned before the kind `b`: on an earlier line, or on the same line and
earlier in the list of all kinds. -/
def MentionedBefore (code : Text) (a b : DataStructure) : Prop :=
  firstLine code a < firstLine code b ∨
    firstLine code a = firstLine code b ∧
      DataStructure.all.idxOf a < DataStructure.all.idxOf b

theorem not_mentionedBefore_of_mentionedBefore {a b : DataStructure}
    (h : MentionedBefore code a b) : ¬ MentionedBefore code b a := by
  unfold MentionedBefore at h ⊢
  omega

theorem not_mentionedBefore_self (code : Text) (a : DataStructure) :
    ¬ MentionedBefore code a a := by
  intro h
  exact not_mentionedBefore_of_mentionedBefore h h

/-- Kinds are collected in the order in which they are mentioned. -/
theorem pairwise_dataStructures (code : Text) :
    (ofText code).dataStructures.Pairwise (MentionedBefore code) := by
  have hline (line : Text) : (Line.dataStructures line).Pairwise fun a b =>
      DataStructure.all.idxOf a < DataStructure.all.idxOf b := by
    apply List.Pairwise.filter
    decide
  have hpairwise := pairwise_eraseDups_flatMap hline (normalLines code)
  simp only [firstIn_normalLines] at hpairwise
  exact hpairwise

/-- One kind stands before another exactly if it is mentioned before it. -/
theorem idxOf_lt_idxOf_iff {a b : DataStructure} (ha : a ∈ (ofText code).dataStructures)
    (hb : b ∈ (ofText code).dataStructures) :
    (ofText code).dataStructures.idxOf a < (ofText code).dataStructures.idxOf b ↔
      MentionedBefore code a b := by
  have hbefore {c d : DataStructure} (hc : c ∈ (ofText code).dataStructures)
      (hd : d ∈ (ofText code).dataStructures)
      (hlt : (ofText code).dataStructures.idxOf c < (ofText code).dataStructures.idxOf d) :
      MentionedBefore code c d := by
    have h := List.pairwise_iff_getElem.mp (pairwise_dataStructures code) _ _
      (List.idxOf_lt_length_of_mem hc) (List.idxOf_lt_length_of_mem hd) hlt
    rwa [List.getElem_idxOf, List.getElem_idxOf] at h
  refine ⟨hbefore ha hb, fun h => ?_⟩
  rcases Nat.lt_trichotomy ((ofText code).dataStructures.idxOf a)
    ((ofText code).dataStructures.idxOf b) with hlt | heq | hgt
  · exact hlt
  · obtain rfl := (List.idxOf_inj ha).mp heq
    exact absurd h (not_mentionedBefore_self code a)
  · exact absurd (hbefore hb ha hgt) (not_mentionedBefore_of_mentionedBefore h)

end Signals

/-! ### The space class -/

namespace SpaceClass

/-- The sentence on the space class names a tree before a hash and a hash before an array. -/
theorem explanation_eq (s : Signals) : explanation s =
    if .tree ∈ s.dataStructures then "Linear space - tree/graph data structure detected.".toList
    else if .hash ∈ s.dataStructures then
      "Linear space - hash map/dictionary detected.".toList
    else if .array ∈ s.dataStructures then "Linear space - array/list detected.".toList
    else "Constant space - no significant data structures detected.".toList := by
  unfold explanation deciding?
  by_cases htree : DataStructure.tree ∈ s.dataStructures
  · simp [htree]
  by_cases hhash : DataStructure.hash ∈ s.dataStructures
  · simp [htree, hhash]
  by_cases harray : DataStructure.array ∈ s.dataStructures
  · simp [htree, hhash, harray]
  · simp [htree, hhash, harray]

end SpaceClass

namespace Analysis

/-- The kinds of data structure that are collected from a text are those that it mentions, each of
them once, in the order of first mention. The space class is linear exactly if there is one, and the
sentence on it depends on which kinds there are and not on their order. -/
theorem structures_of_text (code : Text) :
    let words : DataStructure → List Text
      | .array => ["array".toList, "list".toList, "[]".toList]
      | .hash => ["hash".toList, "map".toList, "dict".toList, "object".toList]
      | .tree => ["tree".toList, "node".toList, "graph".toList]
    let first (kind : DataStructure) := (lines code).findIdx fun l => MentionsAny (words kind) l
    let kinds := (Signals.ofText code).dataStructures
    (∀ kind, kind ∈ kinds ↔ MentionsAny (words kind) code) ∧
      kinds.Nodup ∧
      (∀ a ∈ kinds, ∀ b ∈ kinds, kinds.idxOf a < kinds.idxOf b ↔
        first a < first b ∨ first a = first b ∧
          [DataStructure.array, .hash, .tree].idxOf a <
            [DataStructure.array, .hash, .tree].idxOf b) ∧
      ((ofText code).space.label = "O(n)".toList ↔ ∃ kind, MentionsAny (words kind) code) ∧
      (ofText code).spaceExplanation =
        if MentionsAny (words .tree) code then
          "Linear space - tree/graph data structure detected.".toList
        else if MentionsAny (words .hash) code then
          "Linear space - hash map/dictionary detected.".toList
        else if MentionsAny (words .array) code then
          "Linear space - array/list detected.".toList
        else "Constant space - no significant data structures detected.".toList := by
  intro words first kinds
  have hfirst (kind : DataStructure) : first kind = Signals.firstLine code kind :=
    (Signals.firstLine_eq code kind).symm
  refine ⟨fun kind => Signals.mem_dataStructures_iff_mentionedIn, nodup_eraseDups _, ?order,
    ?label, ?sentence⟩
  case order =>
    intro a ha b hb
    rw [hfirst, hfirst]
    exact Signals.idxOf_lt_idxOf_iff ha hb
  case label =>
    refine SpaceClass.label_eq_linear_iff.trans ?_
    constructor
    · intro hne
      obtain ⟨kind, hkind⟩ := List.exists_mem_of_ne_nil _ hne
      exact ⟨kind, Signals.mem_dataStructures_iff_mentionedIn.mp hkind⟩
    · rintro ⟨kind, hkind⟩
      exact List.ne_nil_of_mem (Signals.mem_dataStructures_iff_mentionedIn.mpr hkind)
  case sentence =>
    refine (SpaceClass.explanation_eq _).trans ?_
    simp only [Signals.mem_dataStructures_iff_mentionedIn]
    rfl

/-- A graph on the second line comes behind the map on the first, and decides all the same. -/
example : (Signals.ofText "Map of lists\nGRAPH".toList).dataStructures = [.array, .hash, .tree] ∧
    (ofText "Map of lists\nGRAPH".toList).spaceExplanation =
      "Linear space - tree/graph data structure detected.".toList := by decide

end Analysis

end ComplexityGauge
