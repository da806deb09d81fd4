import ComplexityGauge.Proofs.CrossOrigin
import ComplexityGauge.Proofs.Lowering

/-!
# Writing a list of origins

A list of origins is a text that someone types, so the same origins can be written in many ways:
with blanks around an origin, and with pieces between two commas that hold blanks only. All of these
are read alike, and writing the origins that were read with commas between them is one of the ways.

The star is the one entry that does not stand for itself. Wherever it stands, the other entries of
the list are lost, and what is read is the star alone.

## Main definitions

* `Origins.Separated` — the parts of a text between its commas
* `Origins.IsEntry` — an origin that a list can name
* `Origins.Written` — the parts of a list that names given origins

## Main results

* `Text.trim_eq_self_iff` — a trimmed text neither starts nor ends with a blank
* `Origins.entries_joined_of_written` — every way to write a list is read alike
* `Settings.origins_read` — the origins of a setting, whatever its text
-/

namespace ComplexityGauge

open Text

namespace Text

variable {t : Text}

/-- Trimming leaves exactly the texts with no blank at either end. -/
theorem trim_eq_self_iff :
    trim t = t ↔ (∀ c ∈ t.head?, isBlank c = false) ∧ ∀ c ∈ t.getLast?, isBlank c = false := by
  rw [trim_eq_rdropWhile]
  constructor
  · intro h
    -- Nothing is cut off in the end, so nothing was cut off at the start.
    have hprefix : t <+: t.dropWhile isBlank := by
      conv_lhs => rw [← h]
      exact List.rdropWhile_prefix isBlank _
    have hsuffix : t.dropWhile isBlank <:+ t := List.dropWhile_suffix isBlank
    have hdrop : t.dropWhile isBlank = t :=
      hsuffix.eq_of_length (le_antisymm hsuffix.length_le hprefix.length_le)
    rw [hdrop] at h
    constructor
    · intro c hc
      rw [← hdrop] at hc
      exact eq_false_of_mem_head?_dropWhile hc
    · intro c hc
      obtain ⟨hne, rfl⟩ := List.mem_getLast?_eq_getLast hc
      exact Bool.eq_false_iff.mpr (List.rdropWhile_eq_self_iff.mp h hne)
  · rintro ⟨hfirst, hlast⟩
    cases t with
    | nil => rfl
    | cons c t =>
      rw [List.dropWhile_cons_of_neg (by simp [hfirst c rfl]), List.rdropWhile_eq_self_iff]
      intro hne
      simp [hlast _ (List.getLast?_eq_some_getLast hne)]

end Text

namespace Origins

variable {list origin : Text} {origins parts : List Text}

/-! ### Commas -/

/-- Texts with commas between them. -/
def joined (parts : List Text) : Text := [','].intercalate parts

/-- The text consists of the parts, with a comma between each of them and the next. -/
structure Separated (parts : List Text) (list : Text) : Prop where
  ne_nil : parts ≠ []
  comma_notMem : ∀ part ∈ parts, ',' ∉ part
  joined_eq : joined parts = list

/-- The commas of a text separate it in one way. -/
theorem separated_iff : Separated parts list ↔ parts = list.splitOn ',' := by
  constructor
  · rintro ⟨hne, hcomma, rfl⟩
    exact (List.splitOn_intercalate _ hcomma hne).symm
  · rintro rfl
    exact ⟨List.splitOn_ne_nil _ _, fun _ => notMem_of_mem_splitOn, List.intercalate_splitOn _⟩

theorem Separated.pieces_eq (h : Separated parts list) : pieces list = parts.map trim := by
  rw [pieces, ← separated_iff.mp h]

/-! ### Entries -/

/-- A list can name the origin: it is not empty, holds no comma, and neither starts nor ends with a
blank. -/
structure IsEntry (origin : Text) : Prop where
  ne_nil : origin ≠ []
  comma_notMem : ',' ∉ origin
  first_solid : ∀ c ∈ origin.head?, isBlank c = false
  last_solid : ∀ c ∈ origin.getLast?, isBlank c = false

theorem IsEntry.trim_eq (h : IsEntry origin) : trim origin = origin :=
  trim_eq_self_iff.mpr ⟨h.first_solid, h.last_solid⟩

theorem isEntry_of_trim_eq (hne : origin ≠ []) (hcomma : ',' ∉ origin)
    (htrim : trim origin = origin) : IsEntry origin := by
  obtain ⟨hfirst, hlast⟩ := trim_eq_self_iff.mp htrim
  exact ⟨hne, hcomma, hfirst, hlast⟩

theorem isEntry_star : IsEntry star := isEntry_of_trim_eq (by decide) (by decide) (by decide)

theorem isEntry_of_mem_entries (h : origin ∈ entries list) : IsEntry origin := by
  obtain ⟨hpiece, hne⟩ := mem_entries_iff.mp h
  obtain ⟨part, hpart, rfl⟩ := List.mem_map.mp hpiece
  have hcomma : ',' ∉ part := notMem_of_mem_splitOn hpart
  exact isEntry_of_trim_eq hne (fun hmem => hcomma ((isInfix_trim part).subset hmem))
    (trim_trim part)

theorem isEntry_of_mem_ofText (h : origin ∈ ofText list) : IsEntry origin := by
  rw [ofText] at h
  split_ifs at h with hstar
  · rw [List.mem_singleton.mp h]
    exact isEntry_star
  · exact isEntry_of_mem_entries h

/-- Only a list with a star among its pieces is read as the star alone. -/
theorem ofText_eq_star_iff : ofText list = [star] ↔ star ∈ pieces list := by
  rw [← allowAll_ofText, allowAll, List.contains_iff_mem]
  constructor
  · intro h
    rw [h]
    exact List.mem_singleton_self star
  · intro h
    rw [ofText]
    split_ifs with hstar
    · rfl
    · rw [ofText, if_neg hstar] at h
      exact absurd (List.contains_iff_mem.mpr h) hstar

theorem ofText_of_star_notMem (h : star ∉ pieces list) : ofText list = entries list := by
  rw [ofText, if_neg (mt contains_star_entries.mp h)]

/-! ### Written lists -/

/-- The parts between the commas of a list that names the origins in their order: each origin with
blanks around it, and between them any number of parts that hold blanks only. -/
inductive Written : List Text → List Text → Prop
  | nil : Written [] []
  | gap {blanks : Text} {origins parts : List Text} (hblanks : AllBlank blanks)
      (more : Written origins parts) : Written origins (blanks :: parts)
  | origin {before origin after : Text} {origins parts : List Text} (hbefore : AllBlank before)
      (hafter : AllBlank after) (more : Written origins parts) :
      Written (origin :: origins) ((before ++ origin ++ after) :: parts)

/-- Origins are written by themselves. -/
theorem written_self (origins : List Text) : Written origins origins := by
  have hnone : AllBlank [] := List.forall_mem_nil _
  induction origins with
  | nil => exact .nil
  | cons origin origins ih =>
    have hwritten : Written (origin :: origins) (([] ++ origin ++ []) :: origins) :=
      .origin hnone hnone ih
    rwa [List.nil_append, List.append_nil] at hwritten

namespace Written

/-- A comma is no blank, so no part of a written list holds one. -/
theorem comma_notMem (h : Written origins parts) (hentry : ∀ o ∈ origins, IsEntry o) :
    ∀ part ∈ parts, ',' ∉ part := by
  have hblank {blanks : Text} (hblanks : AllBlank blanks) : ',' ∉ blanks := by
    intro hmem
    exact absurd (hblanks ',' hmem) (by decide)
  induction h with
  | nil => exact List.forall_mem_nil _
  | gap hblanks _ ih => exact List.forall_mem_cons.mpr ⟨hblank hblanks, ih hentry⟩
  | origin hbefore hafter _ ih =>
    obtain ⟨horigin, hrest⟩ := List.forall_mem_cons.mp hentry
    refine List.forall_mem_cons.mpr ⟨?_, ih hrest⟩
    simp only [List.mem_append, not_or]
    exact ⟨⟨hblank hbefore, horigin.comma_notMem⟩, hblank hafter⟩

/-- The parts of a written list are its origins once the blanks are gone. -/
theorem filter_map_trim (h : Written origins parts) (hentry : ∀ o ∈ origins, IsEntry o) :
    (parts.map trim).filter (fun part => !part.isEmpty) = origins := by
  induction h with
  | nil => rfl
  | gap hblanks _ ih =>
    have hgap := trim_append_allBlank hblanks []
    rw [List.nil_append] at hgap
    rw [List.map_cons, hgap, List.filter_cons_of_neg (by decide), ih hentry]
  | origin hbefore hafter _ ih =>
    obtain ⟨horigin, hrest⟩ := List.forall_mem_cons.mp hentry
    rw [List.map_cons, trim_append_allBlank hafter, trim_append_of_allBlank hbefore,
      horigin.trim_eq, List.filter_cons_of_pos (by simpa using horigin.ne_nil), ih hrest]

end Written

/-- A written list is read as its origins. -/
theorem entries_joined_of_written (h : Written origins parts)
    (hentry : ∀ o ∈ origins, IsEntry o) : entries (joined parts) = origins := by
  by_cases hnil : parts = []
  · -- Nothing is written, and no text at all is read as one empty part.
    subst hnil
    cases h
    rfl
  · have hparts : Separated parts (joined parts) := ⟨hnil, h.comma_notMem hentry, rfl⟩
    change (pieces (joined parts)).filter _ = origins
    rw [hparts.pieces_eq, h.filter_map_trim hentry]

theorem ofText_joined_of_written (h : Written origins parts)
    (hentry : ∀ o ∈ origins, IsEntry o ∧ o ≠ star) : ofText (joined parts) = origins := by
  have hread := entries_joined_of_written h fun o ho => (hentry o ho).1
  have hstar : star ∉ origins := fun hmem => (hentry star hmem).2 rfl
  rw [ofText, hread, if_neg (mt List.contains_iff_mem.mp hstar)]

/-- What was read is read again from itself. -/
theorem ofText_joined_ofText (list : Text) : ofText (joined (ofText list)) = ofText list := by
  by_cases hstar : star ∈ pieces list
  · rw [ofText_eq_star_iff.mpr hstar]
    decide
  · refine ofText_joined_of_written (written_self _) fun origin horigin => ?_
    refine ⟨isEntry_of_mem_ofText horigin, ?_⟩
    rintro rfl
    exact hstar ((mem_ofText_iff hstar).mp horigin).1

end Origins

namespace Settings

open Origins

/-- The origins that the text of a setting allows, whatever the other settings are. A text has its
parts between commas in one way only. If one of them trims to a star, the star is all there is, and
otherwise the origins are the trimmed parts that are not empty, in their order. They are entries of
a list, and written with commas between them they are read again. Every list of entries other than
the star is read from each text in which it is written. -/
theorem origins_read (s : Settings) :
    let read := fun list : Text => ({ s with allowedOrigins := list } : Settings).origins
    (∀ list, ∃! parts, Separated parts list) ∧
    (∀ parts list, Separated parts list →
      (read list = [star] ↔ ∃ part ∈ parts, trim part = star) ∧
      ((¬ ∃ part ∈ parts, trim part = star) →
        read list = (parts.map trim).filter fun part => !part.isEmpty)) ∧
    (∀ list, ∀ origin ∈ read list, IsEntry origin) ∧
    (∀ list, read (joined (read list)) = read list) ∧
    ∀ origins parts, (∀ o ∈ origins, IsEntry o ∧ o ≠ star) → Written origins parts →
      read (joined parts) = origins := by
  intro read
  refine ⟨?_, ?_, fun _ _ => isEntry_of_mem_ofText, ofText_joined_ofText,
    fun _ _ hentry hwritten => ofText_joined_of_written hwritten hentry⟩
  · intro list
    exact ⟨list.splitOn ',', separated_iff.mpr rfl, fun _ => separated_iff.mp⟩
  · intro parts list hparts
    have hstar : star ∈ pieces list ↔ ∃ part ∈ parts, trim part = star := by
      rw [hparts.pieces_eq, List.mem_map]
    rw [← hstar, ← hparts.pieces_eq]
    exact ⟨ofText_eq_star_iff, ofText_of_star_notMem⟩

/-- Two origins behind an empty part, the second one with blanks around it. -/
theorem origins_read_spaced :
    ({ allowedOrigins := ",http://a.test,\thttp://b.test ".toList } : Settings).origins =
      ["http://a.test".toList, "http://b.test".toList] := by
  have hentry : ∀ o ∈ ["http://a.test".toList, "http://b.test".toList], IsEntry o ∧ o ≠ star := by
    intro o ho
    rcases List.mem_pair.mp ho with rfl | rfl <;>
      exact ⟨isEntry_of_trim_eq (by decide) (by decide) (by decide), by decide⟩
  have hnone : AllBlank [] := List.forall_mem_nil _
  have htab : AllBlank ['\t'] := List.forall_mem_singleton.mpr (by decide)
  have hspace : AllBlank [' '] := List.forall_mem_singleton.mpr (by decide)
  have hwritten : Written ["http://a.test".toList, "http://b.test".toList]
      [[], [] ++ "http://a.test".toList ++ [], ['\t'] ++ "http://b.test".toList ++ [' ']] :=
    .gap hnone (.origin hnone hnone (.origin htab hspace .nil))
  exact (origins_read {}).2.2.2.2 _ _ hentry hwritten

end Settings

end ComplexityGauge
