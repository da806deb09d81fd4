import ComplexityGauge.Proofs.Places

/-!
# The leftmost name of a function

The name of a function by the places in its line. A keyword counts at a place if blanks follow it,
at least one, and then a name. The leftmost such place has the name: keywords further left that
nothing like that follows are passed over, and the name goes on as far as name characters do.

A keyword ends where the blanks behind it start. So although one keyword starts with another one, at
most one of them counts at a place, and they can be tried in any order.

## Main definitions

* `Text.RunAt` — a run of characters at a place, as far as it goes
* `Line.NamedBy`, `Line.NameAt` — a keyword at a place, with the place where its name starts
* `Line.nameBehind?` — the search for a name behind any of some keywords

## Main results

* `Text.exists_runAt` — at every place there is a run
* `Line.announces_drop_iff` — an announced name by its places
* `Line.functionName?_eq_some_iff_places`, `Line.functionName?_eq_none_iff_places` — when there is a
  name, and which
* `Line.functionName?_leftmost` — the search in full
-/

namespace ComplexityGauge

open Text

namespace Text

variable {t w : Text} {p : Char → Bool} {i n : ℕ}

/-! ### Runs -/

/-- The text `w` stands at the place, all its characters satisfy `p`, and a character behind it, if
there is one, does not. -/
structure RunAt (p : Char → Bool) (t : Text) (i : ℕ) (w : Text) : Prop where
  stands : StandsAt w t i
  all : ∀ c ∈ w, p c = true
  ends : ∀ c ∈ t[i + w.length]?, p c = false

theorem getElem?_of_drop_eq {rest : Text} (h : t.drop i = w ++ rest) :
    t[i + w.length]? = rest.head? := by
  rw [← List.getElem?_drop, h, List.getElem?_append_right le_rfl, Nat.sub_self,
    List.head?_eq_getElem?]

/-- A text in front of the rest of another stands there, and the rest goes on behind it. -/
theorem runAt_of_drop_eq {rest : Text} (h : t.drop i = w ++ rest) (hall : ∀ c ∈ w, p c = true)
    (hends : ∀ c ∈ rest.head?, p c = false) : RunAt p t i w where
  stands := ⟨rest, h.symm⟩
  all := hall
  ends := by rwa [getElem?_of_drop_eq h]

theorem RunAt.exists_drop_eq (h : RunAt p t i w) :
    ∃ rest, t.drop i = w ++ rest ∧ ∀ c ∈ rest.head?, p c = false := by
  obtain ⟨rest, hrest⟩ := h.stands
  refine ⟨rest, hrest.symm, ?_⟩
  rw [← getElem?_of_drop_eq hrest.symm]
  exact h.ends

/-- A run may be empty. -/
theorem exists_runAt (p : Char → Bool) (t : Text) (i : ℕ) : ∃ w, RunAt p t i w :=
  ⟨_, runAt_of_drop_eq List.takeWhile_append_dropWhile.symm (fun _ => List.mem_takeWhile_imp)
    fun _ => eq_false_of_mem_head?_dropWhile⟩

/-- A run is not empty exactly if its first character is there. -/
theorem RunAt.ne_nil_iff (h : RunAt p t i w) : w ≠ [] ↔ ∃ c, t[i]? = some c ∧ p c = true := by
  cases w with
  | nil =>
    refine iff_of_false (fun hne => hne rfl) ?_
    rintro ⟨c, hc, hp⟩
    exact Bool.eq_false_iff.mp (h.ends c hc) hp
  | cons d w =>
    refine iff_of_true (List.cons_ne_nil d w) ⟨d, ?_, h.all d List.mem_cons_self⟩
    obtain ⟨rest, hrest⟩ := h.stands
    rw [← List.head?_drop, ← hrest]
    rfl

end Text

namespace Line

variable {l name keyword : Text} {i n start : ℕ}

/-! ### Names by places -/

/-- The keyword stands at the place `i`, behind it are blanks up to the place `start`, at least one,
and there a name starts. -/
structure NamedBy (keyword l : Text) (i start : ℕ) : Prop where
  stands : StandsAt keyword l i
  gap : i + keyword.length < start
  blanks : AllFrom isBlank l (i + keyword.length) start
  name_starts : ∃ c, l[start]? = some c ∧ isNameChar c = true

/-- One of the keywords stands at the place `i`, and its name starts at the place `start`. -/
def NameAt (l : Text) (i start : ℕ) : Prop :=
  ∃ keyword ∈ ["function".toList, "def".toList, "func".toList], NamedBy keyword l i start

/-- What follows a place, if it is blanks and a name, by the place where the name starts. -/
theorem nameFollows_drop_iff :
    NameFollows (l.drop n) name ↔
      ∃ start, n < start ∧ AllFrom isBlank l n start ∧ RunAt isNameChar l start name ∧
        ∃ c, l[start]? = some c ∧ isNameChar c = true := by
  constructor
  · rintro ⟨blanks, rest, hline, hgap, hblanks, hne, hname, hrest⟩
    have hlength : 0 < blanks.length := List.length_pos_of_ne_nil hgap
    have hdrop : l.drop (n + blanks.length) = name ++ rest := by
      rw [← List.drop_drop, hline, List.drop_left]
    have hrun := runAt_of_drop_eq hdrop hname hrest
    refine ⟨n + blanks.length, by omega, ?_, hrun, hrun.ne_nil_iff.mp hne⟩
    -- Before the name stand the characters of `blanks`.
    refine (allFrom_drop_iff (i := 0)).mp fun k c _ hk hc => hblanks c ?_
    rw [hline, List.getElem?_append_left hk] at hc
    exact List.mem_of_getElem? hc
  · rintro ⟨start, hlt, hblanks, hrun, c, hc, hchar⟩
    obtain ⟨m, rfl⟩ := Nat.exists_eq_add_of_lt hlt
    obtain ⟨rest, hdrop, hrest⟩ := hrun.exists_drop_eq
    have hbound : n + m + 1 < l.length := (List.getElem?_eq_some_iff.mp hc).1
    have hne : name ≠ [] := hrun.ne_nil_iff.mpr ⟨c, hc, hchar⟩
    refine ⟨(l.drop n).take (m + 1), rest, ?_, ?_, ?_, hne, hrun.all, hrest⟩
    · rw [← hdrop, Nat.add_assoc, ← List.drop_drop, List.take_append_drop]
    · rw [← List.length_pos_iff, List.length_take, List.length_drop]
      omega
    · intro d hd
      obtain ⟨k, hk⟩ := List.mem_iff_getElem?.mp hd
      rw [List.getElem?_take] at hk
      split_ifs at hk with hkm
      rw [List.getElem?_drop] at hk
      exact hblanks (n + k) d (by omega) (by omega) hk

theorem NamedBy.exists_drop_eq (h : NamedBy keyword l i start)
    (hrun : RunAt isNameChar l start name) :
    ∃ after, l.drop i = keyword ++ after ∧ NameFollows after name :=
  ⟨_, after?_eq_some_iff.mp (after?_drop_eq_some_iff.mpr ⟨h.stands, rfl⟩),
    nameFollows_drop_iff.mpr ⟨start, h.gap, h.blanks, hrun, h.name_starts⟩⟩

/-- A name is announced at a place if a keyword and its blanks lead to it. -/
theorem announces_drop_iff :
    Announces functionKeywords (l.drop i) name ↔
      ∃ start, NameAt l i start ∧ RunAt isNameChar l start name := by
  constructor
  · rintro ⟨keyword, hkeyword, after, hline, hname⟩
    obtain ⟨hstands, rfl⟩ := after?_drop_eq_some_iff.mp (after?_eq_some_iff.mpr hline)
    obtain ⟨start, hgap, hblanks, hrun, hstart⟩ := nameFollows_drop_iff.mp hname
    exact ⟨start, ⟨keyword, hkeyword, hstands, hgap, hblanks, hstart⟩, hrun⟩
  · rintro ⟨start, ⟨keyword, hkeyword, h⟩, hrun⟩
    exact ⟨keyword, hkeyword, h.exists_drop_eq hrun⟩

theorem exists_announces_drop_iff :
    (∃ name, Announces functionKeywords (l.drop i) name) ↔ ∃ start, NameAt l i start := by
  simp only [announces_drop_iff]
  constructor
  · rintro ⟨name, start, hplace, -⟩
    exact ⟨start, hplace⟩
  · rintro ⟨start, hplace⟩
    obtain ⟨name, hrun⟩ := exists_runAt isNameChar l start
    exact ⟨name, start, hplace, hrun⟩

/-- The name of a function starts behind the keyword at the leftmost place that has one. -/
theorem functionName?_eq_some_iff_places :
    functionName? l = some name ↔
      ∃ i start, NameAt l i start ∧ (∀ k < i, ∀ other, ¬ NameAt l k other) ∧
        RunAt isNameChar l start name := by
  have hbefore (k : ℕ) : (∀ other, ¬ Announces functionKeywords (l.drop k) other) ↔
      ∀ other, ¬ NameAt l k other := by
    rw [← not_exists, ← not_exists, exists_announces_drop_iff]
  rw [functionName?_eq_some_iff, LeftmostName]
  constructor
  · rintro ⟨i, hname, hleft⟩
    obtain ⟨start, hplace, hrun⟩ := announces_drop_iff.mp hname
    exact ⟨i, start, hplace, fun k hk => (hbefore k).mp (hleft k hk), hrun⟩
  · rintro ⟨i, start, hplace, hleft, hrun⟩
    exact ⟨i, announces_drop_iff.mpr ⟨start, hplace, hrun⟩,
      fun k hk => (hbefore k).mpr (hleft k hk)⟩

/-- Keywords that no name follows leave a line without a name, however many there are. -/
theorem functionName?_eq_none_iff_places :
    functionName? l = none ↔ ∀ i start, ¬ NameAt l i start := by
  classical
  constructor
  · intro hnone i start hplace
    have hsome : ∃ i start, NameAt l i start := ⟨i, start, hplace⟩
    obtain ⟨first, hfirst⟩ := Nat.find_spec hsome
    obtain ⟨name, hrun⟩ := exists_runAt isNameChar l first
    have hname := functionName?_eq_some_iff_places.mpr
      ⟨_, first, hfirst, fun _ hk => not_exists.mp (Nat.find_min hsome hk), hrun⟩
    exact absurd (hnone.symm.trans hname) (Option.some_ne_none name).symm
  · intro hplaces
    refine Option.eq_none_iff_forall_ne_some.mpr fun name hname => ?_
    obtain ⟨i, start, hplace, -⟩ := functionName?_eq_some_iff_places.mp hname
    exact hplaces i start hplace

/-! ### The order of the keywords -/

/-- The name behind the leftmost of the keywords that one follows, with the keywords tried in their
order at each place. -/
def nameBehind? (keywords : List Text) (l : Text) : Option Text :=
  firstSuffix? (fun t => keywords.findSome? fun keyword => (after? keyword t).bind nameAfterBlanks?)
    l

theorem nameBehind?_of_perm {keywords : List Text} (h : keywords.Perm functionKeywords) :
    nameBehind? keywords l = functionName? l := by
  have hsame : (fun t => keywords.findSome? fun keyword =>
      (after? keyword t).bind nameAfterBlanks?) = startingName? := by
    funext t
    ext name
    rw [findSome?_eq_some_iff_of_subset h.subset, startingName?_eq_some_iff, Announces]
    exact exists_congr fun keyword => and_congr_left' h.mem_iff
  rw [nameBehind?, hsame, functionName?]

/-- The blanks behind a keyword tell where it ends. -/
theorem NamedBy.keyword_eq {v w : Text} {other : ℕ} (hv : v ∈ functionKeywords)
    (hw : w ∈ functionKeywords) (h : NamedBy v l i start) (h' : NamedBy w l i other) : v = w := by
  obtain ⟨name, hrun⟩ := exists_runAt isNameChar l start
  obtain ⟨name', hrun'⟩ := exists_runAt isNameChar l other
  obtain ⟨after, hline, hname⟩ := h.exists_drop_eq hrun
  obtain ⟨after', hline', hname'⟩ := h'.exists_drop_eq hrun'
  exact keyword_unique hv hw hname hname' (hline.symm.trans hline')

/-- The search for the name of a function, by places. There is a name exactly if there is a place at
which a keyword, blanks and a name character follow each other, and then the name is the run of name
characters behind the leftmost such place. At one place no two keywords can do that, and whatever
the order in which they are tried, the same name is found. In a line in the form in which it is
searched the name is not empty and made of small letters, digits and underscores, so no capital is
in it. -/
theorem functionName?_leftmost (l : Text) :
    (∀ name, functionName? l = some name ↔
      ∃ i start, NameAt l i start ∧ (∀ k < i, ∀ other, ¬ NameAt l k other) ∧
        RunAt isNameChar l start name) ∧
    ((∃ name, functionName? l = some name) ↔ ∃ i start, NameAt l i start) ∧
    (functionName? l = none ↔ ∀ i start, ¬ NameAt l i start) ∧
    (∀ v ∈ functionKeywords, ∀ w ∈ functionKeywords, ∀ i start other,
      NamedBy v l i start → NamedBy w l i other → v = w) ∧
    (∀ keywords, keywords.Perm functionKeywords →
      nameBehind? keywords l = functionName? l) ∧
    ∀ raw, l = normalize raw → ∀ name, functionName? l = some name →
      name ≠ [] ∧ ∀ c ∈ name, isDigit c = true ∨ ('a' ≤ c ∧ c ≤ 'z') ∨ c = '_' := by
  refine ⟨fun _ => functionName?_eq_some_iff_places, ?found, functionName?_eq_none_iff_places,
    fun _ hv _ hw _ _ _ => NamedBy.keyword_eq hv hw, fun _ => nameBehind?_of_perm, ?small⟩
  case found =>
    have hsome : functionName? l ≠ none ↔ ¬ ∀ i start, ¬ NameAt l i start :=
      not_congr functionName?_eq_none_iff_places
    simpa only [Option.ne_none_iff_exists', not_forall, not_not] using hsome
  case small =>
    rintro raw rfl name hname
    exact Signals.small_of_leftmostName (functionName?_eq_some_iff.mp hname)

/-- The first keyword has a colon behind it, and the second one stands in another word. Where no
name follows the keywords, none of them counts at any place. -/
theorem functionName?_leftmost_undef :
    let l := normalize "DEF: undef  Go2(x)".toList
    functionName? l = some "go2".toList ∧
      (∃ i start, NameAt l i start ∧ RunAt isNameChar l start "go2".toList) ∧
      nameBehind? ["func".toList, "def".toList, "function".toList] l = some "go2".toList ∧
      (∀ c ∈ "go2".toList, isDigit c = true ∨ ('a' ≤ c ∧ c ≤ 'z') ∨ c = '_') ∧
      ∀ i start, ¬ NameAt "def (x) func".toList i start := by
  intro l
  have hname : functionName? l = some "go2".toList := by decide
  obtain ⟨hplaces, -, -, -, horder, hsmall⟩ := functionName?_leftmost l
  obtain ⟨i, start, hplace, -, hrun⟩ := (hplaces _).mp hname
  have hperm : ["func".toList, "def".toList, "function".toList].Perm functionKeywords := by decide
  exact ⟨hname, ⟨i, start, hplace, hrun⟩, (horder _ hperm).trans hname, (hsmall _ rfl _ hname).2,
    (functionName?_leftmost "def (x) func".toList).2.2.1.mp (by decide)⟩

end Line

end ComplexityGauge
