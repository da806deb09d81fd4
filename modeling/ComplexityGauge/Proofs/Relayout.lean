import ComplexityGauge.Analysis
import ComplexityGauge.Proofs.Layout
import ComplexityGauge.Proofs.Patterns
import Mathlib.Logic.Relation

/-!
# Changes of layout

A text may be laid out anew without any change of its signals. Blanks may be put at the ends of its
lines or taken away there, and lines without a pattern, a data structure or an opening parenthesis
may be put in or taken out.

One such edit is a step between lists of lines, and each step keeps the signals of the trimmed
lines: an indented line is the same when trimmed, and a line of the second kind is silent, which
`Signals.ofTrimmedLines_filter` lets us leave out. Any number of edits, forwards and backwards, is
then an induction.

## Main definitions

* `Line.Idle` — a line that may be put in or taken out
* `LayoutEdit` — one edit of the lines of a text
* `Relaid` — one text comes from another by any number of edits, forwards and backwards
* `Text.withCarriageReturns` — every line feed gets a carriage return in front of it

## Main results

* `Signals.ofTrimmedLines_of_edit` — one edit keeps the signals
* `Relaid.ofText_eq` — so does any number of them
* `Signals.ofText_eq_of_relaid` — the signals and the analysis of a text hang on no layout
-/

namespace ComplexityGauge

open Text

/-! ### Idle lines -/

/-- A line that opens no loop, closes no block and mentions no data structure in the form in which
it is searched, and that holds no opening parenthesis. -/
structure Line.Idle (line : Text) : Prop where
  opensLoop : Line.opensLoop (normalize line) = false
  closesBlock : Line.closesBlock (normalize line) = false
  dataStructures : Line.dataStructures (normalize line) = []
  notMem : '(' ∉ line

namespace Line

variable {line t : Text}

/-- A definition holds an opening parenthesis. -/
theorem mem_of_definesFunction (h : definesFunction t = true) : '(' ∈ t := by
  rw [definesFunction, Bool.and_eq_true, any_holdsGroup_lines, anySuffix_iff] at h
  obtain ⟨-, rest, hrest, hgroup⟩ := h
  cases rest with
  | nil => exact absurd hgroup (by decide)
  | cons c rest =>
    have hopen : '(' = c := by
      by_contra hne
      rw [startsGroup, after?_cons_cons, if_neg hne] at hgroup
      exact Bool.false_ne_true hgroup
    exact hrest.subset (hopen ▸ List.mem_cons_self)

theorem Idle.loopEffect (h : Idle line) : loopEffect (normalize line) = .neutral := by
  rw [Line.loopEffect, h.opensLoop, h.closesBlock]
  rfl

/-- An idle line shows nothing once it is trimmed. -/
theorem Idle.silent_trim (h : Idle line) : Silent (trim line) := by
  have hnotMem : '(' ∉ trim line := fun hmem => h.notMem ((mem_trim_iff (by decide)).mp hmem)
  refine ⟨h.loopEffect, h.dataStructures, ?_, hnotMem⟩
  -- A definition would need an opening parenthesis, and lowercasing brings none forth.
  rw [Bool.eq_false_iff]
  intro hdefines
  exact hnotMem ((mem_lower_iff (by decide)).mp (mem_of_definesFunction hdefines))

theorem trim_of_allBlank (h : AllBlank t) : trim t = [] := by
  have hnil := trim_append_of_allBlank h []
  rwa [List.append_nil] at hnil

/-- Lines of blanks are idle. -/
theorem idle_of_allBlank (h : AllBlank t) : Idle t := by
  have hnormal : normalize t = [] := by
    rw [Text.normalize, trim_of_allBlank h, lower_nil]
  refine ⟨?_, ?_, ?_, fun hmem => Bool.noConfusion (h '(' hmem)⟩
  · rw [hnormal]
    rfl
  · rw [hnormal]
    rfl
  · rw [hnormal]
    rfl

end Line

/-! ### Edits -/

/-- One edit that changes the layout of a text, given by its lines: blanks are put in front of a
line or behind it, or an idle line is put in anywhere. -/
inductive LayoutEdit : List Text → List Text → Prop
  | lead (before after : List Text) (line : Text) {blanks : Text} (h : AllBlank blanks)
      (hblanks : '\n' ∉ blanks) :
      LayoutEdit (before ++ line :: after) (before ++ (blanks ++ line) :: after)
  | trail (before after : List Text) (line : Text) {blanks : Text} (h : AllBlank blanks)
      (hblanks : '\n' ∉ blanks) :
      LayoutEdit (before ++ line :: after) (before ++ (line ++ blanks) :: after)
  | insert (before after : List Text) {line : Text} (h : Line.Idle line) (hline : '\n' ∉ line) :
      LayoutEdit (before ++ after) (before ++ line :: after)

/-- The second text comes from the first by edits of the layout, each made or taken back. -/
def Relaid (a b : Text) : Prop := Relation.EqvGen LayoutEdit (lines a) (lines b)

namespace Signals

variable {ls ms before after : List Text} {line : Text}

/-- A silent line may be put in anywhere. -/
theorem ofTrimmedLines_insert (h : Line.Silent line) (before after : List Text) :
    ofTrimmedLines (before ++ line :: after) = ofTrimmedLines (before ++ after) := by
  -- On either side all lines equal to this one may be left out, and then the sides are the same.
  have hleave : ∀ ls, ofTrimmedLines (ls.filter (· ≠ line)) = ofTrimmedLines ls := by
    intro ls
    apply ofTrimmedLines_filter
    intro l _ hl
    obtain rfl : l = line := by simpa using hl
    exact h
  rw [← hleave (before ++ line :: after), ← hleave (before ++ after), List.filter_append,
    List.filter_append, List.filter_cons_of_neg (by simp)]

/-- One edit keeps the signals. -/
theorem ofTrimmedLines_of_edit (h : LayoutEdit ls ms) :
    ofTrimmedLines (ls.map trim) = ofTrimmedLines (ms.map trim) := by
  cases h with
  | lead before after line h =>
    rw [List.map_append, List.map_append, List.map_cons, List.map_cons,
      trim_append_of_allBlank h]
  | trail before after line h =>
    rw [List.map_append, List.map_append, List.map_cons, List.map_cons, trim_append_allBlank h]
  | insert before after h =>
    rw [List.map_append, List.map_append, List.map_cons, ofTrimmedLines_insert h.silent_trim]

/-- Any number of edits, forwards and backwards, keeps the signals. -/
theorem ofTrimmedLines_of_eqvGen (h : Relation.EqvGen LayoutEdit ls ms) :
    ofTrimmedLines (ls.map trim) = ofTrimmedLines (ms.map trim) := by
  induction h with
  | rel _ _ hedit => exact ofTrimmedLines_of_edit hedit
  | refl _ => rfl
  | symm _ _ _ ih => exact ih.symm
  | trans _ _ _ _ _ ih₁ ih₂ => exact ih₁.trans ih₂

end Signals

theorem Relaid.ofText_eq {a b : Text} (h : Relaid a b) : Signals.ofText a = Signals.ofText b := by
  rw [Signals.ofText_eq_ofTrimmedLines, Signals.ofText_eq_ofTrimmedLines, Signals.trimmedLines,
    Signals.trimmedLines, Signals.ofTrimmedLines_of_eqvGen h]

/-! ### Carriage returns -/

/-- Edits of the lines behind the first are edits of all lines. -/
theorem LayoutEdit.cons {ls ms : List Text} (h : LayoutEdit ls ms) (first : Text) :
    LayoutEdit (first :: ls) (first :: ms) := by
  cases h with
  | lead before after line h hblanks => exact .lead (first :: before) after line h hblanks
  | trail before after line h hblanks => exact .trail (first :: before) after line h hblanks
  | insert before after h hline => exact .insert (first :: before) after h hline

theorem eqvGen_layoutEdit_cons {ls ms : List Text} (h : Relation.EqvGen LayoutEdit ls ms)
    (first : Text) : Relation.EqvGen LayoutEdit (first :: ls) (first :: ms) := by
  induction h with
  | rel _ _ hedit => exact .rel _ _ (hedit.cons first)
  | refl _ => exact .refl _
  | symm _ _ _ ih => exact .symm _ _ ih
  | trans _ _ _ _ _ ih₁ ih₂ => exact .trans _ _ _ ih₁ ih₂

/-- The text with a carriage return in front of every line feed. -/
def Text.withCarriageReturns (t : Text) : Text :=
  t.flatMap fun c => if c = '\n' then ['\r', '\n'] else [c]

theorem Text.withCarriageReturns_of_newline_notMem {t : Text} (h : '\n' ∉ t) :
    withCarriageReturns t = t := by
  induction t with
  | nil => rfl
  | cons c t ih =>
    have hc : c ≠ '\n' := fun heq => h (heq ▸ List.mem_cons_self)
    have ht : '\n' ∉ t := fun hmem => h (List.mem_cons_of_mem c hmem)
    have ih := ih ht
    rw [withCarriageReturns] at ih ⊢
    rw [List.flatMap_cons, if_neg hc, ih, List.singleton_append]

theorem Text.withCarriageReturns_append_newline {a : Text} (ha : '\n' ∉ a) (b : Text) :
    withCarriageReturns (a ++ '\n' :: b) = (a ++ ['\r']) ++ '\n' :: withCarriageReturns b := by
  have hfirst := withCarriageReturns_of_newline_notMem ha
  rw [withCarriageReturns] at hfirst ⊢
  rw [List.flatMap_append, hfirst, List.flatMap_cons, if_pos rfl, List.append_assoc]
  rfl

/-- A carriage return at the end of each line but the last is an edit for each of them. -/
theorem eqvGen_withCarriageReturns {ls : List Text} (hls : ls ≠ []) (h : ∀ l ∈ ls, '\n' ∉ l) :
    Relation.EqvGen LayoutEdit ls (lines (withCarriageReturns (unlines ls))) := by
  induction ls with
  | nil => exact absurd rfl hls
  | cons l ls ih =>
    obtain ⟨hl, hrest⟩ := List.forall_mem_cons.mp h
    cases ls with
    | nil =>
      rw [unlines, List.intercalate_singleton, withCarriageReturns_of_newline_notMem hl,
        lines_of_newline_notMem hl]
      exact .refl _
    | cons m ls =>
      have hreturn : '\n' ∉ l ++ ['\r'] := by simp [hl]
      have hblank : AllBlank ['\r'] := by simp [AllBlank, isBlank]
      have hstep := LayoutEdit.trail [] (m :: ls) l hblank (by decide)
      have hbehind := eqvGen_layoutEdit_cons (ih (List.cons_ne_nil m ls) hrest) (l ++ ['\r'])
      -- First the line gets its carriage return, then the lines behind it get theirs.
      rw [unlines_cons_cons, withCarriageReturns_append_newline hl, lines_append_newline,
        lines_of_newline_notMem hreturn]
      exact .trans _ _ _ (.rel _ _ hstep) hbehind

theorem relaid_withCarriageReturns (code : Text) : Relaid code (withCarriageReturns code) := by
  have h := eqvGen_withCarriageReturns (lines_ne_nil code) fun _ hl =>
    newline_notMem_of_mem_lines hl
  rwa [unlines_lines] at h

/-- A text that is laid out anew has the same signals and the same analysis. A carriage return in
front of every line feed is a change of layout, and lines of blanks may be put in anywhere. -/
theorem Signals.ofText_eq_of_relaid :
    (∀ a b, Relaid a b → ofText a = ofText b ∧ Analysis.ofText a = Analysis.ofText b) ∧
      (∀ code, Relaid code (withCarriageReturns code)) ∧
      ∀ blanks, AllBlank blanks → Line.Idle blanks := by
  refine ⟨?_, relaid_withCarriageReturns, fun _ h => Line.idle_of_allBlank h⟩
  intro a b h
  have hsignals := h.ofText_eq
  exact ⟨hsignals, by rw [Analysis.ofText, Analysis.ofText, hsignals]⟩

/-- A loop that is indented, gets a carriage return and a line that shows nothing. -/
theorem Signals.ofText_indentedLoop :
    Relaid "while x:\nend".toList "\t while x:\r\nlet y = 1\nend".toList ∧
      ofText "while x:\nend".toList = ofText "\t while x:\r\nlet y = 1\nend".toList := by
  have hlead : AllBlank "\t ".toList := by simp [AllBlank, isBlank]
  have htrail : AllBlank "\r".toList := by simp [AllBlank, isBlank]
  have hidle : Line.Idle "let y = 1".toList := ⟨by decide, by decide, by decide, by decide⟩
  have h₁ := LayoutEdit.lead [] ["end".toList] "while x:".toList hlead (by decide)
  have h₂ := LayoutEdit.trail [] ["end".toList] "\t while x:".toList htrail (by decide)
  have h₃ := LayoutEdit.insert ["\t while x:\r".toList] ["end".toList] hidle (by decide)
  have h : Relaid "while x:\nend".toList "\t while x:\r\nlet y = 1\nend".toList :=
    .trans _ _ _ (.rel _ _ h₁) (.trans _ _ _ (.rel _ _ h₂) (.rel _ _ h₃))
  exact ⟨h, (ofText_eq_of_relaid.1 _ _ h).1⟩

end ComplexityGauge
