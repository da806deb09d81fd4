import ComplexityGauge.Proofs.Naming
import ComplexityGauge.Proofs.Resemblance
import Mathlib.Logic.Relation

/-!
# Both mounts

All routes but the root are offered twice, below the root and below a mount of their own. A path
below the mount is on the route of the rest of the path, because no route has a path that starts
like the mount. So a request that is sent to the other mount says the same to the same route. The
two answers look alike, up to the path in the log.

## Main definitions

* `Request.mounted` — the same request below the mount
* `Route.Offered` — the paths that are offered twice
* `Service.SameLine` — lines of the log that differ in nothing but a path

## Main results

* `Route.Offered.ofPath?_mount` — the mount makes no difference to the route
* `Service.answer_mounted` — nor to the answer
-/

namespace ComplexityGauge

open Text

/-- The same request below the mount. -/
def Request.mounted (r : Request) : Request := { r with path := Route.mount ++ r.path }

/-! ### Paths -/

namespace Route

variable {path start : Text}

/-- The paths that are offered twice: fixed ones, and those that end in the name of a language. -/
inductive Offered : Text → Prop
  | fixed {path : Text} (listed : path ∈ ["/health".toList, "/metrics".toList, "/analyze".toList,
      "/export".toList, "/examples".toList]) : Offered path
  | snippet {language : Text} (given : language ≠ []) (segment : '/' ∉ language) :
    Offered ("/examples/".toList ++ language)

/-- Only the end of a path is looked at for a line feed. -/
theorem dropLineFeed_append (start : Text) (h : path ≠ []) :
    dropLineFeed (start ++ path) = start ++ dropLineFeed path := by
  rw [dropLineFeed, dropLineFeed, List.getLast?_append_of_ne_nil start h,
    List.dropLast_append_of_ne_nil h]
  split_ifs <;> rfl

/-- A path is on no fixed route if no fixed route starts as it does. -/
theorem find?_fixed_append (hstart : ∀ f ∈ fixed, ¬ start <+: f.1) (rest : Text) :
    (fixed.find? fun f => f.1 == start ++ rest) = none := by
  refine List.find?_eq_none.mpr fun f hf heq => hstart f hf ⟨rest, ?_⟩
  exact (beq_iff_eq.mp heq).symm

theorem ofResource?_snippet {language : Text} (hgiven : language ≠ []) (hsegment : '/' ∉ language) :
    ofResource? (snippetPath ++ language) = some (snippet language) := by
  have hlanguage : (language.isEmpty || language.contains '/') = false := by
    simp [hgiven, hsegment]
  rw [ofResource?, dropLineFeed_append _ hgiven, find?_fixed_append (by decide)]
  simp only [after?_eq_some_iff.mpr rfl, hlanguage]
  rfl

/-- No route has a path that starts like the mount, so the mount is left out of account. -/
theorem ofPath?_mount_append (h : path ≠ []) : ofPath? (mount ++ path) = ofResource? path := by
  have hroot : dropLineFeed (mount ++ path) ≠ ['/'] := by
    rw [dropLineFeed_append _ h]
    exact nofun
  have hresource : ofResource? (mount ++ path) = none := by
    have hsnippet : after? snippetPath (mount ++ path) = none := rfl
    rw [ofResource?, dropLineFeed_append _ h, find?_fixed_append (by decide), hsnippet]
  rw [ofPath?, if_neg hroot, hresource, after?_eq_some_iff.mpr rfl]
  rfl

theorem ofPath?_snippet {language : Text} (hgiven : language ≠ []) (hsegment : '/' ∉ language) :
    ofPath? (snippetPath ++ language) = some (snippet language) := by
  have hroot : dropLineFeed (snippetPath ++ language) ≠ ['/'] := by
    rw [dropLineFeed_append _ hgiven]
    exact nofun
  rw [ofPath?, if_neg hroot, ofResource?_snippet hgiven hsegment]
  rfl

/-- The mount makes no difference to the route. -/
theorem Offered.ofPath?_mount (h : Offered path) :
    (ofPath? path).isSome ∧ ofPath? path = ofPath? (mount ++ path) := by
  cases h with
  | fixed listed =>
    revert listed path
    decide
  | @snippet language given segment =>
    have hhere := ofPath?_snippet given segment
    have hpath : snippetPath ++ language ≠ [] := List.append_ne_nil_of_right_ne_nil _ given
    have hmounted := (ofPath?_mount_append hpath).trans (ofResource?_snippet given segment)
    exact ⟨Option.isSome_iff_exists.mpr ⟨_, hhere⟩, hhere.trans hmounted.symm⟩

theorem Offered.head?_eq (h : Offered path) : path.head? = some '/' := by
  cases h with
  | fixed listed =>
    revert listed path
    decide
  | snippet given segment => rfl

end Route

theorem Request.shownPath_mounted {r : Request} (h : r.path.head? = some '/') :
    r.mounted.shownPath = Route.mount ++ r.shownPath := by
  have hpath : r.path.isEmpty || r.path.head? = some '/' := by simp [h]
  have hmounted : (Route.mount ++ r.path).isEmpty || (Route.mount ++ r.path).head? = some '/' := rfl
  rw [shownPath, shownPath, addressPath, addressPath, if_pos hpath, mounted, if_pos hmounted,
    List.flatMap_append, List.filter_append]
  rfl

namespace Service

variable {s : Settings} {r : Request} {path path' : Text} {entries entries' : List LogEntry}

/-! ### Lines -/

/-- Lines of the log that differ in nothing but a path, and only if they are warnings or errors. -/
def SameLine (path path' : Text) : Text → Text → Prop :=
  Relation.Map (SameEntry path path') LogEntry.line LogEntry.line

/-- Whether an entry is kept does not depend on a path in it. -/
theorem SameEntry.kept_eq {e e' : LogEntry} (h : SameEntry path path' e e')
    (threshold : LogLevel) : e.kept threshold = e'.kept threshold := by
  cases h <;> rfl

theorem sameLine_logLines (h : List.Forall₂ (SameEntry path path') entries entries') :
    List.Forall₂ (SameLine path path') (s.logLines entries) (s.logLines entries') := by
  induction h with
  | nil => exact .nil
  | @cons e e' rest rest' hfirst _ ih =>
    have hkept := hfirst.kept_eq s.logLevel
    rw [Settings.logLines, Settings.logLines, List.filter_cons, List.filter_cons, ← hkept]
    split_ifs
    · exact .cons ⟨e, e', hfirst, rfl, rfl⟩ ih
    · exact ih

/-! ### Answers -/

theorem sameCall_mounted (h : Route.Offered r.path) : SameCall r r.mounted where
  method := rfl
  headers := rfl
  body := rfl
  route := h.ofPath?_mount.2
  stray hnone := by
    have hsome := h.ofPath?_mount.1
    rw [hnone] at hsome
    exact nomatch hsome

/-- A request that is sent to the other mount is on the same route. It has the same answer up to the
time, moves the counters as far, and leaves the same lines but for its path in warnings and
errors. -/
theorem answer_mounted (s : Settings) (now now' : Text) (c : Counters)
    (hpath : Route.Offered r.path) :
    let o := answer s now c r
    let o' := answer s now' c r.mounted
    (∃ route, Route.ofPath? r.path = some route ∧ Route.ofPath? r.mounted.path = some route) ∧
      o.response.status = o'.response.status ∧ o.response.headers = o'.response.headers ∧
      o.response.body.untimed = o'.response.body.untimed ∧ o.counters = o'.counters ∧
      r.mounted.shownPath = Route.mount ++ r.shownPath ∧
      List.Forall₂ (SameLine r.shownPath r.mounted.shownPath)
        (s.logLines o.entries) (s.logLines o'.entries) := by
  have hcall := sameCall_mounted hpath
  have halike : Alike r r.mounted (answer s now c r) (answer s now' c r.mounted) :=
    alike_answer s now now' hcall fun _ => rfl
  obtain ⟨hanalysed, hfailed, hrefused⟩ := counts_eq s now now' c c hcall
  refine ⟨?route, halike.status, halike.headers, halike.body, ?counters,
    Request.shownPath_mounted hpath.head?_eq, sameLine_logLines halike.entries⟩
  case route =>
    obtain ⟨route, hroute⟩ := Option.isSome_iff_exists.mp hpath.ofPath?_mount.1
    exact ⟨route, hroute, hcall.route.symm.trans hroute⟩
  case counters =>
    -- The counters move by what an answer counts as.
    rw [((answer_answered s now c r).accounts (s := s)).counters,
      ((answer_answered s now' c r.mounted).accounts (s := s)).counters, hanalysed, hfailed,
      hrefused]

/-- A request that sends nothing is refused below both mounts. -/
theorem answer_mounted_emptyPost :
    Route.Offered emptyPost.path ∧
      (answer {} [] {} emptyPost.mounted).response.status = 422 ∧
      (answer {} [] {} emptyPost.mounted).counters = { refused := 1 } ∧
      emptyPost.mounted.shownPath = "/api/v1/analyze".toList := by
  have hpath : Route.Offered emptyPost.path := .fixed (by decide)
  obtain ⟨-, hstatus, -, -, hcounters, hshown, -⟩ := answer_mounted {} [] [] {} hpath
  exact ⟨hpath, hstatus.symm, hcounters.symm, hshown⟩

end Service

end ComplexityGauge
