import ComplexityGauge.Proofs.Answers
import ComplexityGauge.Proofs.DeclaredSize

/-!
# What the service cannot deal with

Two kinds of requests make the service fail, and no others do. The one declares its size in digits
with superscripts among them, and they write no number. The other sends back a result with halves
of surrogate pairs in what is to be copied from it, and no text can be sent that holds them.
Everything else that may be wrong with a request is told to the client that sent it.

Whether a request fails depends on the request and the limit alone. So the counter of failures
stays at zero for as long as no such request comes, whatever else is asked in between.

## Main definitions

* `DisplayResult.HoldsHalves` — a result with halves in its labels or its report
* `Service.Fails` — the requests that the service cannot deal with

## Main results

* `Service.status_eq_500_iff` — a failure is answered to these requests and to no others
* `Service.run_failures` — the law for every sequence of requests
-/

namespace ComplexityGauge

open Text

/-! ### Texts that cannot be sent -/

namespace WideText

variable {t : WideText}

theorem firstHalves?_half (index : Fin 2048) (t : WideText) :
    firstHalves? (.half index :: t) ≠ none := nofun

/-- Halves behind a character stand one place further on. -/
theorem firstHalves?_char (c : Char) (t : WideText) :
    firstHalves? (.char c :: t) = (firstHalves? t).map fun found => (found.1 + 1, found.2) := by
  have hbefore : (Symbol.char c :: t).takeWhile (fun symbol => !symbol.isHalf) =
      .char c :: t.takeWhile fun symbol => !symbol.isHalf := rfl
  simp only [firstHalves?, hbefore, List.length_cons, List.drop_succ_cons]
  cases (t.drop (t.takeWhile fun symbol => !symbol.isHalf).length).takeWhile Symbol.isHalf <;> rfl

/-- A wide text can be sent if no half stands in it. -/
theorem firstHalves?_eq_none_iff :
    firstHalves? t = none ↔ t.any Symbol.isHalf = false := by
  induction t with
  | nil => exact iff_of_true rfl rfl
  | cons symbol t ih =>
    cases symbol with
    | char c =>
      rw [firstHalves?_char, Option.map_eq_none_iff, ih]
      rfl
    | half index => exact iff_of_false (firstHalves?_half index t) (Bool.true_eq_false ▸ id)

end WideText

/-- The result holds halves of surrogate pairs in its labels or its report. -/
def DisplayResult.HoldsHalves (r : DisplayResult) : Prop :=
  (r.timeLabel ++ r.spaceLabel ++ r.report).any Symbol.isHalf = true

/-- The words around the labels hold no halves. -/
theorem DisplayResult.firstHalves?_summary_eq_none_iff (r : DisplayResult) :
    r.summary.firstHalves? = none ↔ ¬ r.HoldsHalves := by
  have hsame : r.summary.any Symbol.isHalf =
      (r.timeLabel ++ r.spaceLabel ++ r.report).any Symbol.isHalf := by
    simp only [summary, ComplexityGauge.summary, List.any_append, WideText.any_isHalf_ofText,
      Bool.false_or, Bool.or_false]
  rw [WideText.firstHalves?_eq_none_iff, hsame, HoldsHalves, Bool.not_eq_true]

namespace Service

open SizeLimit

variable {s : Settings} {now : Text} {c : Counters} {r : Request}

/-! ### Failures on a route -/

/-- The request sends back a result with halves in what is to be copied from it. -/
def SendsHalves (r : Request) : Prop :=
  r.method = "POST".toList ∧ Route.ofPath? r.path = some .exportText ∧
    ∃ result, Payload.read DisplayResult.shape r = .record result ∧ result.HoldsHalves

theorem exported_eq_error_iff {result : DisplayResult} :
    (∃ cause, exported c result = .error cause) ↔ result.HoldsHalves := by
  rw [← not_iff_not, ← DisplayResult.firstHalves?_summary_eq_none_iff]
  unfold exported
  cases result.summary.firstHalves? with
  | none => simp
  | some found => simp

/-- Only a record can lead to a failure. -/
theorem ofPayload_eq_error_iff {α : Type} {accepted : α → Except Failure Outcome}
    {reading : Payload.Reading α} :
    (∃ cause, ofPayload c r accepted reading = .error cause) ↔
      ∃ value, reading = .record value ∧ ∃ cause, accepted value = .error cause := by
  cases reading <;> simp [ofPayload]

theorem onRoute_eq_error_iff {route : Route} :
    (∃ cause, onRoute s c now r route = .error cause) ↔
      route = .exportText ∧
        ∃ result, Payload.read DisplayResult.shape r = .record result ∧ result.HoldsHalves := by
  cases route with
  | root | health | metrics | snippets | snippet => simp [onRoute]
  | analyze => simp [onRoute, ofPayload_eq_error_iff]
  | exportText => simp [onRoute, ofPayload_eq_error_iff, exported_eq_error_iff]

theorem routed_eq_error_iff :
    (∃ cause, routed s c now r = .error cause) ↔ SendsHalves r := by
  constructor
  · rintro ⟨cause, hrouted⟩
    unfold routed at hrouted
    split at hrouted
    · next route hroute =>
      split_ifs at hrouted with hmethod
      obtain ⟨rfl, hresult⟩ := onRoute_eq_error_iff.mp ⟨cause, hrouted⟩
      exact ⟨hmethod, hroute, hresult⟩
    · split at hrouted <;> exact nomatch hrouted
  · rintro ⟨hmethod, hroute, hresult⟩
    rw [routed_of_route hroute hmethod]
    exact onRoute_eq_error_iff.mpr ⟨rfl, hresult⟩

/-! ### Failures of requests -/

/-- The service cannot deal with the request: its size is declared with superscripts, or it passes
the size limit and sends back a result with halves. -/
def Fails (s : Settings) (r : Request) : Prop :=
  DeclaresSuperscripts r ∨ ¬ DeclaresAbove s.maxRequestSize r ∧ SendsHalves r

/-- A failure is answered to these requests and to no others. -/
theorem status_eq_500_iff (hfew : FewDigits r) :
    (answer s now c r).response.status = 500 ↔ Fails s r := by
  constructor
  · intro hstatus
    have hlayer := answer_answeredAt s now c r
    generalize answer s now c r = o at hlayer hstatus
    cases hlayer with
    | question asked =>
      rcases status_of_preflight? asked with h | h <;>
        exact absurd (h.symm.trans hstatus) (by decide)
    | sizeLimit large => exact absurd hstatus (show 413 ≠ 500 by decide)
    | route notAsked passed hrouted => exact absurd hstatus (routed_own hrouted).status_ne.2
    | failure notAsked fails =>
      rcases fails with hjudge | ⟨hpass, hrouted⟩
      · exact Or.inl ((judge_eq_failure_iff hfew).mp ⟨_, hjudge⟩)
      · refine Or.inr ⟨fun habove => ?_, routed_eq_error_iff.mp ⟨_, hrouted⟩⟩
        rw [judge_of_declaresAbove hfew habove] at hpass
        exact nomatch hpass
  · intro hfails
    -- The size is judged first, so a request with superscripts does not get to its route.
    by_cases hsuper : DeclaresSuperscripts r
    · obtain ⟨value, hjudge⟩ := judge_of_declaresSuperscripts hfew s.maxRequestSize hsuper
      rw [answer_of_failure hjudge]
      rfl
    · obtain ⟨habove, hhalves⟩ := hfails.resolve_left hsuper
      have hquestion : Cors.preflight? s.origins r = none :=
        preflight?_eq_none s.origins (by rw [hhalves.1]; decide)
      obtain ⟨cause, hrouted⟩ := routed_eq_error_iff.mpr hhalves
      rw [answer_of_pass hquestion (judge_eq_pass hfew habove hsuper), admitted, hrouted]
      rfl

/-- The counter of failures stays at zero for as long as no request comes that fails. -/
theorem failed_countersAfter_eq_zero_iff (requests : List Request)
    (hfew : ∀ r ∈ requests, FewDigits r) :
    (countersAfter s now {} requests).failed = 0 ↔ ∀ r ∈ requests, ¬ Fails s r := by
  simp only [countersAfter_eq, Nat.zero_add, List.countP_eq_zero]
  constructor
  · intro h r hr hfails
    obtain ⟨k, hk⟩ := List.mem_iff_getElem?.mp hr
    have hanswer : (answers s now {} requests)[k]? =
        some (r, answer s now (countersAfter s now {} (requests.take k)) r) := by
      rw [getElem?_answers, hk]
      rfl
    exact h _ (List.mem_of_getElem? hanswer)
      (decide_eq_true ((status_eq_500_iff (hfew r hr)).mpr hfails))
  · rintro h ⟨r, o⟩ hanswer hfailed
    obtain ⟨k, hk⟩ := List.mem_iff_getElem?.mp hanswer
    obtain ⟨hr, rfl⟩ := eq_of_getElem?_answers hk
    have hmem := List.mem_of_getElem? hr
    exact h r hmem ((status_eq_500_iff (hfew r hmem)).mp (of_decide_eq_true hfailed))

/-- The law for every sequence of requests to a service that has just started, whatever they are.
A size is not judged if it is declared with superscripts, a request fails for that or for halves in
a result that is sent back, and the counter of failures stays at zero for as long as none does. A
request that declares more than the limit is turned away, and any other one goes on to its route. -/
theorem run_failures (s : Settings) (now : Text) (requests : List Request)
    (hfew : ∀ r ∈ requests, FewDigits r) :
    (∀ (k : ℕ) (r : Request) (o : Outcome),
      (requests.zip (run s now {} requests))[k]? = some (r, o) →
        ((∃ cause, judge s.maxRequestSize r = .failure cause) ↔ DeclaresSuperscripts r) ∧
        (o.response.status = 500 ↔ Fails s r) ∧
        (r.method ∈ sendingMethods →
          (DeclaresAbove s.maxRequestSize r → o.response.status = 413) ∧
          (¬ DeclaresAbove s.maxRequestSize r → ¬ DeclaresSuperscripts r →
            o = admitted s now (countersAfter s now {} (requests.take k)) r))) ∧
    ((countersAfter s now {} requests).failed = 0 ↔ ∀ r ∈ requests, ¬ Fails s r) := by
  refine ⟨fun k r o ho => ?_, failed_countersAfter_eq_zero_iff requests hfew⟩
  obtain ⟨hr, rfl⟩ := eq_of_getElem?_answers ho
  have hshort := hfew r (List.mem_of_getElem? hr)
  refine ⟨judge_eq_failure_iff hshort, status_eq_500_iff hshort, fun hsends => ⟨?_, ?_⟩⟩
  · intro habove
    rw [answer_of_tooLarge (judge_of_declaresAbove hshort habove)]
    rfl
  · intro habove hsuper
    exact answer_of_pass (preflight?_of_sends s.origins hsends)
      (judge_eq_pass hshort habove hsuper)

theorem declaresSuperscripts_declaredLoop : DeclaresSuperscripts (declaredLoop ['\u00B2']) :=
  ⟨by decide, _, rfl, DeclaredSize.hasSuperscripts_singleton (by decide)⟩

theorem not_fails_declaredLoop {size : Text} (hsize : DeclaredSize.IsNumeral size) :
    ¬ Fails s (declaredLoop size) := by
  rintro (⟨-, value, hvalue, hsuper⟩ | ⟨-, -, hroute, -⟩)
  · obtain rfl : size = value := Option.some.inj hvalue
    exact hsize.not_hasSuperscripts hsuper
  · exact absurd hroute (show Route.ofPath? "/analyze".toList ≠ some .exportText by decide)

/-- A truthful size leaves the counter at zero, and a superscript moves it. -/
theorem run_superscript :
    let truthful := declaredLoop (ofNat 20)
    let unjudged := declaredLoop ['\u00B2']
    (countersAfter {} [] {} [truthful]).failed = 0 ∧
      (countersAfter {} [] {} [truthful, unjudged]).failed ≠ 0 ∧
      ∃ o, (run {} [] {} [truthful, unjudged])[1]? = some o ∧ o.response.status = 500 := by
  intro truthful unjudged
  have hfew : ∀ r ∈ [truthful, unjudged], FewDigits r := by
    simp only [List.forall_mem_cons]
    exact ⟨fewDigits_declaredLoop (by decide), fewDigits_declaredLoop (by decide), nofun⟩
  have htruthful := run_failures {} [] [truthful]
    fun r hr => hfew r (List.mem_of_mem_take (i := 1) hr)
  obtain ⟨hanswers, hcounter⟩ := run_failures {} [] [truthful, unjudged] hfew
  have hfails : Fails {} unjudged := Or.inl declaresSuperscripts_declaredLoop
  refine ⟨htruthful.2.mpr ?_, ?_, ?_⟩
  · intro r hr
    obtain rfl := List.mem_singleton.mp hr
    exact not_fails_declaredLoop (DeclaredSize.isNumeral_zeros_ofNat 0 20)
  · intro hzero
    exact hcounter.mp hzero unjudged (by simp) hfails
  · exact ⟨_, rfl, (hanswers 1 unjudged _ rfl).2.1.mpr hfails⟩

/-- Not every request whose size is declared in few characters is answered without a failure. -/
theorem not_forall_short_sizes_judged :
    ¬ ∀ (environment : Variables) (file : Option Text) (s : Settings),
      Settings.load environment file = .valid s →
      ∀ (now : Text) (c : Counters) (r : Request),
        (∀ value, r.header? "content-length".toList = some value → value.length ≤ 4300) →
        (answer s now c r).response.status ≠ 500 := by
  intro h
  have hloads : Settings.load [] none = .valid {} := rfl
  refine h [] none {} hloads [] {} (declaredLoop ['\u00B2']) ?_ (by decide)
  intro value hvalue
  obtain rfl : ['\u00B2'] = value := Option.some.inj hvalue
  decide

end Service

end ComplexityGauge
