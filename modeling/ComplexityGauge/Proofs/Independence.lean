import ComplexityGauge.Proofs.Resemblance

/-!
# Requests do not see each other

The counters are all that the service keeps from one request to the next, and only a request for
the counters is shown them. So an answer is the same whatever was asked before, up to the time that
some answers show, and a request for the counters finds in them what every earlier request has
added. What a request adds does not depend on the counters either, and sums do not depend on an
order. It follows that a sequence of requests may be reordered: each request keeps its answer, and
the counters end where they ended before.

Requests take place at different times, so a sequence holds the time of each request here.

## Main definitions

* `Outcome.seen` — what a client and the log see of an outcome
* `Service.runAt`, `Service.countersLeft` — sequences of requests at their times
* `Service.answerAfter` — the answer to a request after others

## Main results

* `Service.seen_answer` — one answer at two times and with two states of the counters
* `Service.counters_answer` — what one request adds to the counters
* `Service.runAt_independent` — sequences of requests
-/

namespace ComplexityGauge

/-- The response without the times in its body. -/
def Response.untimed (response : Response) : Response :=
  { response with body := response.body.untimed }

/-- What a client and the log see of an outcome, up to the time. -/
def Outcome.seen (o : Outcome) : Response × List LogEntry := (o.response.untimed, o.entries)

namespace Service

variable {s : Settings} {now now' : Text} {c c' : Counters} {r : Request} {o o' : Outcome}

/-! ### One request -/

theorem Alike.seen_eq (h : Alike r r o o') : o.seen = o'.seen := by
  have hresponse : o.response.untimed = o'.response.untimed := by
    rw [Response.untimed, Response.untimed, h.status, h.headers, h.body]
  have hentries : o.entries = o'.entries :=
    List.forall₂_eq_eq_eq ▸ h.entries.imp fun _ _ => SameEntry.eq
  exact Prod.ext hresponse hentries

/-- What is seen of an answer depends neither on the time nor on the counters, unless it is these
that are asked for. -/
theorem seen_answer (s : Settings) (now now' : Text) (c c' : Counters)
    (h : asksMetrics r = false) : (answer s now c r).seen = (answer s now' c' r).seen :=
  (alike_answer s now now' (SameCall.refl r) fun hasks => nomatch h.symm.trans hasks).seen_eq

/-! ### What a request adds to the counters -/

/-- Counters are added one by one. -/
instance : Add Counters where
  add c d :=
    { analysed := c.analysed + d.analysed
      failed := c.failed + d.failed
      refused := c.refused + d.refused }

theorem add_counters (c d : Counters) :
    c + d = { analysed := c.analysed + d.analysed
              failed := c.failed + d.failed
              refused := c.refused + d.refused } := rfl

theorem add_counters_right_comm (c d e : Counters) : c + d + e = c + e + d := by
  simp only [add_counters, Nat.add_right_comm]

/-- What a request adds to the counters: what it makes of counters at zero. -/
def added (s : Settings) (r : Request) : Counters := (answer s [] {} r).counters

/-- A request adds the same to any counters at any time. -/
theorem counters_answer (s : Settings) (now : Text) (c : Counters) (r : Request) :
    (answer s now c r).counters = c + added s r := by
  obtain ⟨hanalysed, hfailed, hrefused⟩ := counts_eq s now [] c {} (SameCall.refl r)
  have hhere := ((answer_answered s now c r).accounts (s := s)).counters
  have hzero := ((answer_answered s [] {} r).accounts (s := s)).counters
  rw [hhere, added, hzero, hanalysed, hfailed, hrefused]
  simp only [add_counters, Nat.zero_add]

/-! ### Sequences of requests -/

/-- The outcomes of requests one after the other, each at its time. -/
def runAt (s : Settings) : Counters → List (Text × Request) → List Outcome
  | _, [] => []
  | c, (now, r) :: rest =>
    let o := answer s now c r
    o :: runAt s o.counters rest

/-- The counters after requests at their times. -/
def countersLeft (s : Settings) : Counters → List (Text × Request) → Counters
  | c, [] => c
  | c, (now, r) :: rest => countersLeft s (answer s now c r).counters rest

/-- The answer to a request after others. -/
def answerAfter (s : Settings) (c : Counters) (earlier : List (Text × Request)) (now : Text)
    (r : Request) : Outcome :=
  answer s now (countersLeft s c earlier) r

/-- The answers to a sequence of requests as they are seen, each with its request. -/
def seenAnswers (s : Settings) (c : Counters) (requests : List (Text × Request)) :
    List (Request × Response × List LogEntry) :=
  (requests.map Prod.snd).zip ((runAt s c requests).map Outcome.seen)

/-- A run is one in which all requests take place at the same time. -/
theorem run_eq_runAt (s : Settings) (now : Text) (c : Counters) (requests : List Request) :
    run s now c requests = runAt s c (requests.map fun r => (now, r)) := by
  induction requests generalizing c with
  | nil => rfl
  | cons r rest ih => exact congrArg (answer s now c r :: ·) (ih _)

theorem countersAfter_eq_countersLeft (s : Settings) (now : Text) (c : Counters)
    (requests : List Request) :
    countersAfter s now c requests = countersLeft s c (requests.map fun r => (now, r)) := by
  induction requests generalizing c with
  | nil => rfl
  | cons r rest ih => exact ih _

/-- The last answer of a sequence is the answer after the others. -/
theorem runAt_concat (s : Settings) (c : Counters) (earlier : List (Text × Request)) (now : Text)
    (r : Request) :
    runAt s c (earlier ++ [(now, r)]) = runAt s c earlier ++ [answerAfter s c earlier now r] := by
  induction earlier generalizing c with
  | nil => rfl
  | cons first rest ih => exact congrArg (answer s first.1 c first.2 :: ·) (ih _)

theorem length_runAt (s : Settings) (c : Counters) (requests : List (Text × Request)) :
    (runAt s c requests).length = requests.length := by
  induction requests generalizing c with
  | nil => rfl
  | cons first rest ih => exact congrArg (· + 1) (ih _)

/-- The requests of a sequence add to the counters one by one. -/
theorem countersLeft_eq (s : Settings) (c : Counters) (requests : List (Text × Request)) :
    countersLeft s c requests =
      (requests.map Prod.snd).foldl (fun c r => c + added s r) c := by
  induction requests generalizing c with
  | nil => rfl
  | cons first rest ih =>
    rw [countersLeft, ih, counters_answer, List.map_cons, List.foldl_cons]

/-- Neither the order of the requests nor their times matter to the counters. -/
theorem countersLeft_of_perm {xs ys : List (Text × Request)}
    (h : (xs.map Prod.snd).Perm (ys.map Prod.snd)) :
    countersLeft s c xs = countersLeft s c ys := by
  rw [countersLeft_eq, countersLeft_eq]
  exact h.foldl_eq' (fun r _ r' _ c => add_counters_right_comm c (added s r) (added s r')) c

/-- Where nobody asks for the counters, each request is answered as if it were the only one. -/
theorem seen_runAt {requests : List (Text × Request)}
    (h : ∀ a ∈ requests, asksMetrics a.2 = false) :
    (runAt s c requests).map Outcome.seen = requests.map fun a => (answer s [] {} a.2).seen := by
  induction requests generalizing c with
  | nil => rfl
  | cons first rest ih =>
    rw [List.forall_mem_cons] at h
    have hfirst : (answer s first.1 c first.2).seen = (answer s [] {} first.2).seen :=
      seen_answer s first.1 [] c {} h.1
    rw [runAt, List.map_cons, List.map_cons, hfirst, ih h.2]

theorem seenAnswers_eq {requests : List (Text × Request)}
    (h : ∀ a ∈ requests, asksMetrics a.2 = false) :
    seenAnswers s c requests =
      (requests.map Prod.snd).map fun r => (r, (answer s [] {} r).seen) := by
  rw [seenAnswers, seen_runAt h, List.map_map, List.zip_map']
  rfl

/-- Where nobody asks for the counters, answers stay with their requests in another order. -/
theorem seenAnswers_perm {xs ys : List (Text × Request)}
    (hperm : (xs.map Prod.snd).Perm (ys.map Prod.snd))
    (h : ∀ a ∈ xs, asksMetrics a.2 = false) :
    (seenAnswers s c xs).Perm (seenAnswers s c ys) := by
  have h' : ∀ a ∈ ys, asksMetrics a.2 = false := by
    intro a ha
    obtain ⟨b, hb, hba⟩ := List.mem_map.mp (hperm.mem_iff.mpr (List.mem_map_of_mem ha))
    rw [← hba]
    exact h b hb
  rw [seenAnswers_eq h, seenAnswers_eq h']
  exact hperm.map _

/-- Requests are independent of those before them. What is seen of an answer is the same after any
other requests, unless the counters are asked for. An answer to that shows the counters and differs
in nothing else, and the counters do not depend on the order of the requests. So requests in
another order, none of them for the counters, have the same answers and leave the same counters. -/
theorem runAt_independent (s : Settings) (c : Counters) :
    (∀ (xs ys : List (Text × Request)) (now now' : Text) (q : Request), asksMetrics q = false →
      (answerAfter s c xs now q).seen = (answerAfter s c ys now' q).seen) ∧
    (∀ (xs ys : List (Text × Request)) (now now' : Text) (q : Request), asksMetrics q = true →
      let o := answerAfter s c xs now q
      let o' := answerAfter s c ys now' q
      o.response.status = o'.response.status ∧ o.response.headers = o'.response.headers ∧
        o.entries = o'.entries ∧
        o.response.body = .json (metrics (countersLeft s c xs) now) ∧
        o'.response.body = .json (metrics (countersLeft s c ys) now')) ∧
    (∀ xs ys : List (Text × Request), (xs.map Prod.snd).Perm (ys.map Prod.snd) →
      countersLeft s c xs = countersLeft s c ys ∧
      ((∀ a ∈ xs, asksMetrics a.2 = false) →
        (runAt s c xs).length = xs.length ∧ (runAt s c ys).length = ys.length ∧
          (seenAnswers s c xs).Perm (seenAnswers s c ys))) := by
  refine ⟨?other, ?metrics, ?order⟩
  case other =>
    intro xs ys now now' q h
    exact seen_answer s now now' _ _ h
  case metrics =>
    intro xs ys now now' q h
    simp only [answerAfter, answer_of_asksMetrics h]
    exact ⟨rfl, rfl, rfl, rfl, rfl⟩
  case order =>
    intro xs ys hperm
    exact ⟨countersLeft_of_perm hperm, fun h =>
      ⟨length_runAt s c xs, length_runAt s c ys, seenAnswers_perm hperm h⟩⟩

/-- A request for the state of the service. -/
def healthQuery : Request where
  method := "GET".toList
  host := "test".toList
  path := "/health".toList

/-- A request that is refused goes unnoticed by the next one, unless that is for the counters. -/
theorem runAt_emptyPost_healthQuery :
    (answerAfter {} {} [([], emptyPost)] ['1'] healthQuery).seen =
        (answerAfter {} {} [] ['2'] healthQuery).seen ∧
      (answerAfter {} {} [([], emptyPost)] ['1'] metricsQuery).response.body =
        .json (metrics { refused := 1 } ['1']) ∧
      (seenAnswers {} {} [(['1'], emptyPost), (['2'], healthQuery)]).Perm
        (seenAnswers {} {} [(['1'], healthQuery), (['2'], emptyPost)]) := by
  obtain ⟨hother, hmetrics, horder⟩ := runAt_independent {} {}
  refine ⟨hother _ _ _ _ _ (by decide), ?_, ?_⟩
  · exact (hmetrics [([], emptyPost)] [] ['1'] ['2'] metricsQuery (by decide)).2.2.2.1
  · have hswapped : ([(['1'], emptyPost), (['2'], healthQuery)].map Prod.snd).Perm
        ([(['1'], healthQuery), (['2'], emptyPost)].map Prod.snd) := List.Perm.swap _ _ _
    exact ((horder _ _ hswapped).2 (by decide)).2.2

end Service

end ComplexityGauge
