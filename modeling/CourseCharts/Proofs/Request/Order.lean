/-
  CourseCharts — which responses reach a chart.

  A host makes requests through a `Loader` and hands in the responses in any
  order, any number of times, mixed with requests that it waits for.

  * `Operation` is what the host does, `Session.after` the loader and its
    target after some operations;
  * `history` are the requests and arrivals in these operations, and `accepted`
    the arrivals that were `Fresh`: the first ones to the latest request;
  * `latest_response_presented`: the target is handed exactly the accepted
    responses, in ascending order of their requests.
-/
import CourseCharts.Proofs.Request.Sequencer
import CourseCharts.Request.Loader

namespace CourseCharts.Request

variable {ρ σ q : Type}

/-! ## What happens to a loader -/

/-- What a host does with a loader. -/
inductive Operation (ρ q : Type) where
  /-- Makes a request. -/
  | begin
  /-- Hands in a response to a request. -/
  | complete (t : Token) (query : q) (response : Json.Value)
  /-- Asks a source and waits for the response. -/
  | load (query : q) (source : ρ)

/-- A loader with the chart it loads. -/
structure Session (σ : Type) where
  loader : Loader
  target : σ

/-- The session after an operation. -/
def Operation.perform [Query q] [Target σ q] [Source ρ] (s : Session σ) :
    Operation ρ q → Session σ
  | .begin => { s with loader := s.loader.begin.2 }
  | .complete t query response =>
    let (_, loader, target) := s.loader.complete t query response s.target
    { loader, target }
  | .load query source =>
    let (_, loader, _, target) := s.loader.load query source s.target
    { loader, target }

/-- The session of a new loader after some operations. -/
def Session.after [Query q] [Target σ q] [Source ρ] (target : σ) (ops : List (Operation ρ q)) :
    Session σ :=
  ops.foldl Operation.perform ⟨.initial, target⟩

/-- A response to a request. -/
structure Arrival (q : Type) where
  token : Token
  query : q
  response : Json.Value

/-- What passes between a loader and its sources. -/
inductive Event (q : Type) where
  | request
  | arrival (a : Arrival q)

/-- The number of requests. -/
def requests (es : List (Event q)) : Nat :=
  es.countP fun | .request => true | .arrival _ => false

/-- The responses, whether they were shown or not. -/
def arrivals (es : List (Event q)) : List (Arrival q) :=
  es.filterMap fun | .request => none | .arrival a => some a

/-- The events of an operation after `n` requests. -/
def Operation.events [Query q] [Source ρ] (n : Nat) : Operation ρ q → List (Event q)
  | .begin => [.request]
  | .complete t query response => [.arrival ⟨t, query, response⟩]
  | .load query source =>
    match Source.fetch (Query.endpoint query) (Query.parameters query) source with
    | (.error _, _) => [.request]
    | (.ok response, _) => [.request, .arrival ⟨⟨n + 1⟩, query, response⟩]

/-- The events of some operations. -/
def history [Query q] [Source ρ] (ops : List (Operation ρ q)) : List (Event q) :=
  ops.foldl (fun es op => es ++ op.events (requests es)) []

/-- The host only hands in responses to requests it has made, of which there
    were `n` before. -/
def LegalAfter (n : Nat) : List (Operation ρ q) → Prop
  | [] => True
  | .begin :: ops | .load _ _ :: ops => LegalAfter (n + 1) ops
  | .complete t _ _ :: ops => 0 < t.number ∧ t.number ≤ n ∧ LegalAfter n ops

/-- The host of a new loader only hands in responses to requests it has made. -/
def Legal (ops : List (Operation ρ q)) : Prop := LegalAfter 0 ops

/-- The response is to the latest request, and no other one to it came before. -/
def Fresh (past : List (Event q)) (t : Token) : Prop :=
  t.number = requests past ∧ ∀ a ∈ arrivals past, a.token ≠ t

instance (past : List (Event q)) (t : Token) : Decidable (Fresh past t) :=
  inferInstanceAs (Decidable (_ ∧ _))

/-- The responses of `es` that are fresh when they arrive, after the events
    `past`. -/
def acceptedAfter (past : List (Event q)) : List (Event q) → List (Arrival q)
  | [] => []
  | .request :: es => acceptedAfter (past ++ [.request]) es
  | .arrival a :: es =>
    if Fresh past a.token then a :: acceptedAfter (past ++ [.arrival a]) es
    else acceptedAfter (past ++ [.arrival a]) es

/-- The responses that were fresh when they arrived. -/
def accepted (es : List (Event q)) : List (Arrival q) := acceptedAfter [] es

/-! ## Histories -/

section
variable (es : List (Event q)) (a : Arrival q)

@[simp] theorem requests_nil : requests ([] : List (Event q)) = 0 := rfl

@[simp] theorem requests_request : requests (es ++ [.request]) = requests es + 1 := by
  simp [requests]

@[simp] theorem requests_arrival : requests (es ++ [.arrival a]) = requests es := by
  simp [requests]

@[simp] theorem arrivals_nil : arrivals ([] : List (Event q)) = [] := rfl

@[simp] theorem arrivals_request : arrivals (es ++ [.request]) = arrivals es := by
  simp [arrivals]

@[simp] theorem arrivals_arrival : arrivals (es ++ [.arrival a]) = arrivals es ++ [a] := by
  simp [arrivals]

theorem acceptedAfter_append (past fs : List (Event q)) :
    acceptedAfter past (es ++ fs) = acceptedAfter past es ++ acceptedAfter (past ++ es) fs := by
  induction es generalizing past with
  | nil => simp [acceptedAfter]
  | cons e es ih =>
    cases e with
    | request => simp [acceptedAfter, ih]
    | arrival a =>
      by_cases h : Fresh past a.token <;> simp [acceptedAfter, ih, h]

@[simp] theorem accepted_nil : accepted ([] : List (Event q)) = [] := rfl

@[simp] theorem accepted_request : accepted (es ++ [.request]) = accepted es := by
  simp [accepted, acceptedAfter_append, acceptedAfter]

@[simp] theorem accepted_arrival : accepted (es ++ [.arrival a]) =
    accepted es ++ if Fresh es a.token then [a] else [] := by
  by_cases h : Fresh es a.token <;> simp [accepted, acceptedAfter_append, acceptedAfter, h]

end

/-- Every response is to an earlier request. -/
inductive Orderly : List (Event q) → Prop
  | nil : Orderly []
  | request {es : List (Event q)} : Orderly es → Orderly (es ++ [.request])
  | arrival {es : List (Event q)} {a : Arrival q} : Orderly es → 0 < a.token.number →
      a.token.number ≤ requests es → Orderly (es ++ [.arrival a])

namespace Orderly

theorem number_le {es : List (Event q)} (h : Orderly es) :
    ∀ a ∈ arrivals es, a.token.number ≤ requests es := by
  induction h with
  | nil => simp
  | request _ ih => intro a ha; have := ih a (by simpa using ha); simp; omega
  | @arrival es b _ _ hb ih =>
    intro a ha
    rw [requests_arrival]
    rw [arrivals_arrival, List.mem_append, List.mem_singleton] at ha
    rcases ha with ha | rfl
    · exact ih a ha
    · exact hb

end Orderly

theorem accepted_subset (es : List (Event q)) : ∀ a ∈ accepted es, a ∈ arrivals es := by
  induction es using List.reverseRecOn with
  | nil => simp
  | append_singleton es e ih =>
    intro a ha
    cases e with
    | request => simpa using ih a (by simpa using ha)
    | arrival b =>
      rw [accepted_arrival, List.mem_append] at ha
      rw [arrivals_arrival, List.mem_append]
      rcases ha with ha | ha
      · exact Or.inl (ih a ha)
      · split_ifs at ha
        · exact Or.inr ha
        · cases ha

/-- Responses are accepted in the order of their requests, and at most one to
    each request. -/
theorem accepted_ascending {es : List (Event q)} (h : Orderly es) :
    (accepted es).Pairwise fun a b => a.token.number < b.token.number := by
  induction h with
  | nil => simp
  | request _ ih => simpa using ih
  | @arrival es b hes _ _ ih =>
    rw [accepted_arrival]
    split_ifs with hb
    · refine List.pairwise_append.2 ⟨ih, List.pairwise_singleton _ _, ?_⟩
      intro a ha c hc
      obtain rfl := List.mem_singleton.1 hc
      have hle := hes.number_le a (accepted_subset es a ha)
      have hne : a.token.number ≠ c.token.number := fun he =>
        hb.2 a (accepted_subset es a ha) (Token.eq_of_number he)
      have := hb.1
      omega
    · simpa using ih

/-- Once a response to the latest request has arrived, the first of them is the
    last accepted one. -/
theorem accepted_getLast? {es : List (Event q)} (h : Orderly es) {t : Token}
    (ht : t.number = requests es) {a : Arrival q}
    (ha : (arrivals es).find? (·.token = t) = some a) : (accepted es).getLast? = some a := by
  induction h with
  | nil => simp at ha
  | @request es hes _ =>
    rw [arrivals_request] at ha
    have hle := hes.number_le a (List.mem_of_find?_eq_some ha)
    have hat : a.token = t := by simpa using List.find?_some ha
    rw [hat, ht, requests_request] at hle
    omega
  | @arrival es b _ _ _ ih =>
    rw [requests_arrival] at ht
    rw [arrivals_arrival, List.find?_append] at ha
    rw [accepted_arrival]
    by_cases hb : Fresh es b.token
    · -- no earlier response is to the latest request
      have hbt : b.token = t := Token.eq_of_number (hb.1.trans ht.symm)
      have hnone : (arrivals es).find? (·.token = t) = none :=
        List.find?_eq_none.2 fun c hc he => hb.2 c hc ((of_decide_eq_true he).trans hbt.symm)
      rw [hnone, List.find?_singleton, if_pos (decide_eq_true hbt), Option.none_or] at ha
      rw [if_pos hb, List.getLast?_concat, ha]
    · rw [if_neg hb, List.append_nil]
      apply ih ht
      cases hf : (arrivals es).find? (·.token = t) with
      | some c => rw [hf] at ha; simpa using ha
      | none =>
        -- otherwise `b` is the first response to the latest request
        exfalso
        rw [hf, Option.none_or, List.find?_singleton] at ha
        split_ifs at ha with hbt
        have hbt : b.token = t := of_decide_eq_true hbt
        refine hb ⟨hbt ▸ ht, fun c hc he => ?_⟩
        exact List.find?_eq_none.1 hf c hc (decide_eq_true (he.trans hbt))

/-! ## The sequencer -/

/-- The sequencer knows the number of the requests, and whether the latest one
    has a response. -/
structure Tracks (es : List (Event q)) (l : Loader) : Prop where
  issued : l.sequencer.issued = requests es
  completed_le : ∀ n, l.sequencer.completed = some n → n ≤ requests es
  completed_iff : 0 < requests es →
    (l.sequencer.completed = some (requests es) ↔
      ∃ a ∈ arrivals es, a.token.number = requests es)

theorem Tracks.initial : Tracks ([] : List (Event q)) .initial where
  issued := rfl
  completed_le n h := by cases h
  completed_iff h := absurd h (Nat.lt_irrefl 0)

theorem Tracks.request {es : List (Event q)} {l : Loader} (hes : Orderly es) (h : Tracks es l) :
    Tracks (es ++ [.request]) l.begin.2 where
  issued := by simp [Loader.begin, Sequencer.issue, h.issued]
  completed_le n hn := by
    have := h.completed_le n hn
    rw [requests_request]; omega
  completed_iff _ := by
    rw [requests_request, arrivals_request]
    constructor
    · intro hc
      have := h.completed_le _ hc
      omega
    · rintro ⟨a, ha, hn⟩
      have := hes.number_le a ha
      omega

theorem Tracks.latest {es : List (Event q)} {l : Loader} (h : Tracks es l) {t : Token}
    (ht : l.latest = some t) : t.number = requests es := by
  rw [Loader.latest, Sequencer.latest] at ht
  split_ifs at ht
  cases ht
  exact h.issued

/-- The sequencer accepts a response if and only if it is fresh. -/
theorem Tracks.accepts_iff {es : List (Event q)} {l : Loader} (h : Tracks es l) {t : Token}
    (ht : 0 < t.number) :
    (l.sequencer.isCurrent t && l.sequencer.completed != some t.number) = true ↔
      Fresh es t := by
  rw [Bool.and_eq_true, Sequencer.isCurrent, beq_iff_eq, bne_iff_ne, h.issued]
  refine and_congr_right fun hn => ?_
  rw [hn, Ne, h.completed_iff (hn ▸ ht), not_exists]
  refine forall_congr' fun a => ?_
  rw [not_and]
  refine imp_congr_right fun _ => not_congr ?_
  exact ⟨fun he => Token.eq_of_number (he.trans hn.symm), fun he => he ▸ hn⟩

section
variable [Target σ q]

theorem Tracks.complete_fresh {es : List (Event q)} {l : Loader} (h : Tracks es l) {t : Token}
    (ht : 0 < t.number) (hf : Fresh es t) (query : q) (response : Json.Value) (target : σ) :
    l.complete t query response target =
      ((Target.present query response target).1.map fun _ => .drawn,
        ⟨{ l.sequencer with completed := some t.number }⟩,
        (Target.present query response target).2) := by
  rw [Loader.complete, Sequencer.complete, if_pos ((h.accepts_iff ht).2 hf)]

theorem Tracks.complete_stale {es : List (Event q)} {l : Loader} (h : Tracks es l) {t : Token}
    (ht : 0 < t.number) (hf : ¬ Fresh es t) (query : q) (response : Json.Value) (target : σ) :
    l.complete t query response target = (.ok .stale, l, target) := by
  rw [Loader.complete, Sequencer.complete, if_neg (mt (h.accepts_iff ht).1 hf)]

theorem Tracks.arrival {es : List (Event q)} {l : Loader} (h : Tracks es l) (a : Arrival q)
    (ha : 0 < a.token.number) (target : σ) :
    Tracks (es ++ [.arrival a]) (l.complete a.token a.query a.response target).2.1 := by
  by_cases hf : Fresh es a.token
  · rw [h.complete_fresh ha hf]
    refine ⟨by simpa using h.issued, fun n hn => ?_, fun _ => ?_⟩
    · cases hn
      rw [requests_arrival]; exact Nat.le_of_eq hf.1
    · rw [requests_arrival, arrivals_arrival]
      exact ⟨fun _ => ⟨a, by simp, hf.1⟩, fun _ => congrArg some hf.1⟩
  · rw [h.complete_stale ha hf]
    refine ⟨by simpa using h.issued, by simpa using h.completed_le, fun hpos => ?_⟩
    rw [requests_arrival] at hpos
    rw [requests_arrival, arrivals_arrival, h.completed_iff hpos]
    constructor
    · rintro ⟨b, hb, hn⟩
      exact ⟨b, by simp [hb], hn⟩
    · rintro ⟨b, hb, hn⟩
      rcases List.mem_append.1 hb with hb | hb
      · exact ⟨b, hb, hn⟩
      · -- a response to the latest request that is not the first one
        obtain rfl := List.mem_singleton.1 hb
        by_contra hnone
        refine hf ⟨hn, fun c hc he => hnone ⟨c, hc, ?_⟩⟩
        rw [he, hn]

/-! ## Sessions -/

/-- The session after an event. -/
def Session.handle (s : Session σ) : Event q → Session σ
  | .request => { s with loader := s.loader.begin.2 }
  | .arrival a =>
    let (_, loader, target) := s.loader.complete a.token a.query a.response s.target
    { loader, target }

/-- The session of a new loader after some events. -/
def Session.replay (target : σ) (es : List (Event q)) : Session σ :=
  es.foldl Session.handle ⟨.initial, target⟩

/-- What a target becomes when it is handed some responses one by one. -/
def presented (target : σ) (as : List (Arrival q)) : σ :=
  as.foldl (fun target a => (Target.present a.query a.response target).2) target

theorem Session.replay_append (target : σ) (es : List (Event q)) (e : Event q) :
    replay target (es ++ [e]) = (replay target es).handle e := by
  simp [replay]

/-- The target is handed the accepted responses, one by one. -/
theorem Session.replay_spec {es : List (Event q)} (h : Orderly es) (target : σ) :
    Tracks es (replay target es).loader ∧
      (replay target es).target = presented target (accepted es) := by
  induction h with
  | nil => exact ⟨.initial, rfl⟩
  | request hes ih =>
    rw [replay_append, accepted_request]
    exact ⟨ih.1.request hes, ih.2⟩
  | @arrival es a _ ha _ ih =>
    rw [replay_append, accepted_arrival]
    refine ⟨ih.1.arrival a ha _, ?_⟩
    by_cases hf : Fresh es a.token
    · simp [handle, ih.1.complete_fresh ha hf, presented, hf, ih.2]
    · simp [handle, ih.1.complete_stale ha hf, hf, ih.2]

theorem Session.issued_replay (target : σ) (es : List (Event q)) :
    (replay target es).loader.sequencer.issued = requests es := by
  induction es using List.reverseRecOn with
  | nil => rfl
  | append_singleton es e ih =>
    rw [replay_append]
    cases e with
    | request => simp [handle, Loader.begin, Sequencer.issue, ih]
    | arrival a =>
      rw [requests_arrival, ← ih]
      simp only [handle, Loader.complete, Sequencer.complete]
      split <;> rename_i hc <;> split_ifs at hc <;> cases hc <;> rfl

variable [Query q] [Source ρ]

/-- An operation is its events. -/
theorem Operation.perform_eq (s : Session σ) (op : Operation ρ q) :
    op.perform s = (op.events s.loader.sequencer.issued).foldl Session.handle s := by
  cases op with
  | begin | complete => rfl
  | load query source =>
    rcases hf : Source.fetch (Query.endpoint query) (Query.parameters query) source with
      ⟨result, source'⟩
    cases result with
    | error e =>
      simp only [perform, events, Loader.load, hf]
      rfl
    | ok response =>
      simp only [perform, events, Loader.load, hf]
      rfl

theorem history_append (ops : List (Operation ρ q)) (op : Operation ρ q) :
    history (ops ++ [op]) = history ops ++ op.events (requests (history ops)) := by
  simp [history]

/-- Some operations are their events. -/
theorem Session.after_eq (target : σ) (ops : List (Operation ρ q)) :
    after target ops = replay target (history ops) := by
  induction ops using List.reverseRecOn with
  | nil => rfl
  | append_singleton ops op ih =>
    have hstep : after target (ops ++ [op]) = op.perform (after target ops) := by
      simp [after]
    rw [hstep, ih, Operation.perform_eq, issued_replay, history_append]
    simp [replay]

end

section
variable [Query q] [Source ρ]

theorem LegalAfter.orderly {past : List (Event q)} {ops : List (Operation ρ q)}
    (hpast : Orderly past) (h : LegalAfter (requests past) ops) :
    Orderly (ops.foldl (fun es op => es ++ op.events (requests es)) past) := by
  induction ops generalizing past with
  | nil => exact hpast
  | cons op ops ih =>
    rw [List.foldl_cons]
    cases op with
    | begin => exact ih hpast.request (by rw [Operation.events, requests_request]; exact h)
    | complete t query response =>
      obtain ⟨hpos, hle, h⟩ := h
      exact ih (hpast.arrival hpos hle) (by rw [Operation.events, requests_arrival]; exact h)
    | load query source =>
      simp only [Operation.events]
      split
      · exact ih hpast.request (by rw [requests_request]; exact h)
      · rw [List.append_cons]
        refine ih (hpast.request.arrival (Nat.succ_pos _) (by simp)) ?_
        rw [requests_arrival, requests_request]
        exact h

theorem Legal.orderly {ops : List (Operation ρ q)} (h : Legal ops) : Orderly (history ops) :=
  LegalAfter.orderly .nil h

end

/-! ## Targets that record what they are handed -/

/-- A target with the responses it was handed. -/
structure Recorded (σ q : Type) where
  target : σ
  calls : List (q × Json.Value)

instance [Target σ q] : Target (Recorded σ q) q where
  present query response r :=
    let (result, target) := Target.present query response r.target
    (result, { target, calls := r.calls ++ [(query, response)] })

theorem presented_calls [Target σ q] (r : Recorded σ q) (as : List (Arrival q)) :
    (presented r as).calls = r.calls ++ as.map fun a => (a.query, a.response) := by
  induction as generalizing r with
  | nil => simp [presented]
  | cons a as ih =>
    have := ih (Target.present a.query a.response r).2
    simp only [presented, List.foldl_cons] at this ⊢
    rw [this]
    simp [Target.present]

/-! ## Any operations in any order -/

section
variable [Query q] [Source ρ] [Target σ q]

theorem Session.after_spec {ops : List (Operation ρ q)} (h : Legal ops) (target : σ) :
    Tracks (history ops) (after target ops).loader ∧
      (after target ops).target = presented target (accepted (history ops)) := by
  rw [after_eq]
  exact replay_spec h.orderly target

/-- A request whose source fails is still the latest one. -/
theorem Tracks.load_failed {es : List (Event q)} {l : Loader} (hes : Orderly es)
    (h : Tracks es l) {query : q} {source source' : ρ} {e : ChartError}
    (hf : Source.fetch (Query.endpoint query) (Query.parameters query) source =
      (.error e, source')) (target : σ) :
    l.load query source target = (.error e, l.begin.2, source', target) ∧
      ∀ t (query : q) response, 0 < t.number → t.number ≤ requests es →
        l.begin.2.complete t query response target = (.ok .stale, l.begin.2, target) := by
  refine ⟨by simp only [Loader.load, hf], fun t query response hpos hle => ?_⟩
  refine (h.request hes).complete_stale hpos (fun hfresh => ?_) query response target
  have := hfresh.1
  rw [requests_request] at this
  omega

/-- The response of a source is to the latest request, and the first one to
    it. -/
theorem Tracks.load_answered {es : List (Event q)} {l : Loader} (hes : Orderly es)
    (h : Tracks es l) {query : q} {source source' : ρ} {response : Json.Value}
    (hf : Source.fetch (Query.endpoint query) (Query.parameters query) source =
      (.ok response, source')) (target : σ) :
    ∃ l', l.load query source target =
      ((Target.present query response target).1.map fun _ => .drawn, l', source',
        (Target.present query response target).2) := by
  have hnum : l.begin.1.number = requests (es ++ [.request]) := by
    simp [Loader.begin, Sequencer.issue, h.issued]
  have hpos : 0 < l.begin.1.number := by rw [hnum, requests_request]; omega
  have hfresh : Fresh (es ++ [.request]) l.begin.1 := by
    refine ⟨hnum, fun a ha he => ?_⟩
    rw [arrivals_request] at ha
    have := hes.number_le a ha
    rw [he, hnum, requests_request] at this
    omega
  have hc := (h.request hes).complete_fresh hpos hfresh query response target
  refine ⟨(l.begin.2.complete l.begin.1 query response target).2.1, ?_⟩
  simp only [Loader.load, hf, hc]

/-- **Only the latest request is shown.**  After any operations of a host that
    only completes requests it has made,

    * the target has been handed exactly the responses that were accepted, each
      as it arrived, in ascending order of their requests;
    * a response is handed to the target if it is fresh, whatever the target
      makes of it, and changes nothing otherwise;
    * a request that fails does not reach the target, but makes the requests
      before it stale, and one that is answered reaches it;
    * if a response to the latest request has arrived, then the first of them
      was the last one the target was handed. -/
theorem latest_response_presented (target : σ) (ops : List (Operation ρ q)) (h : Legal ops) :
    let s := Session.after target ops
    let past := history ops
    s.target = presented target (accepted past) ∧
    (Session.after (⟨target, []⟩ : Recorded σ q) ops).target.calls =
      (accepted past).map (fun a => (a.query, a.response)) ∧
    (accepted past).Pairwise (fun a b => a.token.number < b.token.number) ∧
    s.loader.begin.1.number = requests past + 1 ∧
    (∀ t (query : q) response, 0 < t.number → t.number ≤ requests past →
      (Fresh past t →
        (s.loader.complete t query response s.target).1 =
          (Target.present query response s.target).1.map (fun _ => .drawn) ∧
        (s.loader.complete t query response s.target).2.2 =
          (Target.present query response s.target).2) ∧
      (¬ Fresh past t →
        s.loader.complete t query response s.target = (.ok .stale, s.loader, s.target))) ∧
    (∀ (query : q) (source source' : ρ) e,
      Source.fetch (Query.endpoint query) (Query.parameters query) source =
        (.error e, source') →
      s.loader.load query source s.target = (.error e, s.loader.begin.2, source', s.target) ∧
      ∀ t (query : q) response, 0 < t.number → t.number ≤ requests past →
        s.loader.begin.2.complete t query response s.target =
          (.ok .stale, s.loader.begin.2, s.target)) ∧
    (∀ (query : q) (source source' : ρ) response,
      Source.fetch (Query.endpoint query) (Query.parameters query) source =
        (.ok response, source') →
      ∃ l, s.loader.load query source s.target =
        ((Target.present query response s.target).1.map (fun _ => .drawn), l, source',
          (Target.present query response s.target).2)) ∧
    (∀ t a, s.loader.latest = some t → (arrivals past).find? (·.token = t) = some a →
      (accepted past).getLast? = some a) := by
  intro s past
  have hes : Orderly past := h.orderly
  obtain ⟨htracks, htarget⟩ := Session.after_spec h target
  obtain ⟨-, hcalls⟩ := Session.after_spec h (⟨target, []⟩ : Recorded σ q)
  refine ⟨htarget, ?_, accepted_ascending hes, ?_, fun t query response hpos _ => ⟨?_, ?_⟩,
    ?_, ?_, ?_⟩
  · rw [hcalls, presented_calls, List.nil_append]
  · simp [Loader.begin, Sequencer.issue, htracks.issued, past, s]
  · intro hf
    rw [htracks.complete_fresh hpos hf]
    exact ⟨rfl, rfl⟩
  · intro hf
    exact htracks.complete_stale hpos hf query response _
  · intro query source source' e hf
    exact htracks.load_failed hes hf _
  · intro query source source' response hf
    exact htracks.load_answered hes hf _
  · intro t a ht ha
    exact accepted_getLast? hes (htracks.latest ht) ha

end

/-- A source that answers every request in the same way. -/
structure ConstantSource where
  answer : Except ChartError Json.Value

instance : Source ConstantSource where
  fetch _ _ source := (source.answer, source)

/-- Two requests, the responses to both in the wrong order, a request that
    fails, and the response to the second one again: the chart is handed the
    response to the second request, once. -/
theorem latest_response_presented_once :
    let chart : Overview.Chart Float (HeadlessSurface Float) :=
      ⟨.initial, .standard, .standard, [], .project, none, [], none⟩
    let query : OverviewQuery := ⟨.user⟩
    let ops : List (Operation ConstantSource OverviewQuery) :=
      [.begin, .begin, .complete ⟨2⟩ query (.string "second"),
        .complete ⟨1⟩ query (.string "first"), .load query ⟨.error (.fetchFailed "timeout")⟩,
        .complete ⟨2⟩ query (.string "second again")]
    Legal ops ∧
    (Session.after (⟨chart, []⟩ : Recorded _ OverviewQuery) ops).target.calls =
      [(query, .string "second")] := by
  intro chart query ops
  have hlegal : Legal ops := by simp [ops, Legal, LegalAfter]
  exact ⟨hlegal, (latest_response_presented chart ops hlegal).2.1⟩

end CourseCharts.Request
