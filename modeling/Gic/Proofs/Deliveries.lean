import Gic.Proofs.BoardRun

/-!
# Deliveries of requests

Whoever receives takes requests out of the queue until none is left, and hands
each of them to all who have subscribed. The handlers act on whatever they like,
and the requests that they queue meanwhile are handed out by the same delivery.
So what is handed out is not known when the delivery begins, and the delivery
need not come to an end.

## The model

* `PlumbingAction`, `Exchange.afterAll` — what is done to the queues by those who
  subscribe, queue, publish, receive and drain, and a run of it.
* `Plumbing.Subscribed` — the handler that a device has subscribed last.
* `Call`, `Handling.recorded` — a call of a handler, and the handlers with a record of
  their calls.
* `Round`, `Course` — one round of a delivery with the calls that are made in it,
  and rounds that follow one another as the queue has it.
* `Plumbing.Delivers` — what a delivery of a bounded number of rounds does.
* `Exchange.HandsOut` — who is handed what by the deliveries after a run.

## What is proved

* `Delivery.value_round_recorded` — a round takes the oldest request out and calls
  every subscriber with it once, in order; what the handlers queue comes last.
* `Delivery.runs_rounds` — so a delivery is a course of rounds, which stops when no
  request is left or its bound is reached.
* `Delivery.rounds_forget` — the record of the calls does not act back on it.
* `Plumbing.delivers` — what this says of the calls, of the requests that were handed
  out and of those that are left.
* `Exchange.handsOut_run` — the same after any run, with what has fitted the queue.
-/

namespace Gic

variable {τ σ : Type}

/-- Something that is done to the plumbing. -/
inductive PlumbingAction (τ : Type) where
  /-- A device subscribes a handler. -/
  | subscribe (device : Nat) (handler : τ)
  /-- A change of an input is queued. -/
  | queue (request : Request)
  /-- A change of an output line is published. -/
  | publish (change : LineChange)
  /-- The queued changes of inputs are received, in so many rounds at most. -/
  | receive (rounds : Nat)
  /-- The changes of output lines are drained. -/
  | drain

namespace PlumbingAction

/-- The request that is queued. -/
def queued? : PlumbingAction τ → Option Request
  | .queue r => some r
  | _ => none

/-- The handler that a device subscribes. -/
def handler? (device : Nat) : PlumbingAction τ → Option τ
  | .subscribe subscriber handler => if subscriber = device then some handler else none
  | _ => none

end PlumbingAction

/-- The plumbing, together with what the handlers act on. -/
structure Exchange (τ σ : Type) where
  /-- The queues. -/
  plumbing : Plumbing τ
  /-- What the handlers act on. -/
  state : σ

namespace Exchange

/-- Does something to the plumbing. -/
def step (x : Exchange τ σ) (handling : Handling τ σ) :
    PlumbingAction τ → Traced Note (Exchange τ σ)
  | .subscribe device handler => do
    let plumbing ← x.plumbing.subscribe device handler
    return { x with plumbing }
  | .queue request => do
    let plumbing ← x.plumbing.request request
    return { x with plumbing }
  | .publish change => do
    let plumbing ← x.plumbing.publish change
    return { x with plumbing }
  | .receive rounds => do
    let d ← x.plumbing.receive handling x.state rounds
    return ⟨d.plumbing, d.state⟩
  | .drain => pure { x with plumbing := x.plumbing.clearChanges }

/-- The plumbing after something was done to it. -/
def after (handling : Handling τ σ) (x : Exchange τ σ) (a : PlumbingAction τ) : Exchange τ σ :=
  (x.step handling a).value

/-- The plumbing after a run of actions, the first one done first. -/
def afterAll (x : Exchange τ σ) (handling : Handling τ σ) (actions : List (PlumbingAction τ)) :
    Exchange τ σ :=
  actions.foldl (after handling) x

theorem afterAll_append (x : Exchange τ σ) (handling : Handling τ σ)
    (first second : List (PlumbingAction τ)) :
    x.afterAll handling (first ++ second) = (x.afterAll handling first).afterAll handling second :=
  List.foldl_append

end Exchange

namespace Plumbing

/-! ### The subscribers -/

/-- The devices are in ascending order, none of them twice. -/
def Ascending (subscribers : List (Nat × τ)) : Prop :=
  (subscribers.map Prod.fst).Pairwise (· < ·)

theorem ascending_cons {s : Nat × τ} {rest : List (Nat × τ)} :
    Ascending (s :: rest) ↔ (∀ t ∈ rest, s.1 < t.1) ∧ Ascending rest := by
  rw [Ascending, List.map_cons, List.pairwise_cons, List.forall_mem_map]
  rfl

/-- A device that subscribes gets its own handler, and the others keep theirs. -/
theorem mem_insert {subscribers : List (Nat × τ)} (h : Ascending subscribers) {device : Nat}
    {handler : τ} {s : Nat × τ} :
    s ∈ insert device handler subscribers ↔
      s = (device, handler) ∨ (s ∈ subscribers ∧ s.1 ≠ device) := by
  induction subscribers with
  | nil => simp only [insert, List.mem_singleton, List.not_mem_nil, false_and, or_false]
  | cons t rest ih =>
    obtain ⟨hfirst, hrest⟩ := ascending_cons.mp h
    have hlater : t.1 ≥ device → ∀ r ∈ rest, r.1 ≠ device := by
      intro hge r hr
      have := hfirst r hr
      omega
    unfold insert
    by_cases hless : device < t.1
    · have hothers : ∀ r ∈ t :: rest, r.1 ≠ device := by
        intro r hr
        rcases List.mem_cons.mp hr with rfl | hr
        · omega
        · exact hlater (Nat.le_of_lt hless) r hr
      rw [if_pos hless, List.mem_cons]
      exact or_congr_right ⟨fun hs => ⟨hs, hothers s hs⟩, And.left⟩
    · rw [if_neg hless]
      by_cases heq : device = t.1
      · rw [if_pos heq, List.mem_cons, List.mem_cons]
        refine or_congr_right ⟨fun hs => ⟨.inr hs, hlater (Nat.le_of_eq heq) s hs⟩, ?_⟩
        rintro ⟨rfl | hs, hne⟩
        · exact absurd heq.symm hne
        · exact hs
      · rw [if_neg heq, List.mem_cons, List.mem_cons, ih hrest]
        constructor
        · rintro (rfl | rfl | ⟨hs, hne⟩)
          · exact .inr ⟨.inl rfl, Ne.symm heq⟩
          · exact .inl rfl
          · exact .inr ⟨.inr hs, hne⟩
        · rintro (rfl | ⟨rfl | hs, hne⟩)
          · exact .inr (.inl rfl)
          · exact .inl rfl
          · exact .inr (.inr ⟨hs, hne⟩)

theorem Ascending.insert {subscribers : List (Nat × τ)} (h : Ascending subscribers) (device : Nat)
    (handler : τ) : Ascending (insert device handler subscribers) := by
  induction subscribers with
  | nil => exact List.pairwise_singleton _ _
  | cons t rest ih =>
    obtain ⟨hfirst, hrest⟩ := ascending_cons.mp h
    unfold Plumbing.insert
    by_cases hless : device < t.1
    · rw [if_pos hless]
      refine ascending_cons.mpr ⟨fun r hr => ?_, h⟩
      rcases List.mem_cons.mp hr with rfl | hr
      · exact hless
      · exact Nat.lt_trans hless (hfirst r hr)
    · rw [if_neg hless]
      by_cases heq : device = t.1
      · rw [if_pos heq]
        refine ascending_cons.mpr ⟨fun r hr => ?_, hrest⟩
        rw [heq]
        exact hfirst r hr
      · rw [if_neg heq]
        refine ascending_cons.mpr ⟨fun r hr => ?_, ih hrest⟩
        rcases (mem_insert hrest).mp hr with rfl | ⟨hr, -⟩
        · show t.1 < device
          omega
        · exact hfirst r hr

/-- The handler is the one that the device has subscribed last. -/
def Subscribed (actions : List (PlumbingAction τ)) (device : Nat) (handler : τ) : Prop :=
  (actions.filterMap (PlumbingAction.handler? device)).getLast? = some handler

/-- A further action subscribes another handler, or leaves the one that the device has. -/
theorem subscribed_concat (actions : List (PlumbingAction τ)) (a : PlumbingAction τ) (device : Nat)
    (handler : τ) :
    Subscribed (actions ++ [a]) device handler ↔
      match a.handler? device with
      | some other => other = handler
      | none => Subscribed actions device handler := by
  rw [Subscribed, List.filterMap_append, List.filterMap_cons, List.filterMap_nil]
  cases a.handler? device with
  | some other => exact (List.getLast?_concat.congr_left).trans Option.some_inj
  | none => rw [List.append_nil, Subscribed]


end Plumbing

/-! ### The calls of a delivery -/

/-- A call of a handler. -/
structure Call (τ : Type) where
  /-- Whose handler is called. -/
  subscriber : Nat × τ
  /-- The request that it is handed. -/
  request : Request
  /-- The requests that it queues meanwhile. -/
  queued : List Request

/-- The handlers, with a record of their calls. -/
def Handling.recorded (handling : Handling τ σ) : Handling τ (σ × List (Call τ)) :=
  fun subscriber request s =>
    let done := handling subscriber request s.1
    ⟨(done.value, s.2 ++ [⟨subscriber, request, done.reports.filterMap Deed.queued?⟩]),
      done.reports⟩

namespace Delivery

/-- The subscribers are these, and somebody can still receive. -/
def Connected (subscribers : List (Nat × τ)) (d : Delivery τ σ) : Prop :=
  d.plumbing.isOpen = true ∧ d.plumbing.subscribers = subscribers

variable {subscribers : List (Nat × τ)} (handling : Handling τ σ)

theorem Connected.callAll {d : Delivery τ σ} (h : d.Connected subscribers) (r : Request)
    (called : List (Nat × τ)) : ((d.callAll handling r called).value).Connected subscribers := by
  induction called generalizing d with
  | nil => exact h
  | cons s rest ih =>
    rw [Delivery.callAll, Traced.value_bind, value_call h.1]
    exact ih ⟨h.1, h.2⟩

theorem Connected.round {d : Delivery τ σ} (h : d.Connected subscribers) :
    ((d.round handling).value).Connected subscribers := by
  cases hqueued : d.plumbing.queued with
  | nil =>
    rw [round_of_nil hqueued]
    exact h
  | cons r rest =>
    obtain ⟨left, -, hround⟩ := round_of_cons hqueued handling
    have htaken : (d.taken left).Connected subscribers := h
    rw [hround]
    exact htaken.callAll handling r _

theorem Connected.rounds {d : Delivery τ σ} (h : d.Connected subscribers) (n : Nat) :
    ((d.rounds handling n).value).Connected subscribers := by
  induction n generalizing d with
  | zero => exact h
  | succ n ih => exact ih (h.round handling)

/-- With a request every subscriber is called once, in order. What the handlers queue meanwhile comes
last in the queue, as far as it fits. -/
theorem value_callAll_recorded {d : Delivery τ (σ × List (Call τ))}
    (h : d.plumbing.isOpen = true) (r : Request) (called : List (Nat × τ)) :
    ∃ calls : List (Call τ),
      calls.map (fun c => (c.subscriber, c.request)) = called.map (fun s => (s, r)) ∧
      (d.callAll handling.recorded r called).value.state.2 = d.state.2 ++ calls ∧
      (d.callAll handling.recorded r called).value.plumbing.queued =
        (d.plumbing.queued ++ calls.flatMap Call.queued).take requestCapacity ∧
      (d.callAll handling.recorded r called).value.any = d.any := by
  induction called generalizing d with
  | nil =>
    refine ⟨[], rfl, (List.append_nil _).symm, ?_, rfl⟩
    rw [List.flatMap_nil, List.append_nil]
    exact (List.take_of_length_le d.plumbing.requests.length_le).symm
  | cons s rest ih =>
    have hcall := value_call h handling.recorded r s
    have hnext : (d.call handling.recorded r s).value.plumbing.isOpen = true := by
      rw [hcall]
      exact h
    have hqueue : (d.call handling.recorded r s).value.plumbing.queued =
        (d.plumbing.queued ++ (handling s r d.state.1).reports.filterMap Deed.queued?).take
          requestCapacity := by
      rw [hcall]
      exact Queue.toList_pushAll _ _
    obtain ⟨calls, hcalled, hrecord, hqueued, hany⟩ := ih hnext
    rw [callAll, Traced.value_bind]
    refine ⟨⟨s, r, (handling s r d.state.1).reports.filterMap Deed.queued?⟩ :: calls,
      ?_, ?_, ?_, ?_⟩
    · rw [List.map_cons, List.map_cons, hcalled]
    · rw [hrecord, List.append_cons, hcall]
      rfl
    · -- What does not fit is dropped after each call, which is as good as after all of them.
      rw [hqueued, hqueue, Queue.take_append_take, List.append_assoc, List.flatMap_cons]
    · rw [hany, hcall]

end Delivery

/-! ### The rounds of a delivery -/

/-- A round of a delivery. -/
structure Round (τ : Type) where
  /-- The request that is taken out. -/
  request : Request
  /-- The calls that are made, in order. -/
  calls : List (Call τ)
  /-- The requests that are queued meanwhile and fit. -/
  fitted : List Request

/-- What a round is like that leaves requests waiting. -/
structure Round.Proper (round : Round τ) (subscribers : List (Nat × τ)) (waiting : List Request) :
    Prop where
  /-- Every subscriber is called once with the request, in order, and nobody else. -/
  called : round.calls.map (fun c => (c.subscriber, c.request)) =
    subscribers.map fun s => (s, round.request)
  /-- Of what the handlers queue, the first requests fit, as many as there is room for. -/
  fits : round.fitted =
    (round.calls.flatMap Call.queued).take (requestCapacity - waiting.length)

/-- Rounds that follow one another: each takes out what has waited longest, and what is queued
meanwhile waits behind the rest. From the requests that wait at first they lead to those that are
left. -/
inductive Course (subscribers : List (Nat × τ)) :
    List Request → List (Round τ) → List Request → Prop where
  /-- There is no further round. -/
  | stop (waiting : List Request) : Course subscribers waiting [] waiting
  /-- There is one more round, with the oldest request. -/
  | round {waiting left : List Request} {first : Round τ} {rest : List (Round τ)}
      (proper : first.Proper subscribers waiting)
      (course : Course subscribers (waiting ++ first.fitted) rest left) :
      Course subscribers (first.request :: waiting) (first :: rest) left

namespace Course

variable {subscribers : List (Nat × τ)} {waiting left : List Request} {rounds : List (Round τ)}

/-- The requests that are handed out, and then those that are left, are those that have waited, and
then those that were queued meanwhile. -/
theorem fifo (h : Course subscribers waiting rounds left) :
    rounds.map Round.request ++ left = waiting ++ rounds.flatMap Round.fitted := by
  induction h with
  | stop waiting => exact (List.append_nil _).symm
  | round proper course ih =>
    rw [List.map_cons, List.cons_append, ih, List.flatMap_cons, List.cons_append, List.append_assoc]

/-- There is a call for each round and each subscriber. -/
theorem length_calls (h : Course subscribers waiting rounds left) :
    (rounds.flatMap Round.calls).length = rounds.length * subscribers.length := by
  induction h with
  | stop waiting => exact (Nat.zero_mul _).symm
  | round proper course ih =>
    have hcalled := congrArg List.length proper.called
    rw [List.length_map, List.length_map] at hcalled
    rw [List.flatMap_cons, List.length_append, ih, hcalled, List.length_cons, Nat.succ_mul,
      Nat.add_comm]

/-- The call of a subscriber in a round has its place among all calls. -/
theorem getElem?_calls (h : Course subscribers waiting rounds left) {k j : Nat} {round : Round τ}
    {s : Nat × τ} (hround : rounds[k]? = some round) (hs : subscribers[j]? = some s) :
    ∃ queued, (rounds.flatMap Round.calls)[k * subscribers.length + j]? =
      some ⟨s, round.request, queued⟩ := by
  obtain ⟨hj, -⟩ := List.getElem?_eq_some_iff.mp hs
  induction h generalizing k with
  | stop waiting => cases hround
  | @round waiting left first rest proper course ih =>
    have hlength := congrArg List.length proper.called
    rw [List.length_map, List.length_map] at hlength
    rw [List.flatMap_cons]
    cases k with
    | zero =>
      obtain rfl : first = round := Option.some.inj hround
      have hcall := congrArg (fun l => l[j]?) proper.called
      rw [List.getElem?_map, List.getElem?_map, hs, Option.map_some, Option.map_eq_some_iff] at hcall
      obtain ⟨⟨subscriber, request, queued⟩, hcall, hsame⟩ := hcall
      obtain ⟨rfl, rfl⟩ := Prod.mk.inj hsame
      refine ⟨queued, ?_⟩
      rw [Nat.zero_mul, Nat.zero_add, List.getElem?_append_left (by rw [hlength]; exact hj)]
      exact hcall
    | succ k =>
      have hskip : (k + 1) * subscribers.length + j =
          first.calls.length + (k * subscribers.length + j) := by
        rw [hlength, Nat.succ_mul]
        omega
      rw [hskip, List.getElem?_append_right (Nat.le_add_right _ _), Nat.add_sub_cancel_left]
      exact ih hround

/-- If the handlers queue nothing, nothing is added to what waits. -/
theorem fitted_of_silent (h : Course subscribers waiting rounds left)
    (hsilent : ∀ call ∈ rounds.flatMap Round.calls, call.queued = []) :
    rounds.flatMap Round.fitted = [] := by
  induction h with
  | stop waiting => rfl
  | @round waiting left first rest proper course ih =>
    rw [List.flatMap_cons, List.forall_mem_append] at hsilent
    rw [List.flatMap_cons, ih hsilent.2, proper.fits, List.flatMap_eq_nil_iff.mpr hsilent.1,
      List.take_nil, List.append_nil]

/-- If the handlers queue nothing and there may be as many rounds as requests wait, all of these are
handed out, and none is left. -/
theorem all_of_silent (h : Course subscribers waiting rounds left)
    (hsilent : ∀ call ∈ rounds.flatMap Round.calls, call.queued = []) {n : Nat}
    (hbound : waiting.length ≤ n) (hends : rounds.length = n ∨ left = []) :
    rounds.map Round.request = waiting ∧ left = [] := by
  have hfifo := h.fifo
  rw [h.fitted_of_silent hsilent, List.append_nil] at hfifo
  have hnone : left = [] := by
    have hlength := congrArg List.length hfifo
    rw [List.length_append, List.length_map] at hlength
    refine hends.elim (fun hall => List.length_eq_zero_iff.mp ?_) id
    omega
  rw [hnone, List.append_nil] at hfifo
  exact ⟨hfifo, hnone⟩

/-- There is a first round if and only if one may be made and a request waits. -/
theorem ne_nil_iff (h : Course subscribers waiting rounds left) {n : Nat}
    (hbounded : rounds.length ≤ n) (hends : rounds.length = n ∨ left = []) :
    rounds ≠ [] ↔ n ≠ 0 ∧ waiting ≠ [] := by
  cases h with
  | stop =>
    refine iff_of_false (fun hrounds => hrounds rfl) fun ⟨hn, hwaiting⟩ => ?_
    exact hends.elim (fun hzero => hn hzero.symm) hwaiting
  | round proper course =>
    refine iff_of_true (List.cons_ne_nil _ _) ⟨?_, List.cons_ne_nil _ _⟩
    exact Nat.ne_of_gt (Nat.lt_of_lt_of_le (Nat.succ_pos _) hbounded)

end Course

namespace Delivery

variable (handling : Handling τ σ)

/-- How a delivery with a record of its calls goes on for so many rounds at most: they are a course,
their calls are added to the record, and it stops early only if no request is left. -/
structure Runs (d : Delivery τ (σ × List (Call τ))) (handling : Handling τ σ) (n : Nat)
    (rounds : List (Round τ)) : Prop where
  /-- The rounds are a course. -/
  course : Course d.plumbing.subscribers d.plumbing.queued rounds
    (d.rounds handling.recorded n).value.plumbing.queued
  /-- Their calls are recorded. -/
  calls : (d.rounds handling.recorded n).value.state.2 = d.state.2 ++ rounds.flatMap Round.calls
  /-- There are not too many. -/
  bounded : rounds.length ≤ n
  /-- There are fewer only if no request is left. -/
  ends : rounds.length = n ∨ (d.rounds handling.recorded n).value.plumbing.queued = []
  /-- It is noted whether there was one. -/
  any : (d.rounds handling.recorded n).value.any = (d.any || !rounds.isEmpty)

/-- One round: the oldest request is taken out, and every subscriber is called with it. -/
theorem value_round_recorded {d : Delivery τ (σ × List (Call τ))} (h : d.plumbing.isOpen = true)
    {r : Request} {waiting : List Request} (hqueued : d.plumbing.queued = r :: waiting) :
    ∃ round : Round τ, round.request = r ∧ round.Proper d.plumbing.subscribers waiting ∧
      (d.round handling.recorded).value.plumbing.queued = waiting ++ round.fitted ∧
      (d.round handling.recorded).value.state.2 = d.state.2 ++ round.calls ∧
      (d.round handling.recorded).value.any = true := by
  obtain ⟨left, hleft, hround⟩ := round_of_cons hqueued handling.recorded
  have htaken : (d.taken left).plumbing.isOpen = true := h
  obtain ⟨calls, hcalled, hrecord, hqueue, hany⟩ :=
    value_callAll_recorded handling htaken r d.plumbing.subscribers
  have hfits : waiting.length ≤ requestCapacity := by
    rw [← hleft]
    exact Queue.length_le _
  refine ⟨⟨r, calls, (calls.flatMap Call.queued).take (requestCapacity - waiting.length)⟩, rfl,
    ⟨hcalled, rfl⟩, ?_, ?_, ?_⟩
  · rw [hround, hqueue, hleft, List.take_append, List.take_of_length_le hfits]
  · rw [hround]
    exact hrecord
  · rw [hround]
    exact hany

/-- Without any request, nothing is done in any number of rounds. -/
theorem rounds_of_nil {d : Delivery τ σ} (h : d.plumbing.queued = []) (n : Nat) :
    d.rounds handling n = pure d := by
  induction n with
  | zero => rfl
  | succ n ih =>
    rw [rounds, round_of_nil h]
    exact ih

/-- Once no request is left, more rounds do nothing. -/
theorem rounds_of_settled {d : Delivery τ σ} {n m : Nat}
    (h : (d.rounds handling n).value.plumbing.queued = []) (hle : n ≤ m) :
    d.rounds handling m = d.rounds handling n := by
  induction n generalizing d m with
  | zero => exact rounds_of_nil handling h m
  | succ n ih =>
    cases m with
    | zero => exact absurd hle (Nat.not_succ_le_zero n)
    | succ m =>
      rw [rounds, rounds]
      exact Traced.bind_congr_value _ (ih h (Nat.le_of_succ_le_succ hle))

/-- A delivery is a course of rounds, by induction on their bound. -/
theorem runs_rounds {d : Delivery τ (σ × List (Call τ))} (h : d.plumbing.isOpen = true) (n : Nat) :
    ∃ rounds, d.Runs handling n rounds := by
  induction n generalizing d with
  | zero =>
    exact ⟨[], .stop _, (List.append_nil _).symm, Nat.zero_le _, .inl rfl, (Bool.or_false _).symm⟩
  | succ n ih =>
    cases hqueued : d.plumbing.queued with
    | nil =>
      -- The bound allows more rounds, but there is nothing to take out.
      have hidle : (d.rounds handling.recorded (n + 1)).value = d :=
        congrArg Traced.value (rounds_of_nil handling.recorded hqueued (n + 1))
      exact ⟨[],
        { course := by rw [hidle]; exact .stop _
          calls := by rw [hidle]; exact (List.append_nil _).symm
          bounded := Nat.zero_le _
          ends := .inr (by rw [hidle]; exact hqueued)
          any := by rw [hidle]; exact (Bool.or_false _).symm }⟩
    | cons r waiting =>
      obtain ⟨round, rfl, hproper, hqueue, hrecord, hany⟩ :=
        value_round_recorded handling h hqueued
      have hconnected : d.Connected d.plumbing.subscribers := ⟨h, rfl⟩
      obtain ⟨hopen, hsubscribers⟩ := hconnected.round handling.recorded
      obtain ⟨rounds, hruns⟩ := ih hopen
      have hcourse := hruns.course
      rw [hsubscribers, hqueue] at hcourse
      refine ⟨round :: rounds, ?_, ?_, Nat.succ_le_succ hruns.bounded,
        hruns.ends.imp_left (congrArg Nat.succ), ?_⟩
      · rw [hqueued]
        exact .round hproper hcourse
      · refine hruns.calls.trans ?_
        rw [hrecord, List.append_assoc, List.flatMap_cons]
      · refine hruns.any.trans ?_
        rw [hany, Bool.true_or, List.isEmpty_cons, Bool.not_false, Bool.or_true]

/-- The delivery without the record of its calls. -/
def forget (d : Delivery τ (σ × List (Call τ))) : Delivery τ σ := ⟨d.plumbing, d.state.1, d.any⟩

/-- Steps that do not depend on the record can be chained. -/
theorem bind_forget {x : Traced Note (Delivery τ (σ × List (Call τ)))}
    {f : Delivery τ σ → Traced Note (Delivery τ σ)}
    {g : Delivery τ (σ × List (Call τ)) → Traced Note (Delivery τ (σ × List (Call τ)))}
    (h : f x.value.forget = ⟨(g x.value).value.forget, (g x.value).reports⟩) :
    (⟨x.value.forget, x.reports⟩ >>= f : Traced Note (Delivery τ σ)) =
      ⟨(x >>= g).value.forget, (x >>= g).reports⟩ := by
  show (⟨(f x.value.forget).value, x.reports ++ (f x.value.forget).reports⟩ : Traced Note _) = _
  rw [h]
  rfl

theorem callAll_forget (d : Delivery τ (σ × List (Call τ))) (r : Request)
    (called : List (Nat × τ)) :
    d.forget.callAll handling r called =
      ⟨(d.callAll handling.recorded r called).value.forget,
        (d.callAll handling.recorded r called).reports⟩ := by
  induction called generalizing d with
  | nil => rfl
  | cons s rest ih =>
    have hcall : d.forget.call handling r s =
        ⟨(d.call handling.recorded r s).value.forget, (d.call handling.recorded r s).reports⟩ :=
      rfl
    rw [callAll, callAll, hcall]
    exact bind_forget (ih _)

theorem round_forget (d : Delivery τ (σ × List (Call τ))) :
    d.forget.round handling =
      ⟨(d.round handling.recorded).value.forget, (d.round handling.recorded).reports⟩ := by
  have hsame : d.forget.plumbing.requests.pop? = d.plumbing.requests.pop? := rfl
  rw [round, round, hsame]
  cases d.plumbing.requests.pop? with
  | none => rfl
  | some first => exact callAll_forget handling (d.taken first.2) first.1 _

/-- The record does not act back on the delivery. -/
theorem rounds_forget (d : Delivery τ (σ × List (Call τ))) (n : Nat) :
    d.forget.rounds handling n =
      ⟨(d.rounds handling.recorded n).value.forget, (d.rounds handling.recorded n).reports⟩ := by
  induction n generalizing d with
  | zero => rfl
  | succ n ih =>
    rw [rounds, rounds, round_forget]
    exact bind_forget (ih _)

end Delivery

/-! ### What a delivery does -/

/-- Receives the queued requests in so many rounds at most, with a record of the calls. -/
def Plumbing.receiveRecorded (q : Plumbing τ) (handling : Handling τ σ) (s : σ) (n : Nat) :
    Traced Note (Delivery τ (σ × List (Call τ))) :=
  q.receive handling.recorded (s, []) n

/-- What a delivery of so many rounds at most does with the requests. -/
structure Plumbing.Delivers (q : Plumbing τ) (handling : Handling τ σ) (s : σ) (n : Nat)
    (rounds : List (Round τ)) : Prop where
  /-- Its rounds follow one another, from the requests that wait to those that are left. -/
  course : Course q.subscribers q.queued rounds (q.receiveRecorded handling s n).value.plumbing.queued
  /-- The calls that are made are the calls of the rounds. -/
  calls : (q.receiveRecorded handling s n).value.state.2 = rounds.flatMap Round.calls
  /-- There is one call for each round and each subscriber. -/
  count : (q.receiveRecorded handling s n).value.state.2.length =
    rounds.length * q.subscribers.length
  /-- The subscribers are called with a request one after the other, and all of them before the next
  request. -/
  order : ∀ {k j : Nat} {round : Round τ} {subscriber : Nat × τ}, rounds[k]? = some round →
    q.subscribers[j]? = some subscriber →
    ∃ queued, (q.receiveRecorded handling s n).value.state.2[k * q.subscribers.length + j]? =
      some ⟨subscriber, round.request, queued⟩
  /-- The requests that are handed out, and then those that are left, are those that have waited, and
  then those that were queued meanwhile and have fitted. -/
  fifo : rounds.map Round.request ++ (q.receiveRecorded handling s n).value.plumbing.queued =
    q.queued ++ rounds.flatMap Round.fitted
  /-- The delivery stops when no request is left, or after so many rounds. -/
  ends : (q.receiveRecorded handling s n).value.plumbing.queued = [] ∨ rounds.length = n
  /-- Once no request is left, more rounds would do nothing. -/
  settled : (q.receiveRecorded handling s n).value.plumbing.queued = [] →
    ∀ m, n ≤ m → q.receiveRecorded handling s m = q.receiveRecorded handling s n
  /-- If the handlers queue nothing, it stops as soon as all that have waited are handed out. -/
  silent : (∀ call ∈ (q.receiveRecorded handling s n).value.state.2, call.queued = []) →
    q.queued.length ≤ n → rounds.map Round.request = q.queued ∧
      (q.receiveRecorded handling s n).value.plumbing.queued = []
  /-- It is told whether there was anything to receive. -/
  told : (q.receiveRecorded handling s n).value.any = true ↔ n ≠ 0 ∧ q.queued ≠ []
  /-- The delivery does the same without a record. -/
  unrecorded : q.receive handling s n =
    ⟨(q.receiveRecorded handling s n).value.forget, (q.receiveRecorded handling s n).reports⟩

theorem Plumbing.delivers {q : Plumbing τ} (h : q.isOpen = true) (handling : Handling τ σ) (s : σ)
    (n : Nat) : ∃ rounds, q.Delivers handling s n rounds := by
  obtain ⟨rounds, hruns⟩ := Delivery.runs_rounds handling (d := ⟨q, (s, []), false⟩) h n
  have hcourse : Course q.subscribers q.queued rounds
      (q.receiveRecorded handling s n).value.plumbing.queued := hruns.course
  have hcalls : (q.receiveRecorded handling s n).value.state.2 = rounds.flatMap Round.calls :=
    hruns.calls
  have hany : (q.receiveRecorded handling s n).value.any = !rounds.isEmpty := hruns.any
  have hends : rounds.length = n ∨ (q.receiveRecorded handling s n).value.plumbing.queued = [] :=
    hruns.ends
  exact ⟨rounds,
    { course := hcourse
      calls := hcalls
      count := by rw [hcalls, hcourse.length_calls]
      order := fun hround hs => by rw [hcalls]; exact hcourse.getElem?_calls hround hs
      fifo := hcourse.fifo
      ends := hends.symm
      settled := fun hnone _ hle => Delivery.rounds_of_settled handling.recorded hnone hle
      silent := fun hsilent hbound => hcourse.all_of_silent (hcalls ▸ hsilent) hbound hends
      told := by
        rw [hany, Bool.not_eq_true', List.isEmpty_eq_false_iff]
        exact hcourse.ne_nil_iff hruns.bounded hends
      unrecorded := Delivery.rounds_forget handling ⟨q, (s, []), false⟩ n }⟩

/-! ### Runs of the plumbing -/

namespace Exchange

/-- No action closes the plumbing, and only a device that subscribes changes the subscribers. -/
theorem connected_after {x : Exchange τ σ} (h : x.plumbing.isOpen = true) (handling : Handling τ σ)
    (a : PlumbingAction τ) :
    (x.after handling a).plumbing.isOpen = true ∧
      (x.after handling a).plumbing.subscribers = match a with
        | .subscribe device handler => Plumbing.insert device handler x.plumbing.subscribers
        | _ => x.plumbing.subscribers := by
  cases a with
  | subscribe device handler => exact ⟨h, rfl⟩
  | queue request =>
    rw [after, step, Traced.value_bind, Plumbing.value_request h]
    exact ⟨h, rfl⟩
  | publish change =>
    rw [after, step, Traced.value_bind, Plumbing.value_publish h]
    exact ⟨h, rfl⟩
  | receive rounds =>
    have hconnected : (⟨x.plumbing, x.state, false⟩ : Delivery τ σ).Connected
      x.plumbing.subscribers := ⟨h, rfl⟩
    exact hconnected.rounds handling rounds
  | drain => exact ⟨h, rfl⟩

theorem isOpen_afterAll {x : Exchange τ σ} (h : x.plumbing.isOpen = true)
    (handling : Handling τ σ) (actions : List (PlumbingAction τ)) :
    (x.afterAll handling actions).plumbing.isOpen = true := by
  induction actions generalizing x with
  | nil => exact h
  | cons a rest ih => exact ih (connected_after h handling a).1

/-- The plumbing when nothing was done to it yet. -/
def new (start : σ) : Exchange τ σ := ⟨.new, start⟩

/-- The subscribers after a run, in order, each with the handler that it has subscribed last. -/
theorem subscribers_afterAll (handling : Handling τ σ) (start : σ)
    (actions : List (PlumbingAction τ)) :
    Plumbing.Ascending ((new start).afterAll handling actions).plumbing.subscribers ∧
      ∀ device handler,
        (device, handler) ∈ ((new start).afterAll handling actions).plumbing.subscribers ↔
          Plumbing.Subscribed actions device handler := by
  induction actions using List.reverseRecOn with
  | nil =>
    refine ⟨List.Pairwise.nil, fun device handler => iff_of_false List.not_mem_nil ?_⟩
    rintro ⟨⟩
  | append_singleton actions a ih =>
    obtain ⟨hascending, hmem⟩ := ih
    have hopen := isOpen_afterAll (x := new start) rfl handling actions
    have hafter : (new start).afterAll handling (actions ++ [a]) =
        ((new start).afterAll handling actions).after handling a := afterAll_append ..
    rw [hafter, (connected_after hopen handling a).2]
    cases a with
    | subscribe subscriber subscribed =>
      refine ⟨hascending.insert subscriber subscribed, fun device handler => ?_⟩
      rw [Plumbing.mem_insert hascending, hmem, Plumbing.subscribed_concat, PlumbingAction.handler?,
        Prod.mk.injEq]
      by_cases hsame : subscriber = device
      · subst hsame
        simp only [if_pos, true_and, ne_eq, not_true_eq_false, and_false, or_false]
        exact eq_comm
      · simp only [if_neg hsame, Ne.symm hsame, false_and, false_or, ne_eq, not_false_eq_true,
          and_true]
    | queue | publish | receive | drain =>
      refine ⟨hascending, fun device handler => ?_⟩
      rw [Plumbing.subscribed_concat]
      exact hmem device handler

/-- An action, unless it is a receive, keeps what waits and adds what it queues, if that fits. -/
theorem queued_after {x : Exchange τ σ} (h : x.plumbing.isOpen = true) (handling : Handling τ σ)
    {a : PlumbingAction τ} (hno : ∀ n, a ≠ .receive n) :
    (x.after handling a).plumbing.queued =
      (x.plumbing.queued ++ a.queued?.toList).take requestCapacity := by
  have hsame : x.plumbing.queued = (x.plumbing.queued ++ []).take requestCapacity := by
    rw [List.append_nil]
    exact (List.take_of_length_le x.plumbing.requests.length_le).symm
  cases a with
  | subscribe device handler => exact hsame
  | queue request =>
    rw [after, step, Traced.value_bind, Plumbing.value_request h]
    exact Queue.toList_push _ _
  | publish change =>
    rw [after, step, Traced.value_bind, Plumbing.value_publish h]
    exact hsame
  | receive rounds => exact absurd rfl (hno rounds)
  | drain => exact hsame

/-- Whatever is done, unless it is a receive, keeps what waits and adds what is queued, as far as it
fits. -/
theorem queued_afterAll {x : Exchange τ σ} (h : x.plumbing.isOpen = true)
    (handling : Handling τ σ) {actions : List (PlumbingAction τ)}
    (hno : ∀ n, .receive n ∉ actions) :
    (x.afterAll handling actions).plumbing.queued =
      (x.plumbing.queued ++ actions.filterMap PlumbingAction.queued?).take requestCapacity := by
  induction actions generalizing x with
  | nil =>
    rw [List.filterMap_nil, List.append_nil]
    exact (List.take_of_length_le x.plumbing.requests.length_le).symm
  | cons a rest ih =>
    have hfirst : ∀ n, a ≠ .receive n := fun n ha => hno n (ha ▸ List.mem_cons_self)
    have hrest : ∀ n, .receive n ∉ rest := fun n hn => hno n (List.mem_cons_of_mem _ hn)
    refine (ih (connected_after h handling a).1 hrest).trans ?_
    rw [queued_after h handling hfirst, Queue.take_append_take, List.append_assoc,
      filterMap_cons_toList]

/-- Who is handed what by the deliveries after a run: every device that has subscribed is called, by
the handler that it has subscribed last, with each of some requests. -/
structure HandsOut (x : Exchange τ σ) (handling : Handling τ σ) (actions : List (PlumbingAction τ))
    (requests : List Request) : Prop where
  /-- The subscribers are in ascending order. -/
  ascending : Plumbing.Ascending x.plumbing.subscribers
  /-- They have the handlers that they have subscribed last. -/
  subscribed : ∀ device handler,
    (device, handler) ∈ x.plumbing.subscribers ↔ Plumbing.Subscribed actions device handler
  /-- The requests wait, in order. -/
  queued : x.plumbing.queued = requests
  /-- A delivery hands them out, and those that are queued meanwhile. -/
  delivers : ∀ n, ∃ rounds, x.plumbing.Delivers handling x.state n rounds

/-- After every run, the next delivery hands out what has waited and what was queued since, as far
as it has fitted the queue. -/
theorem handsOut_run (handling : Handling τ σ) (start : σ)
    (before recent : List (PlumbingAction τ)) (hno : ∀ n, .receive n ∉ recent) :
    ((new start).afterAll handling (before ++ recent)).HandsOut handling (before ++ recent)
      ((((new start).afterAll handling before).plumbing.queued ++
        recent.filterMap PlumbingAction.queued?).take requestCapacity) := by
  obtain ⟨hascending, hmem⟩ := subscribers_afterAll handling start (before ++ recent)
  have hopen := isOpen_afterAll (x := new start) rfl handling before
  have hqueued := queued_afterAll hopen handling hno
  rw [← afterAll_append] at hqueued
  exact
    { ascending := hascending
      subscribed := hmem
      queued := hqueued
      delivers := Plumbing.delivers (isOpen_afterAll rfl handling _) handling _ }

end Exchange

end Gic
