import Gic.Proofs.Decoding
import Gic.Proofs.GuestLines

/-!
# Runs of a board

A board is driven from outside by accesses on the bus, by what is done to the
controller at its handle, by changes of inputs that are queued and received, and
by draining the changes of output lines. This module says what a run of such
actions is, and what each of them does.

## The model

* `BoardAction`, `Board.after`, `Board.afterAll` — one action, and a list of them
  done one after the other.
* `Board.asks` — what an action asks the controller to do.
* `Board.published`, `Board.drained` — the changes of lines that the controller
  publishes in a run, and those that the drains of the run return.
* `Board.prepared`, `Board.moved` — what an action does with the queues on its
  own account, and what a step of the controller does with the board.
* `Board.advanced` — what a handler's step of the controller does with a delivery.
* `Board.Wired` — how a board is connected, which no action changes.

## What is proved

* `Board.value_rounds` — a delivery on a board, by induction on the requests that wait:
  each of them is handled once for every subscriber, and none is left.
* `Board.after_eq` — an action prepares the queues, lets the controller do what it
  is asked and queues what that publishes, as far as it fits.
* `Board.Wired.afterAll` — a board stays as it was connected when it was built.
* `Board.asks_receive` — a delivery hands each queued request to the controller once,
  in order.
-/

namespace Gic

/-- What the first item stands for comes first. -/
theorem filterMap_cons_toList {α β : Type} (f : α → Option β) (a : α) (l : List α) :
    (a :: l).filterMap f = (f a).toList ++ l.filterMap f := by
  simp only [List.filterMap_eq_flatMap_toList, List.flatMap_cons]

/-! ### The queues -/

namespace Queue

variable {capacity : Nat} {α : Type}

/-- Puts items last, one after the other; those that do not fit are dropped. -/
def pushAll (q : Queue capacity α) (added : List α) : Queue capacity α := added.foldl push q

theorem pushAll_append (q : Queue capacity α) (first second : List α) :
    q.pushAll (first ++ second) = (q.pushAll first).pushAll second :=
  List.foldl_append

theorem push_of_full {q : Queue capacity α} (h : q.isFull = true) (item : α) :
    q.push item = q :=
  dif_neg (Nat.not_lt.mpr (of_decide_eq_true h))

theorem ext_toList {p q : Queue capacity α} (h : p.items.toList = q.items.toList) : p = q := by
  obtain ⟨items, fits⟩ := p
  obtain ⟨items', fits'⟩ := q
  obtain rfl : items = items' := Array.toList_inj.mp h
  rfl

theorem length_le (q : Queue capacity α) : q.items.toList.length ≤ capacity :=
  q.fits

/-- Nothing can be taken out of an empty queue. -/
theorem pop?_of_nil {q : Queue capacity α} (h : q.items.toList = []) : q.pop? = none := by
  rw [pop?, ← Array.getElem?_toList, h]
  rfl

/-- The oldest item is taken out, and the others are left. -/
theorem pop?_of_cons {q : Queue capacity α} {item : α} {rest : List α}
    (h : q.items.toList = item :: rest) :
    ∃ left, q.pop? = some (item, left) ∧ left.items.toList = rest := by
  have hfirst : q.items[0]? = some item := by rw [← Array.getElem?_toList, h]; rfl
  unfold pop?
  rw [hfirst]
  refine ⟨_, rfl, ?_⟩
  have hsize : q.items.size - 1 = rest.length := by
    rw [← Array.length_toList, h, List.length_cons, Nat.add_sub_cancel]
  rw [Array.toList_extract, List.extract_eq_take_drop, h, hsize]
  exact List.take_length

theorem toList_push (q : Queue capacity α) (item : α) :
    (q.push item).items.toList = (q.items.toList ++ [item]).take capacity := by
  unfold push
  split
  · rename_i hlt
    rw [Array.toList_push, List.take_of_length_le]
    rw [List.length_append, List.length_singleton]
    exact hlt
  · rename_i hfull
    have hsize : q.items.toList.length = capacity :=
      Nat.le_antisymm q.length_le (Nat.not_lt.mp hfull)
    rw [List.take_append_of_le_length (Nat.le_of_eq hsize.symm),
      List.take_of_length_le (Nat.le_of_eq hsize)]

/-- What does not fit is dropped, whether it is cut off at once or later. -/
theorem take_append_take (n : Nat) (first second : List α) :
    (first.take n ++ second).take n = (first ++ second).take n := by
  rw [List.take_append, List.take_append, List.take_take, Nat.min_self, List.length_take]
  congr 2
  omega

/-- The oldest items are kept. -/
theorem toList_pushAll (q : Queue capacity α) (added : List α) :
    (q.pushAll added).items.toList = (q.items.toList ++ added).take capacity := by
  induction added generalizing q with
  | nil => rw [List.append_nil, List.take_of_length_le q.length_le]; rfl
  | cons item rest ih =>
    have hrest := ih (q.push item)
    rw [toList_push, take_append_take, List.append_assoc, List.singleton_append] at hrest
    exact hrest

end Queue

/-- The request that a deed queues. -/
def Deed.queued? : Deed → Option Request
  | .report _ => none
  | .queue r => some r

/-- The change of a line that a deed publishes. -/
def Deed.change? : Deed → Option LineChange
  | .report event => event.change?
  | .queue _ => none

namespace Plumbing

variable {τ : Type}

theorem value_request {q : Plumbing τ} (h : q.isOpen = true) (r : Request) :
    (q.request r).value = { q with requests := q.requests.push r } := by
  obtain ⟨requests, changes, subscribers, isOpen⟩ := q
  obtain rfl : isOpen = true := h
  unfold request refusal?
  cases hfull : requests.isFull with
  | false => rfl
  | true =>
    rw [Queue.push_of_full hfull]
    rfl

theorem value_publish {q : Plumbing τ} (h : q.isOpen = true) (change : LineChange) :
    (q.publish change).value = { q with changes := q.changes.push change } := by
  obtain ⟨requests, changes, subscribers, isOpen⟩ := q
  obtain rfl : isOpen = true := h
  unfold publish
  cases hfull : changes.isFull with
  | false => rfl
  | true =>
    rw [Queue.push_of_full hfull]
    rfl

theorem value_emit {q : Plumbing τ} (h : q.isOpen = true) (event : Event) :
    (q.emit event).value = { q with changes := q.changes.pushAll event.change?.toList } := by
  cases event with
  | note n => rfl
  | line change => exact value_publish h change

/-- The changes of lines among what is reported are published in order. -/
theorem value_relay {q : Plumbing τ} (h : q.isOpen = true) (events : List Event) :
    (q.relay events).value =
      { q with changes := q.changes.pushAll (events.filterMap Event.change?) } := by
  induction events generalizing q with
  | nil => rfl
  | cons event rest ih =>
    rw [relay, Traced.value_bind, value_emit h, ih (by exact h), filterMap_cons_toList,
      Queue.pushAll_append]

/-- The queues after what a handler asks for, as far as it fits. -/
def performed (q : Plumbing τ) (deeds : List Deed) : Plumbing τ :=
  { q with
    requests := q.requests.pushAll (deeds.filterMap Deed.queued?)
    changes := q.changes.pushAll (deeds.filterMap Deed.change?) }

/-- What a handler asks for is done in order, with each of the two queues by itself. -/
theorem value_perform {q : Plumbing τ} (h : q.isOpen = true) (deeds : List Deed) :
    (q.perform deeds).value = q.performed deeds := by
  induction deeds generalizing q with
  | nil => rfl
  | cons deed rest ih =>
    rw [performed, filterMap_cons_toList Deed.queued?, filterMap_cons_toList Deed.change?,
      Queue.pushAll_append, Queue.pushAll_append]
    cases deed with
    | report event =>
      rw [perform, Traced.value_bind, value_emit h, ih (by exact h)]
      rfl
    | queue r =>
      rw [perform, Traced.value_bind, value_request h, ih (by exact h)]
      rfl

end Plumbing

namespace Delivery

variable {τ σ : Type} {d : Delivery τ σ}

/-- A call of a handler on open plumbing. -/
theorem value_call (h : d.plumbing.isOpen = true) (handling : Handling τ σ) (r : Request)
    (s : Nat × τ) :
    (d.call handling r s).value =
      ⟨d.plumbing.performed (handling s r d.state).reports, (handling s r d.state).value,
        d.any⟩ := by
  rw [call, Traced.value_bind, Plumbing.value_perform h]
  rfl

/-- A round without any request does nothing. -/
theorem round_of_nil (h : d.plumbing.queued = []) (handling : Handling τ σ) :
    d.round handling = pure d := by
  rw [round, Queue.pop?_of_nil h]

/-- A round with requests takes the oldest one out and calls the subscribers. -/
theorem round_of_cons {r : Request} {rest : List Request} (h : d.plumbing.queued = r :: rest)
    (handling : Handling τ σ) :
    ∃ left, (d.taken left).plumbing.queued = rest ∧
      d.round handling = (d.taken left).callAll handling r d.plumbing.subscribers := by
  obtain ⟨left, hpop, hleft⟩ := Queue.pop?_of_cons h
  exact ⟨left, hleft, by rw [round, hpop]⟩

end Delivery

/-- Something that is done to a board from outside. -/
inductive BoardAction where
  /-- A location is read on the bus. -/
  | read (initiator : Initiator) (address : Nat) (width : Width)
  /-- A location is written on the bus. -/
  | write (initiator : Initiator) (address : Nat) (value : BitVec 64) (width : Width)
  /-- Something is done to the controller at its handle. -/
  | direct (action : Action)
  /-- A change of an input is queued. -/
  | queue (request : Request)
  /-- The queued changes of inputs are delivered. -/
  | receive
  /-- The changes of output lines are drained. -/
  | drain
  deriving DecidableEq, Repr

namespace Board

variable {cfg : Config}

/-! ### Runs -/

/-- Does something to a board. -/
def step (b : Board cfg) : BoardAction → Traced Note (Board cfg)
  | .read initiator address width => do
    let reply ← b.read initiator address width
    return reply.2
  | .write initiator address value width => do
    let reply ← b.write initiator address value width
    return reply.2
  | .direct action => b.advance fun g => g.step action
  | .queue request => b.request request
  | .receive => do
    let received ← b.receive
    return received.2
  | .drain => pure b.drain.2

/-- The board after an action. -/
def after (b : Board cfg) (a : BoardAction) : Board cfg := (b.step a).value

/-- The board after a run of actions, the first one done first. -/
def afterAll (b : Board cfg) (actions : List BoardAction) : Board cfg := actions.foldl after b

theorem afterAll_append (b : Board cfg) (first second : List BoardAction) :
    b.afterAll (first ++ second) = (b.afterAll first).afterAll second :=
  List.foldl_append

theorem afterAll_concat (b : Board cfg) (actions : List BoardAction) (a : BoardAction) :
    b.afterAll (actions ++ [a]) = (b.afterAll actions).after a :=
  b.afterAll_append actions [a]

/-- What an action asks the controller to do. -/
def asks (b : Board cfg) : BoardAction → List Action
  | .read initiator address width =>
    match b.map.find? address with
    | none => []
    | some r => [.read r.device initiator (address - r.start) width]
  | .write initiator address value width =>
    match b.map.find? address with
    | none => []
    | some r => [.write r.device initiator (address - r.start) value width]
  | .direct action => [action]
  | .receive =>
    b.plumbing.queued.flatMap fun r => b.plumbing.subscribers.map fun _ => .request r
  | .queue _ | .drain => []

/-- The changes of lines that the controller publishes in a run, in order. -/
def published (b : Board cfg) : List BoardAction → List LineChange
  | [] => []
  | a :: rest => b.controller.published (b.asks a) ++ (b.after a).published rest

/-- The changes of lines that the drains of a run return, in order. -/
def drained (b : Board cfg) : List BoardAction → List LineChange
  | [] => []
  | a :: rest => (if a = .drain then b.drain.1 else []) ++ (b.after a).drained rest

/-! ### What an action does -/

/-- What an action does with the queues on its own account. -/
def prepared (b : Board cfg) : BoardAction → Board cfg
  | .queue r =>
    { b with plumbing := { b.plumbing with requests := b.plumbing.requests.push r } }
  | .receive => { b with plumbing := { b.plumbing with requests := .empty } }
  | .drain => { b with plumbing := b.plumbing.clearChanges }
  | .read .. | .write .. | .direct _ => b

/-- The board after a step of its controller that publishes changes. -/
def moved (b : Board cfg) (g : Controller cfg) (changes : List LineChange) : Board cfg :=
  { b with
    controller := g
    plumbing := { b.plumbing with changes := b.plumbing.changes.pushAll changes } }

theorem moved_moved (b : Board cfg) (g h : Controller cfg) (first second : List LineChange) :
    (b.moved g first).moved h second = b.moved h (first ++ second) := by
  simp only [moved, Queue.pushAll_append]

/-- The changes that wait: the oldest of those that waited and of those that were published. -/
theorem waiting_moved (b : Board cfg) (g : Controller cfg) (changes : List LineChange) :
    (b.moved g changes).plumbing.waiting =
      (b.plumbing.waiting ++ changes).take changeCapacity :=
  b.plumbing.changes.toList_pushAll changes

theorem value_perform {b : Board cfg} (h : b.plumbing.isOpen = true) {α : Type}
    (act : Controller cfg → Traced Event (α × Controller cfg)) :
    (b.perform act).value =
      ((act b.controller).value.1,
        b.moved (act b.controller).value.2 (act b.controller).changes) := by
  rw [perform, Traced.value_bind, Plumbing.value_relay h]
  rfl

theorem value_advance {b : Board cfg} (h : b.plumbing.isOpen = true)
    (act : Controller cfg → Traced Event (Controller cfg)) :
    (b.advance act).value = b.moved (act b.controller).value (act b.controller).changes := by
  rw [advance, Traced.value_bind, Plumbing.value_relay h]
  rfl

/-- A delivery after its handlers have made the controller do something. -/
def advanced (d : Delivery Unit (Controller cfg)) (actions : List Action) :
    Delivery Unit (Controller cfg) :=
  { d with
    plumbing :=
      { d.plumbing with changes := d.plumbing.changes.pushAll (d.state.published actions) }
    state := d.state.run actions }

theorem advanced_advanced (d : Delivery Unit (Controller cfg)) (first second : List Action) :
    advanced (advanced d first) second = advanced d (first ++ second) := by
  simp only [advanced, Controller.run_append, Controller.published_append, Queue.pushAll_append]

/-- A call of the controller's handler is handling the request. -/
theorem value_call {d : Delivery Unit (Controller cfg)} (h : d.plumbing.isOpen = true)
    (r : Request) (s : Nat × Unit) :
    (d.call handling r s).value = advanced d [.request r] := by
  have hqueued : ((handling s r d.state).reports.filterMap Deed.queued?) = [] := by
    rw [handling, List.filterMap_map]
    exact List.filterMap_eq_nil_iff.mpr fun _ _ => rfl
  have hchanges : ((handling s r d.state).reports.filterMap Deed.change?) =
      d.state.published [.request r] := by
    rw [handling, List.filterMap_map, Controller.published_singleton]
    rfl
  rw [Delivery.value_call h, Plumbing.performed, hqueued, hchanges]
  rfl

theorem value_callAll {d : Delivery Unit (Controller cfg)} (h : d.plumbing.isOpen = true)
    (r : Request) (subscribers : List (Nat × Unit)) :
    (d.callAll handling r subscribers).value =
      advanced d (subscribers.map fun _ => .request r) := by
  induction subscribers generalizing d with
  | nil => rfl
  | cons s rest ih =>
    rw [Delivery.callAll, Traced.value_bind, value_call h, ih (by exact h), advanced_advanced]
    rfl

/-- A delivery of as many rounds as requests wait hands each of them to every subscriber, and none is
left: the controller queues no request when it is called. -/
theorem value_rounds {d : Delivery Unit (Controller cfg)} (h : d.plumbing.isOpen = true)
    {requests : List Request} (hrequests : d.plumbing.queued = requests) :
    (d.rounds handling requests.length).value =
      advanced
        { d with
          plumbing := { d.plumbing with requests := .empty }
          any := d.any || !requests.isEmpty }
        (requests.flatMap fun r => d.plumbing.subscribers.map fun _ => .request r) := by
  induction requests generalizing d with
  | nil =>
    have hempty : d.plumbing.requests = .empty := Queue.ext_toList hrequests
    obtain ⟨⟨requests, changes, subscribers, isOpen⟩, g, any⟩ := d
    obtain rfl : requests = .empty := hempty
    rw [List.isEmpty_nil, Bool.not_true, Bool.or_false]
    rfl
  | cons r rest ih =>
    obtain ⟨left, hleft, hround⟩ := Delivery.round_of_cons hrequests handling
    rw [List.length_cons, Delivery.rounds, Traced.value_bind, hround, value_callAll (by exact h)]
    refine (ih (by exact h) (by exact hleft)).trans ?_
    rw [List.flatMap_cons, ← advanced_advanced]
    simp only [advanced, Delivery.taken, Bool.true_or, List.isEmpty_cons, Bool.not_false,
      Bool.or_true]

/-- What a read on the bus is, given where it is decoded to. -/
theorem read_eq (b : Board cfg) (i : Initiator) (address : Nat) (width : Width) :
    b.read i address width =
      match b.map.find? address with
      | none => do
        .report (.unmappedRead address width)
        return (.error (.invalidAddress address), b)
      | some r => b.perform fun g => g.read r.device i (address - r.start) width := by
  unfold read MemoryMap.route
  cases b.map.find? address <;> rfl

/-- What a write on the bus is, given where it is decoded to. -/
theorem write_eq (b : Board cfg) (i : Initiator) (address : Nat) (value : BitVec 64)
    (width : Width) :
    b.write i address value width =
      match b.map.find? address with
      | none => do
        .report (.unmappedWrite address value.toNat width)
        return (.error (.invalidAddress address), b)
      | some r => b.perform fun g => g.write r.device i (address - r.start) value width := by
  unfold write MemoryMap.route
  cases b.map.find? address <;> rfl

/-- What a delivery is: the queue is emptied, and the controller handles what was in it. -/
theorem value_receive {b : Board cfg} (h : b.plumbing.isOpen = true) :
    b.receive.value =
      (!b.plumbing.queued.isEmpty,
        (b.prepared .receive).moved (b.controller.run (b.asks .receive))
          (b.controller.published (b.asks .receive))) := by
  have hrounds := value_rounds (d := ⟨b.plumbing, b.controller, false⟩) h rfl
  rw [receive, Traced.value_bind, Plumbing.receive]
  exact congrArg
    (fun d => (d.any, ({ b with controller := d.state, plumbing := d.plumbing } : Board cfg)))
    hrounds

/-- An action prepares the queues, lets the controller do what it is asked and queues what that
publishes. -/
theorem after_eq {b : Board cfg} (h : b.plumbing.isOpen = true) (a : BoardAction) :
    b.after a = (b.prepared a).moved (b.controller.run (b.asks a))
      (b.controller.published (b.asks a)) := by
  cases a with
  | read i address width =>
    rw [after, step, Traced.value_bind, read_eq, asks]
    cases b.map.find? address with
    | none => rfl
    | some r =>
      dsimp only
      rw [Controller.published_singleton, Controller.changes_step_read, value_perform h]
      rfl
  | write i address value width =>
    rw [after, step, Traced.value_bind, write_eq, asks]
    cases b.map.find? address with
    | none => rfl
    | some r =>
      dsimp only
      rw [Controller.published_singleton, Controller.changes_step_write, value_perform h]
      rfl
  | direct action =>
    rw [after, step, asks, Controller.published_singleton, value_advance h]
    rfl
  | queue r =>
    rw [after, step, request, Traced.value_bind, Plumbing.value_request h]
    rfl
  | receive =>
    rw [after, step, Traced.value_bind, value_receive h]
    rfl
  | drain => rfl

/-! ### What no action changes -/

/-- How a board is connected: its map has the windows on it, and the controller alone is handed
what is queued. -/
structure Wired (b : Board cfg) : Prop where
  /-- The windows are mapped. -/
  serves : b.map.Serves cfg
  /-- The controller is subscribed, and nobody else. -/
  subscribers : b.plumbing.subscribers = [(controllerDevice, ())]
  /-- Requests and changes are received. -/
  isOpen : b.plumbing.isOpen = true

theorem Wired.after {b : Board cfg} (h : b.Wired) (a : BoardAction) : (b.after a).Wired := by
  rw [after_eq h.isOpen]
  cases a <;> exact ⟨h.serves, h.subscribers, h.isOpen⟩

theorem Wired.afterAll {b : Board cfg} (h : b.Wired) (actions : List BoardAction) :
    (b.afterAll actions).Wired := by
  induction actions generalizing b with
  | nil => exact h
  | cons a rest ih => exact ih (h.after a)

/-- A board is connected when it is built, and its controller is at power-on. -/
theorem wired_of_build {b : Board cfg} (h : build cfg = .ok b) :
    b.Wired ∧ b.controller = .powerOn cfg ∧ b.plumbing.waiting = [] := by
  obtain ⟨map, hserves, hbuild⟩ := build_of_valid (validate_of_build h)
  obtain rfl := Except.ok.inj (hbuild.symm.trans h)
  exact ⟨⟨hserves, rfl, rfl⟩, rfl, rfl⟩

/-- A delivery hands each queued request to the controller once, the oldest one first. -/
theorem asks_receive {b : Board cfg} (h : b.Wired) :
    b.asks .receive = b.plumbing.queued.map .request := by
  rw [asks, h.subscribers, List.map_eq_flatMap]
  rfl

/-! ### What an action does with the controller and with the changes that wait -/

theorem controller_after {b : Board cfg} (h : b.Wired) (a : BoardAction) :
    (b.after a).controller = b.controller.run (b.asks a) :=
  congrArg controller (after_eq h.isOpen a)

theorem waiting_after {b : Board cfg} (h : b.Wired) {a : BoardAction} (ha : a ≠ .drain) :
    (b.after a).plumbing.waiting =
      (b.plumbing.waiting ++ b.published [a]).take changeCapacity := by
  have hwaiting : (b.prepared a).plumbing.waiting = b.plumbing.waiting := by
    cases a with
    | drain => exact absurd rfl ha
    | _ => rfl
  rw [after_eq h.isOpen, waiting_moved, hwaiting, published, published, List.append_nil]

theorem waiting_after_drain (b : Board cfg) : (b.after .drain).plumbing.waiting = [] := rfl

/-! ### What a run publishes -/

theorem published_append (b : Board cfg) (first second : List BoardAction) :
    b.published (first ++ second) = b.published first ++ (b.afterAll first).published second := by
  induction first generalizing b with
  | nil => rfl
  | cons a rest ih => rw [List.cons_append, published, ih, published, List.append_assoc]; rfl

end Board

end Gic
