import Gic.Proofs.Deliveries

/-!
# Queued changes of inputs act like direct ones

A device queues the changes of its interrupt lines, by the number of the
interrupt, and they reach the controller later, all at once. On the way they pass
a bounded queue and the table of those who have subscribed to it, and the numbers
are taken apart into the private inputs of a CPU and the shared ones. Since a
rising edge is told from the level before it, one change too many, or two of them
in the wrong order, would be seen.

## The model

* `Request.direct?` — the change of an input that a queued request stands for.
* `Board.DeliversDirectly` — to queue requests and to receive them is to make
  these changes one after the other.

## What is proved

* `Controller.step_request` — to handle a request is to make the change that it
  stands for, and `Controller.run_requests` the same for a list of them.
* `Board.deliversDirectly` — queued requests that fit act like direct changes, on
  the whole board.
* `queued_acts_like_direct` — this on every board, after any run; and what is handed
  to any set of subscribers, whose handlers may queue requests themselves.
-/

namespace Gic

/-! ### What a request stands for -/

/-- The change of an input that a request stands for. Software generated interrupts have no input,
and a private input is one of CPU 0 if no CPU is named. -/
def Request.direct? (r : Request) : Option Action :=
  if r.irq < numSgis then none
  else if r.irq < numPrivate then some (.ppi (r.cpu.getD 0) (r.irq - numSgis) r.level)
  else some (.spi (r.irq - numPrivate) r.level)

namespace Controller

variable {cfg : Config}

/-- Handling a request is making the change that it stands for. -/
theorem step_request (g : Controller cfg) (r : Request) :
    (g.step (.request r)).value = g.run r.direct?.toList ∧
      (g.step (.request r)).changes = g.published r.direct?.toList := by
  show (g.handle r).value = _ ∧ (g.handle r).changes = _
  unfold handle Request.direct?
  by_cases hsgi : r.irq < numSgis
  · rw [if_pos hsgi, if_pos hsgi]
    exact ⟨rfl, rfl⟩
  · rw [if_neg hsgi, if_neg hsgi]
    by_cases hprivate : r.irq < numPrivate
    · rw [if_pos hprivate, if_pos hprivate]
      refine ⟨rfl, ?_⟩
      rw [Traced.changes_bind, Traced.changes_reportIf, List.nil_append]
      exact (published_singleton g (.ppi _ _ _)).symm
    · rw [if_neg hprivate, if_neg hprivate]
      exact ⟨rfl, (published_singleton g (.spi _ _)).symm⟩

/-- Handling requests one after the other is making their changes one after the other. -/
theorem run_requests (g : Controller cfg) (requests : List Request) :
    g.run (requests.map .request) = g.run (requests.filterMap Request.direct?) ∧
      g.published (requests.map .request) = g.published (requests.filterMap Request.direct?) := by
  induction requests generalizing g with
  | nil => exact ⟨rfl, rfl⟩
  | cons r rest ih =>
    obtain ⟨hvalue, hchanges⟩ := step_request g r
    obtain ⟨hrun, hpublished⟩ := ih (g.run r.direct?.toList)
    have hsplit := filterMap_cons_toList Request.direct? r rest
    have hafter : g.after (.request r) = g.run r.direct?.toList := hvalue
    constructor
    · rw [hsplit, run_append, ← hrun, ← hafter]
      rfl
    · rw [hsplit, published_append, ← hpublished, List.map_cons, published, hchanges, hafter]

end Controller

/-! ### A board -/

namespace Board

variable {cfg : Config}

/-- The board after changes of inputs that are made one after the other. -/
theorem afterAll_direct {b : Board cfg} (h : b.plumbing.isOpen = true) (actions : List Action) :
    b.afterAll (actions.map .direct) =
      b.moved (b.controller.run actions) (b.controller.published actions) := by
  induction actions generalizing b with
  | nil => rfl
  | cons a rest ih =>
    have hafter : b.after (.direct a) = b.moved (b.controller.after a)
        (b.controller.published [a]) := after_eq h (.direct a)
    have hrest := ih (b := b.after (.direct a)) (by rw [hafter]; exact h)
    rw [List.map_cons]
    refine hrest.trans ?_
    rw [hafter, moved_moved, Controller.published_singleton]
    rfl

/-- Changes that are made directly publish what the controller publishes. -/
theorem published_direct {b : Board cfg} (h : b.Wired) (actions : List Action) :
    b.published (actions.map .direct) = b.controller.published actions := by
  induction actions generalizing b with
  | nil => rfl
  | cons a rest ih =>
    rw [List.map_cons, published, ih (h.after _), controller_after h, asks,
      Controller.published_singleton]
    rfl

/-- Queueing requests changes nothing but the queue. -/
theorem afterAll_queue {b : Board cfg} (h : b.plumbing.isOpen = true) (requests : List Request) :
    b.afterAll (requests.map .queue) =
      { b with plumbing := { b.plumbing with
        requests := b.plumbing.requests.pushAll requests } } := by
  induction requests generalizing b with
  | nil => rfl
  | cons r rest ih =>
    have hafter : b.after (.queue r) = _ := after_eq h (.queue r)
    have hrest := ih (b := b.after (.queue r)) (by rw [hafter]; exact h)
    rw [List.map_cons]
    refine hrest.trans ?_
    rw [hafter]
    rfl

theorem published_queue {b : Board cfg} (requests : List Request) :
    b.published (requests.map .queue) = [] := by
  induction requests generalizing b with
  | nil => rfl
  | cons r rest ih => exact ih

/-- To queue requests and to receive them is to make the changes that they stand for, one after the
other. -/
structure DeliversDirectly (b : Board cfg) (requests : List Request) : Prop where
  /-- The board is the same afterwards: the controller, the changes of lines that wait, and all
  else. -/
  board : b.afterAll (requests.map .queue ++ [.receive]) =
    b.afterAll ((requests.filterMap Request.direct?).map .direct)
  /-- The same changes of lines are published, in the same order. -/
  published : b.published (requests.map .queue ++ [.receive]) =
    b.published ((requests.filterMap Request.direct?).map .direct)
  /-- It is told whether there was anything to receive. -/
  told : (b.afterAll (requests.map .queue)).receive.value.1 = true ↔ requests ≠ []
  /-- Nothing is left in the queue. -/
  emptied : (b.afterAll (requests.map .queue ++ [.receive])).plumbing.requests = .empty

theorem deliversDirectly {b : Board cfg} (h : b.Wired) (hnone : b.plumbing.requests = .empty)
    {requests : List Request} (hfits : requests.length ≤ requestCapacity) :
    b.DeliversDirectly requests := by
  have hqueue := afterAll_queue h.isOpen requests
  have hwired := h.afterAll (requests.map .queue)
  -- All of the requests are in the queue, and nothing else.
  have hwaits : (b.afterAll (requests.map .queue)).plumbing.queued = requests := by
    rw [hqueue, hnone]
    refine (Queue.toList_pushAll .empty requests).trans ?_
    exact List.take_of_length_le hfits
  have hasks : (b.afterAll (requests.map .queue)).asks .receive = requests.map .request := by
    rw [asks_receive hwired, hwaits]
  have hsame : (b.afterAll (requests.map .queue)).controller = b.controller := by rw [hqueue]
  -- Once they are taken out, the queues are as they were.
  have hback : (b.afterAll (requests.map .queue)).prepared .receive = b := by
    rw [hqueue, prepared]
    obtain ⟨controller, map, queue, changes, subscribers, isOpen⟩ := b
    obtain rfl : queue = .empty := hnone
    rfl
  obtain ⟨hrun, hpublished⟩ := b.controller.run_requests requests
  have hboard : b.afterAll (requests.map .queue ++ [.receive]) =
      b.afterAll ((requests.filterMap Request.direct?).map .direct) := by
    rw [afterAll_concat, after_eq hwired.isOpen, hasks, hsame, hback, hrun, hpublished,
      afterAll_direct h.isOpen]
  refine ⟨hboard, ?_, ?_, ?_⟩
  · rw [published_append, published_queue, List.nil_append, Board.published, Board.published,
      List.append_nil, hasks, hsame, hpublished, published_direct h]
  · rw [value_receive hwired.isOpen, hwaits, Bool.not_eq_true', List.isEmpty_eq_false_iff]
  · rw [hboard, afterAll_direct h.isOpen]
    exact hnone

/-- On every board that is built, whatever was done to it: if no request waits, requests that fit
the queue act like the direct changes that they stand for. And whatever was done to the plumbing
alone, with handlers of any kind: the oldest requests that fit the queue wait, what was queued beyond
that is dropped, and a delivery calls every subscriber once with each request, those included that
are queued meanwhile and fit, in order. -/
theorem queued_acts_like_direct :
    (∀ (cfg : Config) (built : Board cfg), build cfg = .ok built → ∀ actions,
      (built.afterAll actions).plumbing.requests = .empty →
      ∀ requests, requests.length ≤ requestCapacity →
        (built.afterAll actions).DeliversDirectly requests) ∧
    ∀ (τ σ : Type) (handling : Handling τ σ) (start : σ) (before recent : List (PlumbingAction τ)),
      (∀ n, .receive n ∉ recent) →
      ((Exchange.new start).afterAll handling (before ++ recent)).HandsOut handling
        (before ++ recent)
        ((((Exchange.new start).afterAll handling before).plumbing.queued ++
          recent.filterMap PlumbingAction.queued?).take requestCapacity) := by
  constructor
  · intro cfg built hbuild actions hnone requests hfits
    obtain ⟨hwired, -, -⟩ := wired_of_build hbuild
    exact deliversDirectly (hwired.afterAll actions) hnone hfits
  · intro τ σ handling start before recent hno
    exact Exchange.handsOut_run handling start before recent hno

/-- A request for an SGI, and two for a shared interrupt that is triggered by its level: the line
goes up and down. Of two handlers of device 3 the later one is called, before that of device 5, which
answers each of the two rising inputs with a request of its own: five rounds with two calls each. -/
theorem queued_acts_like_direct_level :
    let setup : List Action :=
      [.write .distributor (.cpu 0) 0x000 1 .word, .write .cpuInterface (.cpu 0) 0x00 1 .word,
        .write .cpuInterface (.cpu 0) 0x04 0xf0 .word, .write .distributor (.cpu 0) 0x104 1 .word,
        .write .distributor (.cpu 0) 0x820 1 .byte]
    let requests : List Request := [⟨3, none, true⟩, ⟨32, none, true⟩, ⟨32, some 7, false⟩]
    let handling : Handling Nat Nat := fun s r calls =>
      ⟨calls + 1, if s.2 = 50 ∧ r.level then [.queue { r with level := false }] else []⟩
    let subscriptions : List (PlumbingAction Nat) :=
      [.subscribe 5 50, .subscribe 3 30, .subscribe 3 31]
    let queued : List (PlumbingAction Nat) := requests.map .queue
    (∃ built, build Config.standard = .ok built ∧
      let b := built.afterAll (setup.map .direct)
      b.DeliversDirectly requests ∧
        b.published (requests.map .queue ++ [.receive]) = [⟨0, .irq, true⟩, ⟨0, .irq, false⟩]) ∧
      let x := (Exchange.new 0).afterAll handling (subscriptions ++ queued)
      x.plumbing.subscribers = [(3, 31), (5, 50)] ∧
        x.HandsOut handling (subscriptions ++ queued) requests ∧
        (x.plumbing.receive handling x.state 9).value.plumbing.queued = [] ∧
        (x.plumbing.receive handling x.state 9).value.state = 10 := by
  intro setup requests handling subscriptions queued
  obtain ⟨hdirect, hhanded⟩ := queued_acts_like_direct
  constructor
  · have hv : Config.standard.validate = .ok () := by decide
    obtain ⟨map, hserves, hbuild⟩ := build_of_valid hv
    refine ⟨_, hbuild, ?_⟩
    intro b
    have hwired := ((wired_of_build hbuild).1).afterAll (setup.map .direct)
    have hnone : b.plumbing.requests = .empty := by
      show (Board.afterAll _ _).plumbing.requests = .empty
      rw [afterAll_direct rfl]
      rfl
    have hcontroller : b.controller = (Controller.powerOn _).run setup := by
      show (Board.afterAll _ _).controller = _
      rw [afterAll_direct rfl]
      rfl
    have hdelivers : b.DeliversDirectly requests :=
      hdirect _ _ hbuild _ hnone requests (by decide)
    refine ⟨hdelivers, ?_⟩
    rw [hdelivers.published, published_direct hwired, hcontroller]
    decide +kernel
  · have hno : ∀ n, .receive n ∉ queued := by
      intro n hmem
      obtain ⟨r, -, hr⟩ := List.mem_map.mp hmem
      cases hr
    refine ⟨rfl, hhanded Nat Nat handling 0 subscriptions queued hno, ?_, ?_⟩
    · decide +kernel
    · decide +kernel

end Board

end Gic
