import Gic.Trace.Note
import Gic.Trace.Traced

/-!
# Interrupt plumbing

Devices do not drive the inputs of the controller themselves: they queue
requests, which are handed to every subscriber when they are received. Changes
of output lines are queued as well, until somebody drains them. Both queues are
bounded; what does not fit is dropped.

## The model

A queue is a first-in first-out list of bounded length. A delivery is a loop:
each round takes the oldest request out and calls every subscriber with it, in
ascending order of the device number (`Delivery.round`), and the loop ends when
no request is left. What a handler does is a function of the request and of a
state that it acts on (`Handling`). Meanwhile it may publish changes of lines and
queue further requests, which are handed out in later rounds; so the loop need
not end, and `receive` is bounded by a number of rounds. After `close` nobody
will ever receive anything, so nothing is queued any more.
-/

namespace Gic

/-- A first-in first-out queue of at most `capacity` items. -/
structure Queue (capacity : Nat) (α : Type) where
  /-- The items, oldest first. -/
  items : Array α
  /-- They fit. -/
  fits : items.size ≤ capacity

namespace Queue

variable {capacity : Nat} {α : Type}

/-- A queue with nothing in it. -/
def empty : Queue capacity α := ⟨#[], Nat.zero_le _⟩

instance : Inhabited (Queue capacity α) := ⟨empty⟩

/-- Whether nothing more fits. -/
def isFull (q : Queue capacity α) : Bool := decide (capacity ≤ q.items.size)

/-- Puts an item last; one that does not fit is dropped. -/
def push (q : Queue capacity α) (item : α) : Queue capacity α :=
  if h : q.items.size < capacity then
    ⟨q.items.push item, by rw [Array.size_push]; exact h⟩
  else q

/-- Takes the oldest item out, if there is one. -/
def pop? (q : Queue capacity α) : Option (α × Queue capacity α) :=
  q.items[0]?.map fun item =>
    (item, ⟨q.items.extract 1 q.items.size, by
      have := q.fits
      rw [Array.size_extract]
      omega⟩)

end Queue

/-- How many requests can be queued. -/
def requestCapacity : Nat := 1024 * 1024

/-- How many changes of output lines can wait to be drained. -/
def changeCapacity : Nat := 1024

/-- Something that a handler of requests does. -/
inductive Deed where
  /-- It reports an event. -/
  | report (event : Event)
  /-- It queues a change of an input. -/
  | queue (request : Request)

/-- What the handlers do: the one of a subscriber, called with a request, acts on a state. -/
abbrev Handling (τ σ : Type) := Nat × τ → Request → σ → Traced Deed σ

/-- The queues between devices, the controller and the CPUs, with a handler of type `τ` for
each subscribed device. -/
structure Plumbing (τ : Type) where
  /-- The requests that were not yet received. -/
  requests : Queue requestCapacity Request
  /-- The changes of output lines that were not yet drained. -/
  changes : Queue changeCapacity LineChange
  /-- The subscribed devices with their handlers, in ascending order. -/
  subscribers : List (Nat × τ)
  /-- Whether anybody can still receive. -/
  isOpen : Bool

namespace Plumbing

variable {τ : Type}

/-- Nothing is queued and nobody is subscribed. -/
def new : Plumbing τ := ⟨.empty, .empty, [], true⟩

/-- Why a request cannot be queued now. -/
def refusal? (q : Plumbing τ) : Option DropReason :=
  if !q.isOpen then some .closed
  else if q.requests.isFull then some .full
  else none

/-- Queues a change of an input. -/
def request (q : Plumbing τ) (r : Request) : Traced Note (Plumbing τ) := do
  match q.refusal? with
  | some reason =>
    .report (.requestDropped r reason)
    return q
  | none => return { q with requests := q.requests.push r }

/-- Publishes a change of an output line. -/
def publish (q : Plumbing τ) (change : LineChange) : Traced Note (Plumbing τ) := do
  if !q.isOpen then
    .report (.noListener change)
    return q
  else if q.changes.isFull then
    .report (.changeDropped change)
    return q
  else return { q with changes := q.changes.push change }

/-- Logs an event that is reported; a change of a line is published. -/
def emit (q : Plumbing τ) (event : Event) : Traced Note (Plumbing τ) := do
  .report event.toNote
  match event.change? with
  | none => return q
  | some change => q.publish change

/-- Logs what the controller reports, and publishes the changes of lines among it. -/
def relay (q : Plumbing τ) : List Event → Traced Note (Plumbing τ)
  | [] => pure q
  | event :: rest => do
    let q ← q.emit event
    q.relay rest

/-- The requests that wait, oldest first. -/
def queued (q : Plumbing τ) : List Request := q.requests.items.toList

/-- The changes of output lines that wait, oldest first. -/
def waiting (q : Plumbing τ) : List LineChange := q.changes.items.toList

/-- Takes all changes of output lines out. -/
def clearChanges (q : Plumbing τ) : Plumbing τ := { q with changes := .empty }

/-- Puts a handler in its place among handlers in ascending order, over an earlier one of the
same device. -/
def insert (device : Nat) (handler : τ) : List (Nat × τ) → List (Nat × τ)
  | [] => [(device, handler)]
  | s :: rest =>
    if device < s.1 then (device, handler) :: s :: rest
    else if device = s.1 then (device, handler) :: rest
    else s :: insert device handler rest

/-- Subscribes a device to the requests. -/
def subscribe (q : Plumbing τ) (device : Nat) (handler : τ) : Traced Note (Plumbing τ) := do
  .reportIf (q.subscribers.any fun s => s.1 == device) (.handlerReplaced device)
  return { q with subscribers := insert device handler q.subscribers }

/-- Does what a handler asks for. -/
def perform (q : Plumbing τ) : List Deed → Traced Note (Plumbing τ)
  | [] => pure q
  | .report event :: rest => do
    let q ← q.emit event
    q.perform rest
  | .queue r :: rest => do
    let q ← q.request r
    q.perform rest

/-- Nobody receives anything any more. -/
def close (q : Plumbing τ) : Plumbing τ := { q with isOpen := false }

/-- The subscribers as a value on one line. -/
def shownSubscribers (q : Plumbing τ) : String :=
  "subscribers: " ++ Text.shownList (q.subscribers.map fun s => toString s.1) ++ ", .. \x7d"

end Plumbing

/-- How far a delivery has come. -/
structure Delivery (τ σ : Type) where
  /-- The queues. -/
  plumbing : Plumbing τ
  /-- What the handlers act on. -/
  state : σ
  /-- Whether there was anything to receive. -/
  any : Bool

namespace Delivery

variable {τ σ : Type}

/-- Calls a subscriber with a request. -/
def call (handling : Handling τ σ) (r : Request) (d : Delivery τ σ) (s : Nat × τ) :
    Traced Note (Delivery τ σ) := do
  let done := handling s r d.state
  let plumbing ← d.plumbing.perform done.reports
  return { d with plumbing, state := done.value }

/-- Calls subscribers with a request, one after the other. -/
def callAll (handling : Handling τ σ) (r : Request) (d : Delivery τ σ) :
    List (Nat × τ) → Traced Note (Delivery τ σ)
  | [] => pure d
  | s :: rest => do
    let d ← d.call handling r s
    d.callAll handling r rest

/-- A delivery that has taken a request out, with the requests that are left. -/
def taken (d : Delivery τ σ) (requests : Queue requestCapacity Request) : Delivery τ σ :=
  { d with plumbing := { d.plumbing with requests }, any := true }

/-- Takes the oldest request out and calls every subscriber with it; if there is none, there is
nothing to do. -/
def round (handling : Handling τ σ) (d : Delivery τ σ) : Traced Note (Delivery τ σ) :=
  match d.plumbing.requests.pop? with
  | none => pure d
  | some (r, left) => (d.taken left).callAll handling r d.plumbing.subscribers

/-- A number of rounds. -/
def rounds (handling : Handling τ σ) (d : Delivery τ σ) : Nat → Traced Note (Delivery τ σ)
  | 0 => pure d
  | n + 1 => do
    let d ← d.round handling
    d.rounds handling n

end Delivery

/-- Receives the queued requests, in so many rounds at most. -/
def Plumbing.receive {τ σ : Type} (q : Plumbing τ) (handling : Handling τ σ) (s : σ) (n : Nat) :
    Traced Note (Delivery τ σ) :=
  Delivery.rounds handling ⟨q, s, false⟩ n

end Gic
