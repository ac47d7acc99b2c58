import Gic.Bus.MemoryMap
import Gic.Controller
import Gic.Plumbing

/-!
# The board

A board connects the controller to a bus, on which its four windows are mapped,
and to the plumbing for its input and output lines.

## The model

An access on the bus is routed to the window that contains its address and
performed there at the offset in the window. Whatever the controller reports is
logged, and the changes of output lines among it are published (`relay`). The
controller is the one subscriber to the requests.
-/

namespace Gic

/-- The device number of the controller. -/
def controllerDevice : Nat := 0

/-- A board with a controller on it. -/
structure Board (cfg : Config) where
  /-- The controller. -/
  controller : Controller cfg
  /-- Its windows on the bus. -/
  map : MemoryMap Interface
  /-- The queues around it. -/
  plumbing : Plumbing Unit

/-- Why a board cannot be built. -/
inductive BoardError where
  /-- The configuration is not valid. -/
  | config (error : ConfigError)
  /-- The windows cannot be mapped. -/
  | map (error : MapError)
  deriving DecidableEq

namespace BoardError

/-- The sentence that reports the error. -/
def message : BoardError → String
  | config e => e.message
  | map e => e.message

/-- The error as a value on one line. -/
def shown : BoardError → String
  | config e => e.shown
  | map e => e.shown

end BoardError

namespace Board

variable {cfg : Config}

/-- The regions of the windows; a window that would reach past the last address has none. -/
def windowRegions (cfg : Config) : List (Region Interface) :=
  Interface.all.filterMap fun window =>
    (Region.make (cfg.base window) window.windowSize window).toOption

/-- Builds a board. -/
def build (cfg : Config) : Except BoardError (Board cfg) :=
  match cfg.validate with
  | .error e => .error (.config e)
  | .ok () =>
    match MemoryMap.empty.addAll (windowRegions cfg) with
    | .error e => .error (.map e)
    | .ok map =>
      .ok
        { controller := .powerOn cfg
          map
          plumbing :=
            { (Plumbing.new : Plumbing Unit) with subscribers := [(controllerDevice, ())] } }

/-- Lets the controller do something: what it reports is logged and published. -/
def perform {α : Type} (b : Board cfg) (act : Controller cfg → Traced Event (α × Controller cfg)) :
    Traced Note (α × Board cfg) := do
  let done := act b.controller
  let plumbing ← b.plumbing.relay done.reports
  return (done.value.1, { b with controller := done.value.2, plumbing })

/-- Lets the controller do something that yields no value. -/
def advance (b : Board cfg) (act : Controller cfg → Traced Event (Controller cfg)) :
    Traced Note (Board cfg) := do
  let done := act b.controller
  let plumbing ← b.plumbing.relay done.reports
  return { b with controller := done.value, plumbing }

/-- Reads on the bus. -/
def read (b : Board cfg) (initiator : Initiator) (address : Nat) (width : Width) :
    Traced Note (Except BusError Word × Board cfg) := do
  match ← b.map.route ⟨initiator, address, width, .read⟩ with
  | .error e => return (.error e, b)
  | .ok (window, t) => b.perform fun g => g.read window t.initiator t.address t.width

/-- Writes on the bus. -/
def write (b : Board cfg) (initiator : Initiator) (address : Nat) (value : BitVec 64)
    (width : Width) : Traced Note (Except BusError Unit × Board cfg) := do
  match ← b.map.route ⟨initiator, address, width, .write value⟩ with
  | .error e => return (.error e, b)
  | .ok (window, t) => b.perform fun g => g.write window t.initiator t.address value t.width

/-- Queues a change of an input. -/
def request (b : Board cfg) (r : Request) : Traced Note (Board cfg) := do
  let plumbing ← b.plumbing.request r
  return { b with plumbing }

/-- What the controller does when it is called with a request. -/
def handling : Handling Unit (Controller cfg) := fun _ r g =>
  ⟨(g.handle r).value, (g.handle r).reports.map .report⟩

/-- Receives all queued requests; says whether there were any. The controller queues none itself, so
there are as many rounds as requests. -/
def receive (b : Board cfg) : Traced Note (Bool × Board cfg) := do
  let d ← b.plumbing.receive handling b.controller b.plumbing.requests.items.size
  return (d.any, { b with controller := d.state, plumbing := d.plumbing })

/-- Drains the changes of output lines, oldest first. -/
def drain (b : Board cfg) : List LineChange × Board cfg :=
  (b.plumbing.waiting, { b with plumbing := b.plumbing.clearChanges })

end Board

end Gic
