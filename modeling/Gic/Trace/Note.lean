import Gic.Bus.Transaction
import Gic.Interrupt.State
import Gic.Line
import Gic.Register.ListEntry
import Gic.Scenario.Step
import Gic.Trace.Level

/-!
# What the event log says

Everything the controller, its board and the command line report is one of the
notes below: a note says what happened, not how it is worded.

## The model

`level`, `item`, `message` and `fields` say how a note is logged: how severe it
is, under which subsystem if any, with which sentence and with which fields. A
note about a register access or an arbitration has fields and no sentence, any
other has a sentence and no fields.
-/

namespace Gic

/-- Why a queued request was dropped. -/
inductive DropReason where
  /-- The queue is full. -/
  | full
  /-- Nobody will ever receive it. -/
  | closed
  deriving DecidableEq, Repr

/-- The text of the reason. -/
def DropReason.message : DropReason → String
  | full => "sending on a full channel"
  | closed => "sending on a closed channel"

/-- A half of the controller that arbitrates on its own. -/
inductive Domain where
  /-- The physical interrupts. -/
  | physical
  /-- The virtual interrupts. -/
  | virtual
  deriving DecidableEq, Repr

/-- The name of the half. -/
def Domain.name : Domain → String
  | physical => "physical"
  | virtual => "virtual"

/-- The outcome of an arbitration for one CPU. -/
structure Arbitration where
  /-- The interrupt that won, `spurious` if there is none. -/
  winner : Nat
  /-- Its priority. -/
  priority : Priority
  /-- The priority mask. -/
  mask : Priority
  /-- The running priority. -/
  running : Priority
  /-- The level of the output line. -/
  level : Bool
  deriving DecidableEq, Repr

/-- Something that is reported. -/
inductive Note where
  /-- A register was read. -/
  | registerRead (window : Interface) (cpu offset : Nat) (width : Width) (register : String)
      (value : Nat)
  /-- A register is written. -/
  | registerWritten (window : Interface) (cpu offset : Nat) (width : Width) (register : String)
      (value : Nat)
  /-- Arbitration was done for a CPU. -/
  | arbitrated (domain : Domain) (cpu : Nat) (outcome : Arbitration)
  /-- An output line changes. -/
  | lineChanged (change : LineChange)
  /-- An access by none of the connected CPUs. -/
  | unmappedInitiator (initiator : Initiator)
  /-- A private input that is not connected takes a level. -/
  | ppiNotConnected (cpu index : Nat)
  /-- A shared input that is not connected takes a level. -/
  | spiNotConnected (index : Nat)
  /-- A queued request names an interrupt that has no input. -/
  | sgiWithoutInput (request : Request)
  /-- A queued request for a private input names no CPU. -/
  | requestWithoutCpu (request : Request)
  /-- An input takes a level. -/
  | inputDriven (irq : Nat) (mask : CpuMask) (level : Bool)
  /-- The state of an interrupt that does not exist is looked at. -/
  | invalidLookup (irq : Nat)
  /-- The state of an interrupt that does not exist is changed. -/
  | invalidUpdate (irq : Nat)
  /-- A set is built of a CPU that does not exist. -/
  | noSuchCpu (cpu : Nat)
  /-- The distributor enables other groups. -/
  | distributorEnables (before after : GroupEnables)
  /-- A write to a set-active register has no effect. -/
  | activeNotWritable
  /-- An interrupt takes a trigger. -/
  | triggerConfigured (irq : Nat) (trigger : Trigger)
  /-- The target filter of a software generated interrupt has no meaning. -/
  | badTargetFilter (cpu : Nat)
  /-- A software generated interrupt is raised. -/
  | sgiRaised (cpu sgi : Nat) (targets : CpuMask)
  /-- A CPU interface enables other groups. -/
  | interfaceEnables (cpu : Nat) (before after : GroupEnables)
  /-- A register of the window ignores writes. -/
  | writeIgnored (window : Interface) (register : String)
  /-- The pending interrupt is not urgent enough to be acknowledged. -/
  | cannotPreempt (domain : Domain) (cpu irq : Nat) (priority running : Priority)
  /-- A software generated interrupt is pending and no CPU has sent it. -/
  | sgiWithoutSource (cpu sgi : Nat)
  /-- An interrupt was acknowledged. -/
  | acknowledged (domain : Domain) (cpu irq : Nat) (priority : Priority)
  /-- An interrupt that cannot exist is completed. -/
  | invalidCompletion (domain : Domain) (cpu irq : Nat)
  /-- An interrupt is completed while none is active. -/
  | nothingToComplete (cpu irq : Nat)
  /-- An interrupt is completed that this CPU has not acknowledged. -/
  | notAcknowledged (cpu irq : Nat)
  /-- An interrupt is completed before the one that preempted it. -/
  | outOfOrder (cpu irq : Nat) (running : Option Nat)
  /-- An interrupt was completed. -/
  | completed (cpu irq : Nat) (running : Priority)
  /-- The virtual interface of a CPU is enabled, or disabled. -/
  | virtualEnable (cpu : Nat) (value : Bool)
  /-- A list register refuses a physical interrupt that cannot back a virtual one. -/
  | listRefused (cpu index : Nat) (entry : ListEntry)
  /-- A list register is written. -/
  | listWritten (cpu index : Nat) (entry : ListEntry)
  /-- No list register holds the virtual interrupt. -/
  | noListRegister (irq : Nat)
  /-- A guest asks for features that its CPU interface does not have. -/
  | unknownFeatures (cpu value : Nat)
  /-- A virtual interrupt was completed. -/
  | virtualCompleted (cpu irq : Nat)
  /-- A virtual interrupt is backed by a physical one that cannot exist. -/
  | invalidBacking (cpu irq physical : Nat)
  /-- A request was not queued. -/
  | requestDropped (request : Request) (reason : DropReason)
  /-- A change of an output line was not published, as too many wait to be read. -/
  | changeDropped (change : LineChange)
  /-- Nobody will read a change of an output line. -/
  | noListener (change : LineChange)
  /-- Another handler takes the requests of a device. -/
  | handlerReplaced (device : Nat)
  /-- No device is mapped where a read goes. -/
  | unmappedRead (address : Nat) (width : Width)
  /-- No device is mapped where a write goes. -/
  | unmappedWrite (address value : Nat) (width : Width)
  /-- A step of a scenario is run. -/
  | replaying (index : Nat) (step : Step)
  /-- The controller was built. -/
  | built (cpus spis : Nat)
  /-- A device tree was written. -/
  | deviceTreeWritten (path : String)
  /-- A change of an output line that a scenario caused. -/
  | published (change : LineChange)
  deriving DecidableEq, Repr

/-- The value of a field of a log record. -/
inductive FieldValue where
  /-- A text. -/
  | text (text : String)
  /-- Any other value, as it is shown. -/
  | shown (text : String)
  deriving DecidableEq, Repr

namespace Note

/-- How severe the note is. -/
def level : Note → Level
  | registerRead .. | registerWritten .. | arbitrated .. | writeIgnored .. | noListener .. =>
    .trace
  | invalidLookup .. | invalidUpdate .. | noSuchCpu .. | sgiWithoutSource .. | listRefused ..
  | noListRegister .. | unknownFeatures .. | invalidBacking .. => .error
  | unmappedInitiator .. | ppiNotConnected .. | spiNotConnected .. | sgiWithoutInput ..
  | requestWithoutCpu .. | badTargetFilter .. | invalidCompletion .. | nothingToComplete ..
  | notAcknowledged .. | requestDropped .. | handlerReplaced .. | unmappedRead ..
  | unmappedWrite .. => .warn
  | built .. | deviceTreeWritten .. => .info
  | lineChanged .. | inputDriven .. | distributorEnables .. | activeNotWritable
  | triggerConfigured .. | sgiRaised .. | interfaceEnables .. | cannotPreempt ..
  | acknowledged .. | outOfOrder .. | completed .. | virtualEnable .. | listWritten ..
  | virtualCompleted .. | changeDropped .. | replaying .. | published .. => .debug

/-- The subsystem that the note is logged under. -/
def item : Note → Option Item
  | registerRead window .. | registerWritten window .. => some window.item
  | arbitrated .. => some .arbiter
  | unmappedRead .. | unmappedWrite .. => some .memory
  | replaying .. => some .replay
  | _ => none

/-- How a CPU is called where a half of the controller speaks of it. -/
def cpuWord : Domain → String
  | .physical => "cpu "
  | .virtual => "vcpu "

/-- How an interrupt is called where a half of the controller speaks of it. -/
def irqWord : Domain → String
  | .physical => "irq "
  | .virtual => "virtual irq "

/-- The sentence of the note, empty if it has fields instead. -/
def message : Note → String
  | registerRead .. | registerWritten .. | arbitrated .. | unmappedRead .. | unmappedWrite ..
  | replaying .. => ""
  | lineChanged change =>
    s!"cpu {change.cpu} {change.kind.shown} line -> {change.level}"
  | unmappedInitiator initiator =>
    s!"access from unmapped initiator {initiator.shown}, using cpu 0"
  | ppiNotConnected cpu index => s!"ppi {index} of cpu {cpu} is not connected, ignored"
  | spiNotConnected index => s!"spi {index} is not connected, ignored"
  | sgiWithoutInput request =>
    s!"sgi {request.irq} has no input line, request {request.shown} ignored"
  | requestWithoutCpu request =>
    s!"request {request.shown} for a ppi names no cpu, using cpu 0"
  | inputDriven irq mask level => s!"irq {irq} input {mask.shown} level -> {level}"
  | invalidLookup irq => s!"access to state of invalid irq {irq}"
  | invalidUpdate irq => s!"update of state of invalid irq {irq}"
  | noSuchCpu cpu => s!"cpu {cpu} does not exist, using an empty cpu mask"
  | distributorEnables before after =>
    "(ctlr) distributor enable " ++ before.shown "DistributorControl" ++ " -> "
      ++ after.shown "DistributorControl"
  | activeNotWritable => "(isactiver) active state is not software writable, ignored"
  | triggerConfigured irq trigger => s!"irq {irq} configured to be {trigger.shown} sensitive"
  | badTargetFilter cpu => s!"(sgir) cpu {cpu}: bad SGI target filter, ignored"
  | sgiRaised cpu sgi targets => s!"(sgir) cpu {cpu} raises sgi {sgi} on {targets.shown}"
  | interfaceEnables cpu before after =>
    s!"(ctlr) cpu {cpu} interface enable " ++ before.shown "CpuInterfaceControl" ++ " -> "
      ++ after.shown "CpuInterfaceControl"
  | writeIgnored .vcpuInterface register => s!"(vcpu interface) write to {register} ignored"
  | writeIgnored window register =>
    s!"({window.title}) write to read-only {register} ignored"
  | cannotPreempt domain cpu irq priority running =>
    "(iar) " ++ cpuWord domain ++ toString cpu ++ ": " ++ irqWord domain ++ toString irq
      ++ " priority " ++ Text.hex priority.toNat ++ " cannot preempt running priority "
      ++ Text.hex running.toNat
  | sgiWithoutSource cpu sgi =>
    s!"(iar) cpu {cpu}: sgi {sgi} is pending without a source cpu"
  | acknowledged domain cpu irq priority =>
    "(iar) " ++ cpuWord domain ++ toString cpu ++ " acknowledged " ++ irqWord domain
      ++ toString irq ++ " at priority " ++ Text.hex priority.toNat
  | invalidCompletion domain cpu irq =>
    "(eoir) " ++ cpuWord domain ++ toString cpu ++ ": invalid " ++ irqWord domain
      ++ toString irq ++ ", ignored"
  | nothingToComplete cpu irq =>
    s!"(eoir) cpu {cpu}: irq {irq} completed with no active irq"
  | notAcknowledged cpu irq =>
    s!"(eoir) cpu {cpu}: irq {irq} is not active on this cpu, ignored"
  | outOfOrder cpu irq running =>
    s!"(eoir) cpu {cpu}: out of order completion of irq {irq}, running irq stays "
      ++ Text.shownOption (running.map toString)
  | completed cpu irq running =>
    s!"(eoir) cpu {cpu} completed irq {irq}, running priority " ++ Text.hex running.toNat
  | virtualEnable cpu value =>
    s!"(hcr) cpu {cpu} virtual interface enable -> " ++ (if value then "1" else "0")
  | listRefused cpu index entry =>
    s!"(lr{index}) cpu {cpu}: invalid physical irq {entry.physicalId} for virtual irq "
      ++ toString entry.virtualId ++ ", ignored"
  | listWritten cpu index entry => s!"(lr{index}) cpu {cpu} <- {entry.shown}"
  | noListRegister irq => s!"no list register holds virtual irq {irq}"
  | unknownFeatures cpu value =>
    s!"(ctlr) cpu {cpu}: unimplemented virtual cpu interface features requested: "
      ++ Text.hex value
  | virtualCompleted cpu irq => s!"(eoir) vcpu {cpu} completed virtual irq {irq}"
  | invalidBacking cpu irq physical =>
    s!"(eoir) vcpu {cpu}: virtual irq {irq} is backed by invalid physical irq {physical}"
  | requestDropped request reason =>
    s!"dropped interrupt request {request.shown}: {reason.message}"
  | changeDropped change => s!"signal queue full, dropped {change.shown}"
  | noListener change => s!"no listener for {change.shown}"
  | handlerReplaced device => s!"device {device} replaced its interrupt request handler"
  | built cpus spis => s!"GIC-400 with {cpus} cpus, {spis} spis"
  | deviceTreeWritten path => s!"wrote device tree to {path}"
  | published change => change.shown

/-- The fields that an access to a register window is logged with; only the distributor
takes accesses of more than one width, so only there the width is said. -/
def accessFields (window : Interface) (kind : String) (cpu offset : Nat) (width : Width)
    (register : String) (value : Nat) : List (String × FieldValue) :=
  [("kind", .text kind), ("cpu", .shown (toString cpu)), ("offset", .shown (Text.hex offset))]
    ++ (if window = .distributor then [("width", .shown width.shown)] else [])
    ++ [("field", .text register), ("value", .shown (Text.hexAndBinary value))]

/-- The fields of the note, in order. -/
def fields : Note → List (String × FieldValue)
  | registerRead window cpu offset width register value =>
    accessFields window (window.title ++ " read") cpu offset width register value
  | registerWritten window cpu offset width register value =>
    accessFields window (window.title ++ " write") cpu offset width register value
  | arbitrated domain cpu outcome =>
    [("kind", .text domain.name), ("cpu", .shown (toString cpu)),
      ("hppir", .shown (toString outcome.winner)),
      ("prio", .shown (toString outcome.priority.toNat)),
      ("pmr", .shown (toString outcome.mask.toNat)),
      ("rpr", .shown (toString outcome.running.toNat)),
      ("level", .shown (Text.shownBool outcome.level))]
  | unmappedRead address width =>
    [("kind", .text "unmapped read"), ("address", .shown (Text.hex address)),
      ("width", .shown width.shown)]
  | unmappedWrite address value width =>
    [("kind", .text "unmapped write"), ("address", .shown (Text.hex address)),
      ("value", .shown (Text.hexAndBinary value)), ("width", .shown width.shown)]
  | replaying index step =>
    [("step", .shown (toString index)), ("op", .shown step.shown)]
  | _ => []

end Note

/-- What the controller reports: something for the log, or a change of an output line, which
is published as well. -/
inductive Event where
  /-- Something for the log. -/
  | note (note : Note)
  /-- An output line changes. -/
  | line (change : LineChange)
  deriving DecidableEq, Repr

namespace Event

/-- What the log says of the event. -/
def toNote : Event → Note
  | note n => n
  | line change => .lineChanged change

/-- The change of an output line that the event is. -/
def change? : Event → Option LineChange
  | note _ => none
  | line change => some change

end Event

end Gic
