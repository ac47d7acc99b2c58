/-!
# Severities and subsystems of the event log

Every log record has a severity, from errors down to the trace of each register
access, and may name the subsystem that it concerns.
-/

namespace Gic

/-- The severity of a log record, the most severe first. -/
inductive Level where
  /-- Something that must not happen has happened. -/
  | error
  /-- A request was not understood and is ignored. -/
  | warn
  /-- What the program is doing. -/
  | info
  /-- What the controller is doing. -/
  | debug
  /-- Every register access and every arbitration. -/
  | trace
  deriving DecidableEq, Repr

namespace Level

/-- The severities, the most severe first. -/
def all : List Level := [error, warn, info, debug, trace]

/-- How many severities are at least this severe. -/
def rank : Level → Nat
  | error => 1
  | warn => 2
  | info => 3
  | debug => 4
  | trace => 5

/-- The word that begins a log line. -/
def label : Level → String
  | error => "ERROR"
  | warn => "WARN"
  | info => "INFO"
  | debug => "DEBUG"
  | trace => "TRACE"

/-- The name of the severity. -/
def name : Level → String
  | error => "error"
  | warn => "warn"
  | info => "info"
  | debug => "debug"
  | trace => "trace"

end Level

/-- A subsystem whose records can be asked for by name. -/
inductive Item where
  /-- Arbitration between pending interrupts. -/
  | arbiter
  /-- The registers of the CPU interfaces. -/
  | cpuInterface
  /-- The registers of the distributor. -/
  | distributor
  /-- Accesses that reach no device. -/
  | memory
  /-- The steps of a scenario. -/
  | replay
  /-- The registers of the virtual CPU interfaces. -/
  | vcpuInterface
  /-- The registers of the virtual interface control. -/
  | vifControl
  deriving DecidableEq, Repr

namespace Item

/-- The subsystems, in the order of their names. -/
def all : List Item :=
  [arbiter, cpuInterface, distributor, memory, replay, vcpuInterface, vifControl]

/-- The name of the subsystem. -/
def name : Item → String
  | arbiter => "arbiter"
  | cpuInterface => "cpu_interface"
  | distributor => "distributor"
  | memory => "memory"
  | replay => "replay"
  | vcpuInterface => "vcpu_interface"
  | vifControl => "vif_control"

/-- The name of the subsystem on a command line. -/
def word : Item → String
  | arbiter => "arbiter"
  | cpuInterface => "cpu-interface"
  | distributor => "distributor"
  | memory => "memory"
  | replay => "replay"
  | vcpuInterface => "vcpu-interface"
  | vifControl => "vif-control"

/-- The subsystem as a value on one line. -/
def shown : Item → String
  | arbiter => "Arbiter"
  | cpuInterface => "CpuInterface"
  | distributor => "Distributor"
  | memory => "Memory"
  | replay => "Replay"
  | vcpuInterface => "VcpuInterface"
  | vifControl => "VifControl"

/-- The subsystem of that name. -/
def ofName? (text : String) : Option Item := all.find? fun item => item.name == text

/-- The subsystem that a command line calls so. -/
def ofWord? (text : String) : Option Item := all.find? fun item => item.word == text

/-- The sentence that refuses a name no subsystem has. -/
def unknownName : String := "Expected one of " ++ ", ".intercalate (all.map name)

end Item

end Gic
