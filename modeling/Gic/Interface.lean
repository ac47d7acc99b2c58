import Gic.Trace.Level

/-!
# Register windows

The controller is reached through four windows of registers: the distributor
(`GICD`), the CPU interfaces (`GICC`), the virtual interface control (`GICH`)
by which a hypervisor injects interrupts, and the virtual CPU interfaces
(`GICV`) that its guests use. All but the distributor are banked: each CPU sees
its own registers at the same addresses.
-/

namespace Gic

/-- One of the four register windows. -/
inductive Interface where
  /-- The distributor, `GICD`. -/
  | distributor
  /-- The CPU interface, `GICC`. -/
  | cpuInterface
  /-- The virtual interface control, `GICH`. -/
  | vifControl
  /-- The virtual CPU interface, `GICV`. -/
  | vcpuInterface
  deriving DecidableEq, Repr

namespace Interface

/-- The windows, in the order in which they are listed everywhere. -/
def all : List Interface := [distributor, cpuInterface, vifControl, vcpuInterface]

/-- The place of the window in that order. -/
def index : Interface → Nat
  | distributor => 0
  | cpuInterface => 1
  | vifControl => 2
  | vcpuInterface => 3

/-- The size of the window in bytes. -/
def windowSize : Interface → Nat
  | distributor | vifControl => 0x1000
  | cpuInterface | vcpuInterface => 0x2000

/-- The name of the window. -/
def name : Interface → String
  | distributor => "distributor"
  | cpuInterface => "cpu_interface"
  | vifControl => "vif_control"
  | vcpuInterface => "vcpu_interface"

/-- The name of the window in running text. -/
def title : Interface → String
  | distributor => "distributor"
  | cpuInterface => "cpu interface"
  | vifControl => "vif control"
  | vcpuInterface => "vcpu interface"

/-- The window as a value on one line. -/
def shown : Interface → String
  | distributor => "Distributor"
  | cpuInterface => "CpuInterface"
  | vifControl => "VifControl"
  | vcpuInterface => "VcpuInterface"

/-- The window of that name. -/
def ofName? (text : String) : Option Interface := all.find? fun window => window.name == text

/-- The subsystem that the window's accesses are logged under. -/
def item : Interface → Item
  | distributor => .distributor
  | cpuInterface => .cpuInterface
  | vifControl => .vifControl
  | vcpuInterface => .vcpuInterface

end Interface

end Gic
