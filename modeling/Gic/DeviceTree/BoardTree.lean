import Gic.Config
import Gic.DeviceTree.Writer

/-!
# The device tree of a board

The tree says where the controller's windows are, which CPUs there are and to
which private inputs the timer of each CPU is connected.

## The model

An interrupt is described by three cells: its kind, `1` for a private input,
its number, and its trigger, with a bit for each CPU where it is connected.
-/

namespace Gic.DeviceTree

/-- The number by which other nodes refer to the controller. -/
def controllerHandle : Nat := 0x8002

/-- The private input to which the maintenance interrupt is connected. -/
def maintenanceInput : Nat := 9

/-- The private inputs to which the secure, the non-secure, the virtual and the hypervisor
timer are connected. -/
def timerInputs : List Nat := [13, 14, 11, 10]

/-- The cells of a private input that is level-sensitive and connected at the CPUs whose bit is
set in `mask`. -/
def privateInput (mask input : Nat) : List Nat := [1, input, mask <<< 8 ||| 4]

/-- The base addresses and sizes of the windows. -/
def windows (cfg : Config) : List Nat :=
  Interface.all.flatMap fun window => [cfg.base window, window.windowSize]

/-- The node of the controller. -/
def controllerNode (cfg : Config) (handle : Nat) : Node :=
  .node ("interrupt-controller@" ++ Text.hexDigits cfg.distributor)
    [.text "compatible" "arm,gic-400",
      .cells "#interrupt-cells" [3],
      .cells "#address-cells" [2],
      .cells "#size-cells" [2],
      .flag "interrupt-controller",
      .cellPairs "reg" (windows cfg),
      .cells "interrupts" (privateInput (CpuMask.first cfg.cpus).toNat maintenanceInput),
      .cells "phandle" [handle]]
    []

/-- The node of a CPU. -/
def cpuNode (cpu : Nat) : Node :=
  .node ("cpu@" ++ Text.hexDigits cpu)
    [.text "device_type" "cpu",
      .text "compatible" "arm,arm-v8",
      .cells "reg" [cpu]]
    []

/-- The node of all CPUs. -/
def cpusNode (cfg : Config) : Node :=
  .node "cpus"
    [.cells "#address-cells" [1],
      .cells "#size-cells" [0]]
    ((List.range cfg.cpus).map cpuNode)

/-- The node of the timers. -/
def timerNode (cfg : Config) : Node :=
  .node "timer"
    [.cells "interrupts" (timerInputs.flatMap (privateInput (1 <<< cfg.cpus - 1))),
      .flag "always-on",
      .text "compatible" "arm,armv8-timer"]
    []

/-- The tree of a board. -/
def boardTree (cfg : Config) : Node :=
  .node ""
    [.cells "interrupt-parent" [controllerHandle],
      .text "model" "linux,dummy-virt",
      .text "compatible" "linux,dummy-virt",
      .cells "#address-cells" [2],
      .cells "#size-cells" [2]]
    [controllerNode cfg controllerHandle, cpusNode cfg, timerNode cfg]

end Gic.DeviceTree
