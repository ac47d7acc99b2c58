import Gic.DeviceTree.BoardTree
import Gic.Proofs.AddressText
import Gic.Proofs.Decoding
import Gic.Proofs.TreeReading
import Mathlib.Algebra.Order.BigOperators.Group.List
import Mathlib.Data.List.Flatten

/-!
# The device tree describes the configured board

An operating system learns from the device tree where the controller's windows
are, which CPUs there are and where their timers are connected. This module shows
that every board that can be built has a device tree that can be written, and
that a reader of the blob finds the configuration in it.

## The model

* `Node.cells?`, `Node.wides?`, `Node.text?` — the value of a property as its
  reader understands it.
* `Node.weight` — a bound on the bytes that a node takes up, from which it follows
  that all sizes fit into cells.
* `Describes` — what the tree of a board has to say, in terms of what is read.

## What is proved

* `totalSize_le` — a tree takes up no more than its weight and the blocks in
  front.
* `write_boardTree` — the tree of a board that can be built is written.
* `toNat_first` — the CPUs are counted in two ways, for the controller and for the
  timers, with the same result.
* `blob_describes_board` — the blob is written and read back as a tree that
  describes the board.
-/

namespace Gic.DeviceTree

/-! ### What a reader finds in a node -/

/-- The numbers of 64 bits that cells consist of. -/
def wideCells? : List Nat → Option (List Nat)
  | [] => some []
  | high :: low :: rest => (wideCells? rest).map (wide high low :: ·)
  | _ => none

/-- The text that bytes consist of, with a zero byte after it and nothing else. -/
def wholeText? (bytes : Bytes) : Option String :=
  (readText? bytes).filter fun text => terminated text == bytes

namespace Node

/-- The value of a property. -/
def value? (n : Node) (name : String) : Option Bytes :=
  (n.properties.find? fun p => p.name == name).map Property.value

/-- The value of a property, as cells. -/
def cells? (n : Node) (name : String) : Option (List Nat) := n.value? name >>= readCells?

/-- The value of a property, as numbers of 64 bits. -/
def wides? (n : Node) (name : String) : Option (List Nat) := n.cells? name >>= wideCells?

/-- The value of a property, as a text. -/
def text? (n : Node) (name : String) : Option String := n.value? name >>= wholeText?

end Node

theorem wholeText?_terminated {text : String} (h : '\x00' ∉ text.toList) :
    wholeText? (terminated text) = some text := by
  have hread := readText?_terminated h []
  rw [List.append_nil] at hread
  simp [wholeText?, hread]

theorem cell_mod (n : Nat) : cell (n % 2 ^ 32) = cell n := by
  simp only [cell, List.cons.injEq, ← UInt8.toNat_inj, UInt8.toNat_ofNat', and_true,
    Nat.shiftRight_eq_div_pow]
  omega

theorem wideCells?_flatMap {values : List Nat} (h : ∀ n ∈ values, n < 2 ^ 64) :
    readCells? (values.flatMap cellPair) >>= wideCells? = some values := by
  have hcells : values.flatMap cellPair
      = (values.flatMap fun n => [n >>> 32, n % 2 ^ 32]).flatMap cell := by
    simp only [List.flatMap_assoc, List.flatMap_cons, List.flatMap_nil, List.append_nil, cell_mod]
    rfl
  have hsmall : ∀ m ∈ values.flatMap fun n => [n >>> 32, n % 2 ^ 32], m < 2 ^ 32 := by
    simp only [List.mem_flatMap, List.mem_cons, List.not_mem_nil, or_false]
    rintro m ⟨n, hn, rfl | rfl⟩
    · have := h n hn
      rw [Nat.shiftRight_eq_div_pow]
      omega
    · exact Nat.mod_lt n (by decide)
  rw [hcells, readCells?_flatMap hsmall, Option.bind_eq_bind, Option.bind_some]
  clear hcells hsmall h
  induction values with
  | nil => rfl
  | cons n values ih =>
    have hn : wide (n >>> 32) (n % 2 ^ 32) = n := by
      rw [wide, Nat.shiftRight_eq_div_pow]
      omega
    calc wideCells? ((n :: values).flatMap fun n => [n >>> 32, n % 2 ^ 32])
        = (wideCells? (values.flatMap fun n => [n >>> 32, n % 2 ^ 32])).map
            (wide (n >>> 32) (n % 2 ^ 32) :: ·) := rfl
      _ = some (n :: values) := by rw [ih, hn, Option.map_some]

/-! ### Sizes -/

theorem length_filled_le (bytes : Bytes) : (filled bytes).length ≤ bytes.length + 3 := by
  rw [filled, filling, List.length_append, List.length_replicate]
  omega

/-- The bytes that a property takes up at most, with its name. -/
def Property.weight (p : Property) : Nat := (terminated p.name).length + p.value.length + 15

mutual

/-- The bytes that a node takes up at most, with the names of its properties. -/
def Node.weight : Node → Nat
  | .node name properties children =>
    (terminated name).length + 11 + (properties.map Property.weight).sum + weightOfAll children

/-- The bytes that several nodes take up at most. -/
def weightOfAll : List Node → Nat
  | [] => 0
  | n :: rest => n.weight + weightOfAll rest

end

theorem properties_le_weight (names : List String) (properties : List Property) :
    (properties.flatMap (Property.flatten names)).length
        + ((properties.map Property.name).flatMap terminated).length
      ≤ (properties.map Property.weight).sum := by
  induction properties with
  | nil => simp
  | cons p properties ih =>
    have hvalue := length_filled_le p.value
    simp only [List.flatMap_cons, List.map_cons, List.sum_cons, List.length_append, length_cell,
      Property.flatten, Property.weight] at ih ⊢
    omega

mutual

theorem node_le_weight (names : List String) : ∀ n : Node,
    (n.flatten names).length + (n.uses.flatMap terminated).length ≤ n.weight
  | .node name properties children => by
    have hname := length_filled_le (terminated name)
    have hproperties := properties_le_weight names properties
    have hchildren := nodes_le_weight names children
    simp only [Node.flatten, Node.uses, Node.weight, List.flatMap_append, List.length_append,
      length_cell] at *
    omega

theorem nodes_le_weight (names : List String) : ∀ nodes : List Node,
    (flattenAll names nodes).length + ((usesOfAll nodes).flatMap terminated).length
      ≤ weightOfAll nodes
  | [] => Nat.le_refl 0
  | n :: nodes => by
    have hn := node_le_weight names n
    have hnodes := nodes_le_weight names nodes
    simp only [flattenAll, usesOfAll, weightOfAll, List.flatMap_append, List.length_append] at *
    omega

end

theorem eraseDups_sublist (names : List String) : names.eraseDups.Sublist names := by
  induction h : names.length using Nat.strongRecOn generalizing names with
  | ind n ih =>
    cases names with
    | nil => exact List.nil_sublist _
    | cons name names =>
      rw [List.eraseDups_cons]
      have hlen := List.length_filter_le (fun b => !b == name) names
      rw [List.length_cons] at h
      exact ((ih _ (by omega) _ rfl).trans List.filter_sublist).cons_cons name

theorem totalSize_le (root : Node) : totalSize root ≤ root.weight + 60 := by
  have hnames : (namesBlock root).length ≤ (root.uses.flatMap terminated).length :=
    ((eraseDups_sublist root.uses).flatMap terminated).length_le
  have hroot := node_le_weight root.names root
  simp only [totalSize, namesOffset, structureOffset, reservedOffset, headerSize, structureBlock,
    List.length_append, length_cell]
  omega

theorem check_properties {properties : List Property} (names : List String)
    (hmap : properties.map Property.name = names)
    (hnames : names.all (isName isPropertyChar ·.toList) = true)
    (hsize : (properties.map Property.weight).sum ≤ 1000) : ∀ p ∈ properties, p.check = .ok () := by
  intro p hp
  have hname := List.all_eq_true.mp hnames _ (hmap ▸ List.mem_map_of_mem hp)
  have hweight : p.weight ≤ (properties.map Property.weight).sum :=
    List.le_sum_of_mem (List.mem_map_of_mem hp)
  rw [Property.weight] at hweight
  exact Property.check_eq_ok_iff.mpr ⟨hname, by omega⟩

/-! ### The board's tree can be written -/

theorem isNodeName_append (proper unit : String) (hproper : isName isNodeChar proper.toList = true)
    (hunit : unit.toList.all isNodeChar = true) : isNodeName (proper ++ "@" ++ unit) = true := by
  have hnot : ∀ c ∈ proper.toList, (c != '@') = true := by
    intro c hc
    have hchar := List.all_eq_true.mp (Bool.and_eq_true _ _ ▸ hproper).2 c hc
    exact bne_iff_ne.mpr fun heq => absurd (heq ▸ hchar) (by decide)
  rw [isNodeName]
  simp only [String.toList_append, List.append_assoc]
  rw [List.takeWhile_append_of_pos hnot, List.dropWhile_append_of_pos hnot]
  simp [hproper, hunit]

theorem all_isNodeChar_toDigits (n : Nat) : (Nat.toDigits 16 n).all isNodeChar = true := by
  have hdigit : ∀ d < 16, isNodeChar d.digitChar = true := by decide
  induction n using Nat.strongRecOn with
  | ind n ih =>
    rw [Nat.toDigits_eq_if (by decide)]
    split
    next hlt => simp [hdigit n hlt]
    next hge => simp [ih (n / 16) (by omega), hdigit (n % 16) (by omega)]

theorem all_isNodeChar_hexDigits (n : Nat) : (Text.hexDigits n).toList.all isNodeChar = true := by
  rw [Text.hexDigits, String.toList_ofList]
  exact all_isNodeChar_toDigits n

theorem utf8ByteSize_ofList_le (chars : List Char) :
    (String.ofList chars).utf8ByteSize ≤ 4 * chars.length := by
  induction chars with
  | nil => exact Nat.le_refl 0
  | cons c chars ih =>
    have hc := c.utf8Size_le_four
    rw [String.ofList_cons, String.utf8ByteSize_append, List.length_cons]
    simp only [String.utf8ByteSize_singleton]
    omega

theorem utf8ByteSize_hexDigits_le {n : Nat} (h : n < 2 ^ 64) :
    (Text.hexDigits n).utf8ByteSize ≤ 64 := by
  have hdigits : (Nat.toDigits 16 n).length ≤ 16 :=
    (Nat.length_toDigits_le_iff (by decide) (by decide)).mpr h
  have := utf8ByteSize_ofList_le (Nat.toDigits 16 n)
  rw [Text.hexDigits]
  omega

/-- The weight of a node whose name ends with a number of 64 bits. -/
theorem weight_numbered_le {proper : String} {n : Nat} (h : n < 2 ^ 64) (properties : List Property)
    (children : List Node) :
    (Node.node (proper ++ Text.hexDigits n) properties children).weight
      ≤ proper.utf8ByteSize + (properties.map Property.weight).sum + weightOfAll children + 76 := by
  have := utf8ByteSize_hexDigits_le h
  rw [Node.weight, length_terminated, String.utf8ByteSize_append]
  omega

theorem weightOfAll_le {nodes : List Node} {bound : Nat} (h : ∀ n ∈ nodes, n.weight ≤ bound) :
    weightOfAll nodes ≤ nodes.length * bound := by
  induction nodes with
  | nil => exact Nat.zero_le _
  | cons n nodes ih =>
    obtain ⟨hn, h⟩ := List.forall_mem_cons.mp h
    rw [weightOfAll, List.length_cons, Nat.succ_mul]
    have := ih h
    omega

theorem checkAll_eq_ok {depth : Nat} {nodes : List Node} (h : ∀ n ∈ nodes, n.check depth = .ok ()) :
    checkAll depth nodes = .ok () := by
  induction nodes with
  | nil => rfl
  | cons n nodes ih =>
    obtain ⟨hn, h⟩ := List.forall_mem_cons.mp h
    exact checkAll_cons_eq_ok_iff.mpr ⟨hn, ih h⟩

/-! #### Node by node -/

theorem sum_weight_controllerNode (cfg : Config) (handle : Nat) :
    ((controllerNode cfg handle).properties.map Property.weight).sum = 323 := by
  have hreg : (Property.cellPairs "reg" (windows cfg)).weight = 83 := rfl
  have hinterrupts : (Property.cells "interrupts"
      (privateInput (CpuMask.first cfg.cpus).toNat maintenanceInput)).weight = 38 := rfl
  simp only [controllerNode, Node.properties, List.map_cons, List.map_nil, List.sum_cons,
    List.sum_nil, hreg, hinterrupts]
  rfl

theorem weight_controllerNode_le {cfg : Config} (h : cfg.distributor < 2 ^ 64) (handle : Nat) :
    (controllerNode cfg handle).weight ≤ 420 := by
  have hproperties := sum_weight_controllerNode cfg handle
  calc (controllerNode cfg handle).weight
      ≤ 21 + ((controllerNode cfg handle).properties.map Property.weight).sum + 0 + 76 :=
        weight_numbered_le h _ []
    _ = 420 := by rw [hproperties]

theorem check_controllerNode (cfg : Config) (handle : Nat) {depth : Nat} (h : depth < maxDepth) :
    (controllerNode cfg handle).check depth = .ok () := by
  have hname := isNodeName_append "interrupt-controller" (Text.hexDigits cfg.distributor)
    (by decide) (all_isNodeChar_hexDigits _)
  have hsize := sum_weight_controllerNode cfg handle
  have hproperties := check_properties ["compatible", "#interrupt-cells", "#address-cells",
    "#size-cells", "interrupt-controller", "reg", "interrupts", "phandle"] rfl (by decide)
    (by rw [hsize]; decide)
  rw [controllerNode, Node.check_eq_ok_iff]
  exact ⟨h, hname, hproperties, rfl⟩

theorem weight_cpuNode_le {cpu : Nat} (h : cpu < 2 ^ 64) : (cpuNode cpu).weight ≤ 171 :=
  weight_numbered_le h _ []

theorem check_cpuNode (cpu : Nat) {depth : Nat} (h : depth < maxDepth) :
    (cpuNode cpu).check depth = .ok () := by
  rw [cpuNode, Node.check_eq_ok_iff]
  have hname := isNodeName_append "cpu" (Text.hexDigits cpu) (by decide)
    (all_isNodeChar_hexDigits _)
  exact ⟨h, hname, check_properties ["device_type", "compatible", "reg"] rfl (by decide)
    (Nat.le_of_ble_eq_true rfl), rfl⟩

theorem weight_cpusNode_le {cfg : Config} (h : cfg.cpus ≤ maxCpus) :
    (cpusNode cfg).weight ≤ 81 + maxCpus * 171 := by
  have hcpu : ∀ n ∈ (List.range cfg.cpus).map cpuNode, n.weight ≤ 171 := by
    intro n hn
    obtain ⟨cpu, hcpu, rfl⟩ := List.mem_map.mp hn
    have hlt := Nat.lt_of_lt_of_le (List.mem_range.mp hcpu) h
    exact weight_cpuNode_le (Nat.lt_trans hlt (by decide))
  have hall := weightOfAll_le hcpu
  rw [List.length_map, List.length_range] at hall
  calc (cpusNode cfg).weight = 81 + weightOfAll ((List.range cfg.cpus).map cpuNode) := rfl
    _ ≤ 81 + cfg.cpus * 171 := Nat.add_le_add_left hall 81
    _ ≤ 81 + maxCpus * 171 := by omega

theorem check_cpusNode (cfg : Config) {depth : Nat} (h : depth + 1 < maxDepth) :
    (cpusNode cfg).check depth = .ok () := by
  have hcpus : ∀ n ∈ (List.range cfg.cpus).map cpuNode, n.check (depth + 1) = .ok () := by
    intro n hn
    obtain ⟨cpu, -, rfl⟩ := List.mem_map.mp hn
    exact check_cpuNode cpu h
  rw [cpusNode, Node.check_eq_ok_iff]
  exact ⟨Nat.lt_of_succ_lt h, by decide, check_properties ["#address-cells", "#size-cells"] rfl
    (by decide) (Nat.le_of_ble_eq_true rfl), checkAll_eq_ok hcpus⟩

theorem weight_timerNode (cfg : Config) : (timerNode cfg).weight = 158 := by
  have hsum : ((timerNode cfg).properties.map Property.weight).sum = 141 := rfl
  rw [timerNode, Node.properties] at hsum
  rw [timerNode, Node.weight, hsum]
  rfl

theorem check_timerNode (cfg : Config) {depth : Nat} (h : depth < maxDepth) :
    (timerNode cfg).check depth = .ok () := by
  rw [timerNode, Node.check_eq_ok_iff]
  exact ⟨h, by decide, check_properties ["interrupts", "always-on", "compatible"] rfl (by decide)
    (Nat.le_of_ble_eq_true rfl), rfl⟩

theorem check_boardTree (cfg : Config) : (boardTree cfg).check 0 = .ok () := by
  have hchildren : ∀ n ∈ [controllerNode cfg controllerHandle, cpusNode cfg, timerNode cfg],
      n.check 1 = .ok () := by
    simp only [List.forall_mem_cons]
    exact ⟨check_controllerNode cfg _ (by decide), check_cpusNode cfg (by decide),
      check_timerNode cfg (by decide), List.forall_mem_nil _⟩
  rw [boardTree, Node.check_eq_ok_iff]
  exact ⟨by decide, by decide, check_properties ["interrupt-parent", "model", "compatible",
    "#address-cells", "#size-cells"] rfl (by decide) (Nat.le_of_ble_eq_true rfl),
    checkAll_eq_ok hchildren⟩

/-- Every valid configuration has a device tree that can be written. -/
theorem write_boardTree {cfg : Config} (h : cfg.validate = .ok ()) :
    write (boardTree cfg) = .ok (flatten (boardTree cfg)) := by
  have hbase := Nat.lt_of_le_of_lt (Nat.le_add_right ..) (Config.stop_lt_of_validate h .distributor)
  have hcontroller := weight_controllerNode_le hbase controllerHandle
  have hcpus := weight_cpusNode_le (Config.bounds_of_validate h).2.1
  have hweight : (boardTree cfg).weight = 194 + ((controllerNode cfg controllerHandle).weight
      + ((cpusNode cfg).weight + ((timerNode cfg).weight + 0))) := rfl
  have hsize := totalSize_le (boardTree cfg)
  rw [hweight, weight_timerNode] at hsize
  refine bind_eq_ok_iff.mpr ⟨check_boardTree cfg, if_neg ?_⟩
  rw [maxCpus] at hcpus
  omega

/-! ### What the tree says -/

/-- A node tells of the controller of a configuration: where its windows are, that its maintenance
interrupt is the private input 9 of the CPUs in `mask`, and that it is known by `handle`. -/
structure DescribesController (cfg : Config) (mask handle : Nat) (n : Node) : Prop where
  name : n.name = "interrupt-controller@" ++ Text.hexDigits cfg.distributor
  compatible : n.text? "compatible" = some "arm,gic-400"
  interruptCells : n.cells? "#interrupt-cells" = some [3]
  reg : n.wides? "reg" = some (Interface.all.flatMap fun w => [cfg.base w, w.windowSize])
  interrupts : n.cells? "interrupts" = some [1, 9, mask <<< 8 ||| 4]
  phandle : n.cells? "phandle" = some [handle]
  children : n.children = []

/-- A node tells of a CPU. -/
structure DescribesCpu (cpu : Nat) (n : Node) : Prop where
  name : n.name = "cpu@" ++ Text.hexDigits cpu
  deviceType : n.text? "device_type" = some "cpu"
  reg : n.cells? "reg" = some [cpu]
  children : n.children = []

/-- A node tells of the CPUs of a configuration, in ascending order. -/
structure DescribesCpus (cfg : Config) (n : Node) : Prop where
  name : n.name = "cpus"
  children : List.Forall₂ DescribesCpu (List.range cfg.cpus) n.children

/-- A node tells of the four timers of the CPUs in `mask`. -/
structure DescribesTimer (mask : Nat) (n : Node) : Prop where
  name : n.name = "timer"
  interrupts : n.cells? "interrupts" = some
    [1, 13, mask <<< 8 ||| 4, 1, 14, mask <<< 8 ||| 4, 1, 11, mask <<< 8 ||| 4,
      1, 10, mask <<< 8 ||| 4]
  children : n.children = []

/-- A root has the five properties of a board whose interrupt controller is known by `handle`. -/
structure DescribesBoard (handle : Nat) (root : Node) : Prop where
  name : root.name = ""
  properties : root.properties.map Property.name =
    ["interrupt-parent", "model", "compatible", "#address-cells", "#size-cells"]
  interruptParent : root.cells? "interrupt-parent" = some [handle]
  model : root.text? "model" = some "linux,dummy-virt"
  compatible : root.text? "compatible" = some "linux,dummy-virt"
  addressCells : root.cells? "#address-cells" = some [2]
  sizeCells : root.cells? "#size-cells" = some [2]

/-- A tree tells of a configuration: inside the root are the nodes of the controller, of the CPUs
and of the timers, the CPUs are those connected wherever there is a mask of them, and the
controller is known by the number that the root refers to. -/
def Describes (cfg : Config) (root : Node) : Prop :=
  ∃ mask handle controller cpus timer,
    (∀ cpu, mask.testBit cpu = true ↔ cpu < cfg.cpus) ∧
    DescribesBoard handle root ∧
    root.children = [controller, cpus, timer] ∧
    DescribesController cfg mask handle controller ∧
    DescribesCpus cfg cpus ∧
    DescribesTimer mask timer

theorem cells?_eq_some {n : Node} {name : String} {values : List Nat}
    (hvalue : n.value? name = some (values.flatMap cell)) (h : ∀ v ∈ values, v < 2 ^ 32) :
    n.cells? name = some values := by
  rw [Node.cells?, hvalue]
  exact readCells?_flatMap h

theorem wides?_eq_some {n : Node} {name : String} {values : List Nat}
    (hvalue : n.value? name = some (values.flatMap cellPair)) (h : ∀ v ∈ values, v < 2 ^ 64) :
    n.wides? name = some values := by
  rw [Node.wides?, Node.cells?, hvalue]
  exact wideCells?_flatMap h

theorem text?_eq_some {n : Node} {name text : String}
    (hvalue : n.value? name = some (terminated text)) (h : '\x00' ∉ text.toList) :
    n.text? name = some text := by
  rw [Node.text?, hvalue]
  exact wholeText?_terminated h

/-- The two ways of counting the connected CPUs give the same mask. -/
theorem toNat_first {cpus : Nat} (h : cpus ≤ maxCpus) :
    (CpuMask.first cpus).toNat = 1 <<< cpus - 1 := by
  apply Nat.eq_of_testBit_eq
  intro i
  rw [← BitVec.getLsbD, CpuMask.getLsbD_first, Nat.one_shiftLeft, Nat.testBit_two_pow_sub_one]
  by_cases hi : i < cpus
  · simp [hi, Nat.lt_of_lt_of_le hi h]
  · simp [hi]

theorem flags_lt {cpus : Nat} (h : cpus ≤ maxCpus) : (1 <<< cpus - 1) <<< 8 ||| 4 < 2 ^ 32 := by
  have hmask : (1 <<< cpus - 1) < 2 ^ 8 := by
    rw [Nat.one_shiftLeft]
    have := Nat.pow_le_pow_right (show 0 < 2 by decide) h
    rw [maxCpus] at this
    omega
  apply Nat.or_lt_two_pow
  · rw [Nat.shiftLeft_eq]
    omega
  · decide

section
variable {cfg : Config}

theorem describesController (h : cfg.validate = .ok ()) :
    DescribesController cfg (1 <<< cfg.cpus - 1) controllerHandle
      (controllerNode cfg controllerHandle) where
  name := rfl
  compatible := text?_eq_some rfl (by decide)
  interruptCells := cells?_eq_some rfl (by decide)
  reg := by
    refine wides?_eq_some rfl ?_
    intro v hv
    obtain ⟨window, -, hv⟩ := List.mem_flatMap.mp hv
    have hstop := Config.stop_lt_of_validate h window
    rw [Config.stop, addressSpace] at hstop
    simp only [List.mem_cons, List.not_mem_nil, or_false] at hv
    omega
  interrupts := by
    have hcpus := (Config.bounds_of_validate h).2.1
    refine cells?_eq_some (congrArg (fun mask => some ([1, 9, mask <<< 8 ||| 4].flatMap cell))
      (toNat_first hcpus)) ?_
    simp only [List.forall_mem_cons]
    exact ⟨by decide, by decide, flags_lt hcpus, List.forall_mem_nil _⟩
  phandle := cells?_eq_some rfl (by decide)
  children := rfl

theorem describesCpu {cpu : Nat} (h : cpu < maxCpus) : DescribesCpu cpu (cpuNode cpu) where
  name := rfl
  deviceType := text?_eq_some rfl (by decide)
  reg := cells?_eq_some rfl (by
    rw [List.forall_mem_singleton]
    exact Nat.lt_trans h (by decide))
  children := rfl

theorem describesCpus (h : cfg.cpus ≤ maxCpus) : DescribesCpus cfg (cpusNode cfg) where
  name := rfl
  children := by
    rw [cpusNode, Node.children, List.forall₂_map_right_iff, List.forall₂_same]
    intro cpu hcpu
    exact describesCpu (Nat.lt_of_lt_of_le (List.mem_range.mp hcpu) h)

theorem describesTimer (h : cfg.cpus ≤ maxCpus) :
    DescribesTimer (1 <<< cfg.cpus - 1) (timerNode cfg) where
  name := rfl
  interrupts := by
    have hflags := flags_lt h
    refine cells?_eq_some rfl ?_
    simp only [List.forall_mem_cons]
    and_intros <;> first | exact hflags | decide
  children := rfl

theorem describesBoard : DescribesBoard controllerHandle (boardTree cfg) where
  name := rfl
  properties := rfl
  interruptParent := cells?_eq_some rfl (by decide)
  model := text?_eq_some rfl (by decide)
  compatible := text?_eq_some rfl (by decide)
  addressCells := cells?_eq_some rfl (by decide)
  sizeCells := cells?_eq_some rfl (by decide)

theorem describes_boardTree (h : cfg.validate = .ok ()) : Describes cfg (boardTree cfg) := by
  have hcpus := (Config.bounds_of_validate h).2.1
  refine ⟨1 <<< cfg.cpus - 1, controllerHandle, _, _, _, ?_, describesBoard, rfl,
    describesController h, describesCpus hcpus, describesTimer hcpus⟩
  intro cpu
  rw [Nat.one_shiftLeft, Nat.testBit_two_pow_sub_one, decide_eq_true_eq]

/-- Every valid configuration has a device tree that can be written, and whoever reads the blob
finds a tree in it that describes the configuration. -/
theorem blob_describes_board (h : cfg.validate = .ok ()) :
    ∃ blob header root, write (boardTree cfg) = .ok blob ∧
      Header.read? blob = some header ∧ header.Fits blob ∧
      read? blob = some ⟨[], 0, root⟩ ∧ Describes cfg root := by
  have hwrite := write_boardTree h
  obtain ⟨header, hheader, hfits, hread⟩ := read?_of_write hwrite
  exact ⟨_, header, boardTree cfg, hwrite, hheader, hfits, hread, describes_boardTree h⟩

/-- A board of eight CPUs whose distributor is near the last address. -/
theorem blob_describes_board_eight :
    let cfg := { Config.standard with cpus := 8, distributor := 0xfffffffffff00000 }
    cfg.validate = .ok () ∧
      ∃ blob header root, write (boardTree cfg) = .ok blob ∧
        Header.read? blob = some header ∧ header.Fits blob ∧
        read? blob = some ⟨[], 0, root⟩ ∧ Describes cfg root :=
  ⟨rfl, blob_describes_board rfl⟩

end

end Gic.DeviceTree
