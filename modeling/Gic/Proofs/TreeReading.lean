import Gic.DeviceTree.Writer
import Mathlib.Algebra.Group.Nat.Defs
import Mathlib.Tactic.Common

/-!
# Device trees are read as they were written

A flattened device tree is a block of bytes, and its reader knows nothing of the
tree. This module reads such blocks by the rules of version 17 of the format and
shows that reading finds every tree that is written.

## The model

* `Header`, `Header.Fits` — the ten cells in front, and whether they can be those
  of a blob: its blocks are aligned, follow each other and lie within the bytes.
* `Part`, `readParts?` — the structure as a sequence of parts. The offset of a
  property's name has to lie within the block of names.
* `Reading` — the tree as far as the parts have told it. Every node that begins
  has to end, there is one root, and properties come before the nodes inside.
* `read?` — what a blob says, if it says anything.

## What is proved

* `Node.check_eq_ok_iff`, `Property.check_eq_ok_iff` — what is checked before a
  tree is written.
* `readParts?_node` — reading finds the parts of a node that is flattened,
  whatever follows it.
* `assemble?_parts` — the parts of a tree tell of that tree.
* `read?_of_write` — what is written is read back.
-/

namespace Gic.DeviceTree

/-! ### Cells -/

/-- The number whose cell consists of these bytes. -/
def bigEndian (a b c d : UInt8) : Nat :=
  ((a.toNat * 256 + b.toNat) * 256 + c.toNat) * 256 + d.toNat

/-- Reads a cell; what follows it remains. -/
def readCell? : Bytes → Option (Nat × Bytes)
  | a :: b :: c :: d :: rest => some (bigEndian a b c d, rest)
  | _ => none

/-- Reads bytes that are nothing but cells. -/
def readCells? : Bytes → Option (List Nat)
  | [] => some []
  | a :: b :: c :: d :: rest => (readCells? rest).map (bigEndian a b c d :: ·)
  | _ => none

theorem bigEndian_cell {n : Nat} (h : n < 2 ^ 32) :
    bigEndian (UInt8.ofNat (n >>> 24)) (UInt8.ofNat (n >>> 16)) (UInt8.ofNat (n >>> 8))
      (UInt8.ofNat n) = n := by
  simp only [bigEndian, UInt8.toNat_ofNat', Nat.shiftRight_eq_div_pow]
  omega

theorem readCell?_cell {n : Nat} (h : n < 2 ^ 32) (rest : Bytes) :
    readCell? (cell n ++ rest) = some (n, rest) :=
  congrArg (fun m => some (m, rest)) (bigEndian_cell h)

theorem readCells?_flatMap {values : List Nat} (h : ∀ n ∈ values, n < 2 ^ 32) :
    readCells? (values.flatMap cell) = some values := by
  induction values with
  | nil => rfl
  | cons n values ih =>
    obtain ⟨hn, h⟩ := List.forall_mem_cons.mp h
    calc readCells? ((n :: values).flatMap cell)
        = (readCells? (values.flatMap cell)).map (_ :: ·) := rfl
      _ = some (n :: values) := by rw [ih h, bigEndian_cell hn]; rfl

/-! ### Texts -/

theorem length_terminated (text : String) : (terminated text).length = text.utf8ByteSize + 1 := by
  rw [terminated, List.length_append, Array.length_toList]
  rfl

/-- Reads the text before the first zero byte. -/
def readText? (bytes : Bytes) : Option String :=
  let text := bytes.takeWhile (· != 0)
  if text.length < bytes.length then String.fromUTF8? text.toByteArray else none

theorem zero_notMem_utf8EncodeChar {c : Char} (h : c ≠ '\x00') :
    0 ∉ String.utf8EncodeChar c := by
  have hc : c.val.toNat ≠ 0 := fun h0 => h (Char.ext (UInt32.toNat_inj.mp h0))
  have hofNat : ∀ n, n % 256 ≠ 0 → (0 : UInt8) ≠ UInt8.ofNat n := fun n hn heq =>
    hn (by simpa using congrArg UInt8.toNat heq.symm)
  unfold String.utf8EncodeChar
  dsimp only
  split_ifs <;>
    simp only [List.mem_cons, List.not_mem_nil, or_false, not_or] <;>
    and_intros <;> apply hofNat <;> omega

theorem zero_notMem_toUTF8 {text : String} (h : '\x00' ∉ text.toList) :
    0 ∉ text.toUTF8.data.toList := by
  rw [String.toUTF8_eq_toByteArray, ← String.utf8Encode_toList, List.utf8Encode,
    List.data_toByteArray, List.mem_flatMap]
  rintro ⟨c, hc, h0⟩
  exact zero_notMem_utf8EncodeChar (fun heq => h (heq ▸ hc)) h0

theorem readText?_terminated {text : String} (h : '\x00' ∉ text.toList) (rest : Bytes) :
    readText? (terminated text ++ rest) = some text := by
  have htake : (terminated text ++ rest).takeWhile (· != 0) = text.toUTF8.data.toList := by
    rw [terminated, List.append_assoc, List.takeWhile_append_of_pos]
    · simp
    · intro b hb
      exact bne_iff_ne.mpr fun heq => zero_notMem_toUTF8 h (heq ▸ hb)
  have hbytes : text.toUTF8.data.toList.toByteArray = text.toUTF8 := by
    apply ByteArray.ext
    rw [List.data_toByteArray]
  rw [readText?, htake, if_pos (by simp [terminated]), hbytes, String.toUTF8_eq_toByteArray,
    String.fromUTF8?, dif_pos text.isValidUTF8]
  rfl

/-- Reads the name at an offset, which has to be one within the names. -/
def nameAt? (names : Bytes) (offset : Nat) : Option String :=
  if offset < names.length then readText? (names.drop offset) else none

theorem offsetOf_lt {name : String} : ∀ {names : List String}, name ∈ names →
    offsetOf name names < (names.flatMap terminated).length
  | n :: names, h => by
    have hn : 0 < (terminated n).length := by simp [terminated]
    rw [offsetOf, List.flatMap_cons, List.length_append]
    split
    · omega
    · rename_i hne
      have := offsetOf_lt (List.mem_of_ne_of_mem (Ne.symm hne) h)
      omega

theorem drop_offsetOf {name : String} : ∀ {names : List String}, name ∈ names →
    ∃ rest, (names.flatMap terminated).drop (offsetOf name names) = terminated name ++ rest
  | n :: names, h => by
    rw [offsetOf, List.flatMap_cons]
    split
    · rename_i heq
      exact ⟨names.flatMap terminated, by rw [heq, List.drop_zero]⟩
    · rename_i hne
      rw [← List.drop_drop, List.drop_left]
      exact drop_offsetOf (List.mem_of_ne_of_mem (Ne.symm hne) h)

/-- The offset of a name leads to the name. -/
theorem nameAt?_offsetOf {name : String} (hz : '\x00' ∉ name.toList) {names : List String}
    (h : name ∈ names) :
    nameAt? (names.flatMap terminated) (offsetOf name names) = some name := by
  obtain ⟨rest, hdrop⟩ := drop_offsetOf h
  rw [nameAt?, if_pos (offsetOf_lt h), hdrop, readText?_terminated hz]

/-- Reads `n` bytes and the zero bytes that fill up their last cell; what follows remains. -/
def readFilled? (n : Nat) (bytes : Bytes) : Option (Bytes × Bytes) :=
  let value := bytes.take n
  let rest := bytes.drop n
  let filling := (4 - n % 4) % 4
  if value.length = n ∧ rest.take filling = List.replicate filling 0 then
    some (value, rest.drop filling)
  else none

theorem readFilled?_filled (value rest : Bytes) :
    readFilled? value.length (filled value ++ rest) = some (value, rest) := by
  have hrest : (filled value ++ rest).drop value.length = filling value.length ++ rest := by
    rw [filled, List.append_assoc, List.drop_left]
  have hvalue : (filled value ++ rest).take value.length = value := by
    rw [filled, List.append_assoc, List.take_left]
  have hlen : (filling value.length).length = (4 - value.length % 4) % 4 := List.length_replicate
  simp only [readFilled?, hrest, hvalue, ← hlen, List.take_left, List.drop_left]
  rw [if_pos ⟨trivial, by rw [hlen, filling]⟩]

/-! ### Parts -/

/-- A part of the structure. -/
inductive Part where
  /-- A node begins. -/
  | enter (name : String)
  /-- The node that has begun last has a property. -/
  | property (p : Property)
  /-- The node that has begun last ends. -/
  | leave
  /-- Nothing is said. -/
  | nothing
  /-- The structure ends. -/
  | stop

/-- Reads a part; what follows it remains. -/
def readPart? (names bytes : Bytes) : Option (Part × Bytes) := do
  let (mark, rest) ← readCell? bytes
  match mark with
  | 1 =>
    let name ← readText? rest
    let (_, rest) ← readFilled? (name.utf8ByteSize + 1) rest
    return (.enter name, rest)
  | 2 => return (.leave, rest)
  | 3 =>
    let (size, rest) ← readCell? rest
    let (offset, rest) ← readCell? rest
    let (value, rest) ← readFilled? size rest
    let name ← nameAt? names offset
    return (.property ⟨name, value⟩, rest)
  | 4 => return (.nothing, rest)
  | 9 => return (.stop, rest)
  | _ => none

theorem length_readCell? {bytes rest : Bytes} {n : Nat} (h : readCell? bytes = some (n, rest)) :
    rest.length < bytes.length := by
  unfold readCell? at h
  split at h
  · cases h
    simp only [List.length_cons]
    omega
  · cases h

theorem length_readFilled? {n : Nat} {bytes value rest : Bytes}
    (h : readFilled? n bytes = some (value, rest)) : rest.length ≤ bytes.length := by
  simp only [readFilled?, Option.ite_none_right_eq_some, Option.some.injEq, Prod.mk.injEq] at h
  rw [← h.2.2, List.length_drop, List.length_drop]
  omega

/-- Reading a part uses bytes up. -/
theorem length_readPart? {names bytes rest : Bytes} {part : Part}
    (h : readPart? names bytes = some (part, rest)) : rest.length < bytes.length := by
  obtain ⟨⟨mark, after⟩, hmark, h⟩ := Option.bind_eq_some_iff.mp h
  have hlt := length_readCell? hmark
  refine Nat.lt_of_le_of_lt ?_ hlt
  dsimp only at h
  split at h
  · obtain ⟨name, -, h⟩ := Option.bind_eq_some_iff.mp h
    obtain ⟨⟨_, _⟩, hfilled, h⟩ := Option.bind_eq_some_iff.mp h
    cases h
    exact length_readFilled? hfilled
  · cases h
    exact Nat.le_refl _
  · obtain ⟨⟨size, rest₁⟩, hsize, h⟩ := Option.bind_eq_some_iff.mp h
    obtain ⟨⟨offset, rest₂⟩, hoffset, h⟩ := Option.bind_eq_some_iff.mp h
    obtain ⟨⟨_, _⟩, hfilled, h⟩ := Option.bind_eq_some_iff.mp h
    obtain ⟨name, -, h⟩ := Option.bind_eq_some_iff.mp h
    cases h
    have h₁ := Nat.le_of_lt (length_readCell? hsize)
    have h₂ := Nat.le_of_lt (length_readCell? hoffset)
    exact Nat.le_trans (length_readFilled? hfilled) (Nat.le_trans h₂ h₁)
  · cases h
    exact Nat.le_refl _
  · cases h
    exact Nat.le_refl _
  · cases h

/-- Reads the parts of a structure, up to its end, which is the end of the bytes. -/
def readParts? (names bytes : Bytes) : Option (List Part) :=
  match h : readPart? names bytes with
  | none => none
  | some (.stop, rest) => if rest = [] then some [] else none
  | some (part, rest) =>
    have := length_readPart? h
    (readParts? names rest).map (part :: ·)
termination_by bytes.length

theorem readParts?_stop {names bytes : Bytes} (h : readPart? names bytes = some (.stop, [])) :
    readParts? names bytes = some [] := by
  rw [readParts?]
  split
  · rename_i hnone
    rw [h] at hnone
    cases hnone
  · rename_i rest hstop
    rw [h] at hstop
    cases hstop
    rfl
  · rename_i part rest hpart hsome
    rw [h] at hsome
    cases hsome
    exact absurd rfl hpart

theorem readParts?_cons {names bytes rest : Bytes} {part : Part} (hpart : part ≠ .stop)
    (h : readPart? names bytes = some (part, rest)) :
    readParts? names bytes = (readParts? names rest).map (part :: ·) := by
  rw [readParts?]
  split
  · rename_i hnone
    rw [h] at hnone
    cases hnone
  · rename_i rest hstop
    rw [h] at hstop
    cases hstop
    exact absurd rfl hpart
  · rename_i part rest _ hsome
    rw [h] at hsome
    cases hsome
    rfl

/-! ### What is checked before a tree is written -/

theorem bind_eq_ok_iff {ε α : Type} {a : Except ε Unit} {b : Except ε α} {x : α} :
    (a >>= fun _ => b) = .ok x ↔ a = .ok () ∧ b = .ok x := by
  cases a <;> simp [bind, Except.bind]

theorem forM_eq_ok_iff {ε α : Type} {f : α → Except ε Unit} {l : List α} :
    l.forM f = .ok () ↔ ∀ x ∈ l, f x = .ok () := by
  induction l with
  | nil => simp [List.forM, pure, Except.pure]
  | cons x l ih =>
    rw [List.forall_mem_cons, ← ih]
    exact bind_eq_ok_iff

/-- A property passes its checks if and only if its name may be one and the size of its value
fits into a cell. -/
theorem Property.check_eq_ok_iff {p : Property} :
    p.check = .ok () ↔ isName isPropertyChar p.name.toList = true ∧ p.value.length < 2 ^ 32 := by
  unfold Property.check
  by_cases hname : isName isPropertyChar p.name.toList = true
  · rw [if_neg (not_not_intro hname), ite_eq_right_iff, ← Nat.not_le]
    simp [hname]
  · rw [if_pos hname]
    simp [hname]

/-- A node passes its checks if and only if it is not nested too deep, its name may be one, and
what is inside it passes its checks. -/
theorem Node.check_eq_ok_iff {depth : Nat} {name : String} {properties : List Property}
    {children : List Node} :
    (Node.node name properties children).check depth = .ok () ↔
      depth < maxDepth ∧ isNodeName name = true ∧ (∀ p ∈ properties, p.check = .ok ())
        ∧ checkAll (depth + 1) children = .ok () := by
  rw [Node.check, ← forM_eq_ok_iff, ← bind_eq_ok_iff]
  split_ifs with hdepth hname
  · simp [Nat.not_lt_of_le hdepth]
  · simp [Nat.lt_of_not_le hdepth, hname]
  · simp [hname]

theorem checkAll_cons_eq_ok_iff {depth : Nat} {n : Node} {rest : List Node} :
    checkAll depth (n :: rest) = .ok ()
      ↔ n.check depth = .ok () ∧ checkAll depth rest = .ok () := by
  rw [checkAll]
  exact bind_eq_ok_iff

theorem zero_notMem_of_all {allowed : Char → Bool} (hzero : allowed '\x00' = false)
    {name : List Char} (h : name.all allowed = true) : '\x00' ∉ name := fun hmem =>
  Bool.false_ne_true (hzero.symm.trans (List.all_eq_true.mp h _ hmem))

theorem zero_notMem_propertyName {name : String}
    (h : isName isPropertyChar name.toList = true) : '\x00' ∉ name.toList := by
  simp only [isName, Bool.and_eq_true] at h
  exact zero_notMem_of_all (by decide) h.2

theorem zero_notMem_nodeName {name : String} (h : isNodeName name = true) :
    '\x00' ∉ name.toList := by
  rw [isNodeName, Bool.or_eq_true, String.isEmpty_iff, isName, Bool.and_eq_true,
    Bool.and_eq_true] at h
  obtain rfl | ⟨⟨-, hname⟩, hunit⟩ := h
  · decide
  · rw [← List.takeWhile_append_dropWhile (p := (· != '@')) (l := name.toList), List.mem_append,
      not_or]
    refine ⟨zero_notMem_of_all (by decide) hname, ?_⟩
    have hhead := List.head?_dropWhile_not (· != '@') name.toList
    cases hrest : name.toList.dropWhile (· != '@') with
    | nil => simp
    | cons c unit =>
      rw [hrest] at hunit hhead
      have hc : c = '@' := by simpa using hhead
      rw [List.mem_cons, hc, not_or]
      exact ⟨by decide, zero_notMem_of_all (by decide) hunit⟩

/-! ### The parts of a tree -/

mutual

/-- The parts that tell of a node. -/
def Node.parts : Node → List Part
  | .node name properties children =>
    .enter name :: properties.map .property ++ partsOfAll children ++ [.leave]

/-- The parts that tell of several nodes. -/
def partsOfAll : List Node → List Part
  | [] => []
  | n :: rest => n.parts ++ partsOfAll rest

end

theorem Node.parts_eq (n : Node) :
    n.parts
      = .enter n.name :: (n.properties.map .property ++ partsOfAll n.children ++ [.leave]) := by
  cases n
  rw [Node.parts]
  rfl

/-! ### The structure is read back -/

theorem readPart?_enter (block : Bytes) {name : String} (hz : '\x00' ∉ name.toList)
    (rest : Bytes) :
    readPart? block (cell beginNode ++ filled (terminated name) ++ rest)
      = some (.enter name, rest) := by
  have hname : readText? (filled (terminated name) ++ rest) = some name := by
    rw [filled, List.append_assoc, readText?_terminated hz]
  rw [List.append_assoc, readPart?, readCell?_cell (by decide)]
  simp only [Option.bind_eq_bind, Option.bind_some, beginNode, hname, ← length_terminated,
    readFilled?_filled]
  rfl

theorem readPart?_leave (block rest : Bytes) :
    readPart? block (cell endNode ++ rest) = some (.leave, rest) := by
  rw [readPart?, readCell?_cell (by decide)]
  rfl

theorem readPart?_stop (block rest : Bytes) :
    readPart? block (cell endStructure ++ rest) = some (.stop, rest) := by
  rw [readPart?, readCell?_cell (by decide)]
  rfl

section
variable {names : List String} (hsize : (names.flatMap terminated).length < 2 ^ 32)
include hsize

theorem readPart?_property {p : Property} (hp : p.check = .ok ()) (hname : p.name ∈ names)
    (rest : Bytes) :
    readPart? (names.flatMap terminated) (p.flatten names ++ rest) = some (.property p, rest) := by
  obtain ⟨hchars, hvalue⟩ := Property.check_eq_ok_iff.mp hp
  have hoffset : offsetOf p.name names < 2 ^ 32 := Nat.lt_trans (offsetOf_lt hname) hsize
  have hat := nameAt?_offsetOf (zero_notMem_propertyName hchars) hname
  simp only [Property.flatten, List.append_assoc]
  rw [readPart?, readCell?_cell (by decide)]
  simp only [Option.bind_eq_bind, Option.bind_some, beginProperty, readCell?_cell hvalue,
    readCell?_cell hoffset, readFilled?_filled, hat]
  rfl

theorem readParts?_properties {properties : List Property}
    (hcheck : ∀ p ∈ properties, p.check = .ok ()) (hnames : ∀ p ∈ properties, p.name ∈ names)
    (rest : Bytes) :
    readParts? (names.flatMap terminated) (properties.flatMap (Property.flatten names) ++ rest)
      = (readParts? (names.flatMap terminated) rest).map (properties.map .property ++ ·) := by
  induction properties with
  | nil => simp
  | cons p properties ih =>
    obtain ⟨hp, hcheck⟩ := List.forall_mem_cons.mp hcheck
    obtain ⟨hname, hnames⟩ := List.forall_mem_cons.mp hnames
    rw [List.flatMap_cons, List.append_assoc,
      readParts?_cons Part.noConfusion (readPart?_property hsize hp hname _), ih hcheck hnames,
      Option.map_map]
    rfl

end

mutual

theorem readParts?_node {names : List String} (hsize : (names.flatMap terminated).length < 2 ^ 32) :
    ∀ {n : Node} {depth : Nat}, n.check depth = .ok () → n.uses ⊆ names →
    ∀ rest : Bytes,
      readParts? (names.flatMap terminated) (n.flatten names ++ rest)
        = (readParts? (names.flatMap terminated) rest).map (n.parts ++ ·)
  | .node name properties children, depth, hcheck, huses, rest => by
    obtain ⟨-, hname, hproperties, hchildren⟩ := Node.check_eq_ok_iff.mp hcheck
    rw [Node.uses, List.append_subset] at huses
    have hnames : ∀ p ∈ properties, p.name ∈ names := fun p hp =>
      huses.1 (List.mem_map_of_mem hp)
    have henter := readParts?_cons Part.noConfusion
      (readPart?_enter (names.flatMap terminated) (zero_notMem_nodeName hname)
        (properties.flatMap (Property.flatten names) ++ (flattenAll names children
          ++ (cell endNode ++ rest))))
    rw [readParts?_properties hsize hproperties hnames, readParts?_all hsize hchildren huses.2,
      readParts?_cons Part.noConfusion (readPart?_leave _ rest)] at henter
    simp only [Node.flatten, Node.parts, List.append_assoc] at henter ⊢
    simp only [henter, Option.map_map]
    rfl

theorem readParts?_all {names : List String} (hsize : (names.flatMap terminated).length < 2 ^ 32) :
    ∀ {nodes : List Node} {depth : Nat}, checkAll depth nodes = .ok () →
      usesOfAll nodes ⊆ names → ∀ rest : Bytes,
      readParts? (names.flatMap terminated) (flattenAll names nodes ++ rest)
        = (readParts? (names.flatMap terminated) rest).map (partsOfAll nodes ++ ·)
  | [], _, _, _, rest => by simp [flattenAll, partsOfAll]
  | n :: nodes, depth, hcheck, huses, rest => by
    obtain ⟨hn, hnodes⟩ := checkAll_cons_eq_ok_iff.mp hcheck
    rw [usesOfAll, List.append_subset] at huses
    rw [flattenAll, List.append_assoc, readParts?_node hsize hn huses.1,
      readParts?_all hsize hnodes huses.2, Option.map_map, partsOfAll]
    congr 1
    funext parts
    exact (List.append_assoc ..).symm

end

/-! ### The tree is put together -/

/-- A tree as far as the parts that have been read tell of it. -/
inductive Reading where
  /-- Nothing has been told. -/
  | start
  /-- Nodes have begun that have not ended: the last one, and those around it, innermost first. -/
  | inside (node : Node) (around : List Node)
  /-- The root has ended. -/
  | done (root : Node)

/-- What is known after one more part. There is one root, a node's properties come before the
nodes inside, and nodes end in the order opposite to that in which they began. -/
def Reading.take : Reading → Part → Option Reading
  | .start, .enter name => some (.inside (.node name [] []) [])
  | .inside n around, .enter name => some (.inside (.node name [] []) (n :: around))
  | .inside (.node name properties []) around, .property p =>
    some (.inside (.node name (properties ++ [p]) []) around)
  | .inside n [], .leave => some (.done n)
  | .inside n (.node name properties children :: around), .leave =>
    some (.inside (.node name properties (children ++ [n])) around)
  | r, .nothing => some r
  | _, _ => none

theorem take_properties (name : String) (before properties : List Property) (around : List Node) :
    (properties.map Part.property).foldlM Reading.take (.inside (.node name before []) around)
      = some (.inside (.node name (before ++ properties) []) around) := by
  induction properties generalizing before with
  | nil => simp
  | cons p properties ih =>
    rw [List.map_cons, List.foldlM_cons]
    calc (properties.map Part.property).foldlM Reading.take
          (.inside (.node name (before ++ [p]) []) around)
        = some (.inside (.node name (before ++ [p] ++ properties) []) around) := ih _
      _ = some (.inside (.node name (before ++ p :: properties) []) around) := by
        rw [List.append_assoc, List.singleton_append]

mutual

/-- The parts of a node, up to its end, put the node together. -/
theorem take_body (around : List Node) : ∀ n : Node,
    ((n.properties.map Part.property) ++ partsOfAll n.children).foldlM Reading.take
      (.inside (.node n.name [] []) around) = some (.inside n around)
  | .node name properties children => by
    rw [Node.properties, Node.children, Node.name, List.foldlM_append, take_properties]
    exact take_nodes around name properties [] children

theorem take_nodes (around : List Node) (name : String) (properties : List Property) :
    ∀ before nodes : List Node,
      (partsOfAll nodes).foldlM Reading.take (.inside (.node name properties before) around)
        = some (.inside (.node name properties (before ++ nodes)) around)
  | before, [] => by simp [partsOfAll]
  | before, n :: nodes => by
    have hbody := take_body (.node name properties before :: around) n
    have hrest := take_nodes around name properties (before ++ [n]) nodes
    rw [List.append_assoc, List.singleton_append] at hrest
    rw [partsOfAll, n.parts_eq, List.cons_append, List.foldlM_cons]
    calc _
        = (n.properties.map Part.property ++ partsOfAll n.children ++ [Part.leave]
            ++ partsOfAll nodes).foldlM Reading.take
              (.inside (.node n.name [] []) (.node name properties before :: around)) := rfl
      _ = _ := by
        rw [List.foldlM_append, List.foldlM_append, hbody]
        exact hrest

end

/-- The tree that the parts of a structure tell of. -/
def assemble? (parts : List Part) : Option Node :=
  match parts.foldlM Reading.take .start with
  | some (.done root) => some root
  | _ => none

theorem assemble?_parts (root : Node) : assemble? root.parts = some root := by
  have hdone : root.parts.foldlM Reading.take .start = some (.done root) := by
    rw [root.parts_eq, List.foldlM_cons]
    calc _
        = (root.properties.map Part.property ++ partsOfAll root.children ++ [Part.leave]).foldlM
            Reading.take (.inside (.node root.name [] []) []) := rfl
      _ = some (.done root) := by
        rw [List.foldlM_append, take_body]
        rfl
  rw [assemble?, hdone]

/-! ### Blobs -/

/-- What stands in front of a flattened tree. -/
structure Header where
  /-- The mark of the format. -/
  magic : Nat
  /-- The number of bytes altogether. -/
  totalSize : Nat
  /-- Where the structure begins. -/
  structureOffset : Nat
  /-- Where the names begin. -/
  namesOffset : Nat
  /-- Where the list of reserved memory begins. -/
  reservedOffset : Nat
  /-- The version of the format. -/
  version : Nat
  /-- The first version whose readers can read it. -/
  lastCompatible : Nat
  /-- The number of the CPU that boots. -/
  bootCpu : Nat
  /-- The number of bytes of the names. -/
  namesSize : Nat
  /-- The number of bytes of the structure. -/
  structureSize : Nat

namespace Header

/-- Reads a header. -/
def read? (blob : Bytes) : Option Header :=
  match readCells? (blob.take headerSize) with
  | some [magic, totalSize, structureOffset, namesOffset, reservedOffset, version, lastCompatible,
      bootCpu, namesSize, structureSize] =>
    some ⟨magic, totalSize, structureOffset, namesOffset, reservedOffset, version, lastCompatible,
      bootCpu, namesSize, structureSize⟩
  | _ => none

/-- The structure block. -/
def structureOf (h : Header) (blob : Bytes) : Bytes :=
  (blob.drop h.structureOffset).take h.structureSize

/-- The block of names. -/
def namesOf (h : Header) (blob : Bytes) : Bytes := (blob.drop h.namesOffset).take h.namesSize

/-- What is between the beginning of the list of reserved memory and that of the structure. -/
def reservedOf (h : Header) (blob : Bytes) : Bytes :=
  (blob.take h.structureOffset).drop h.reservedOffset

/-- When a header is that of a blob. -/
@[mk_iff]
structure Fits (h : Header) (blob : Bytes) : Prop where
  magic : h.magic = 0xd00dfeed
  /-- A reader of version 17 can read it. -/
  version : h.version = 17
  compatible : h.lastCompatible ≤ 17
  /-- The bytes are all there, and there are no others. -/
  totalSize : h.totalSize = blob.length
  reservedAligned : 8 ∣ h.reservedOffset
  structureAligned : 4 ∣ h.structureOffset
  /-- The structure consists of whole cells. -/
  structureWhole : 4 ∣ h.structureSize
  /-- The blocks follow each other. -/
  reservedAfter : headerSize ≤ h.reservedOffset
  structureAfter : h.reservedOffset + 16 ≤ h.structureOffset
  namesAfter : h.structureOffset + h.structureSize ≤ h.namesOffset
  /-- The last of them ends within the bytes. -/
  namesWithin : h.namesOffset + h.namesSize ≤ h.totalSize

instance (h : Header) (blob : Bytes) : Decidable (h.Fits blob) :=
  decidable_of_iff _ (fits_iff h blob).symm

end Header

/-- The number of 64 bits that two cells consist of. -/
def wide (high low : Nat) : Nat := high * 2 ^ 32 + low

/-- The addresses and sizes in a list of reserved memory, which ends with a size and an address
of zero. -/
def reserved? : List Nat → Option (List (Nat × Nat))
  | a :: b :: c :: d :: rest =>
    let entry := (wide a b, wide c d)
    if entry = (0, 0) then some [] else (reserved? rest).map (entry :: ·)
  | _ => none

/-- What a blob says. -/
structure Contents where
  /-- The addresses and sizes of reserved memory. -/
  reserved : List (Nat × Nat)
  /-- The number of the CPU that boots. -/
  bootCpu : Nat
  /-- The tree. -/
  root : Node

/-- Reads a blob: its header has to fit, and its structure has to tell of one tree. -/
def read? (blob : Bytes) : Option Contents := do
  let h ← Header.read? blob
  if h.Fits blob then
    let reserved ← readCells? (h.reservedOf blob) >>= reserved?
    let root ← readParts? (h.namesOf blob) (h.structureOf blob) >>= assemble?
    return ⟨reserved, h.bootCpu, root⟩
  else none

/-- The header of a tree. -/
def headerOf (root : Node) : Header where
  magic := 0xd00dfeed
  totalSize := totalSize root
  structureOffset := structureOffset
  namesOffset := namesOffset root
  reservedOffset := reservedOffset
  version := 17
  lastCompatible := 16
  bootCpu := 0
  namesSize := (namesBlock root).length
  structureSize := (structureBlock root).length

theorem length_properties_mod (names : List String) (properties : List Property) :
    (properties.flatMap (Property.flatten names)).length % 4 = 0 := by
  induction properties with
  | nil => rfl
  | cons p properties ih =>
    have hvalue := length_filled p.value
    simp only [List.flatMap_cons, Property.flatten, List.length_append, length_cell] at ih ⊢
    omega

mutual

theorem length_flatten_mod (names : List String) : ∀ n : Node, (n.flatten names).length % 4 = 0
  | .node name properties children => by
    have hname := length_filled (terminated name)
    have hproperties := length_properties_mod names properties
    have hchildren := length_flattenAll_mod names children
    simp only [Node.flatten, List.length_append, length_cell]
    omega

theorem length_flattenAll_mod (names : List String) :
    ∀ nodes : List Node, (flattenAll names nodes).length % 4 = 0
  | [] => rfl
  | n :: nodes => by
    have hn := length_flatten_mod names n
    have hnodes := length_flattenAll_mod names nodes
    rw [flattenAll, List.length_append]
    omega

end

section
variable {root : Node}

theorem length_headerCells (root : Node) : ((headerCells root).flatMap cell).length = headerSize :=
  rfl

theorem length_flatten (root : Node) : (flatten root).length = totalSize root := by
  simp only [flatten, totalSize, namesOffset, structureOffset, reservedOffset, List.length_append,
    length_headerCells, reservedBlock, List.length_replicate]

theorem read?_header (h : totalSize root < 2 ^ 32) :
    Header.read? (flatten root) = some (headerOf root) := by
  have htake : (flatten root).take headerSize = (headerCells root).flatMap cell := by
    rw [flatten, List.append_assoc, List.append_assoc, ← length_headerCells root, List.take_left]
  have hcells : readCells? ((headerCells root).flatMap cell) = some (headerCells root) := by
    apply readCells?_flatMap
    simp only [totalSize, namesOffset] at h
    simp only [headerCells, totalSize, namesOffset, List.forall_mem_cons, List.not_mem_nil,
      false_implies, implies_true, and_true]
    and_intros <;> first | decide | omega
  rw [Header.read?, htake, hcells]
  rfl

theorem headerOf_fits (root : Node) : (headerOf root).Fits (flatten root) where
  magic := rfl
  version := rfl
  compatible := Nat.le_succ 16
  totalSize := (length_flatten root).symm
  reservedAligned := ⟨5, rfl⟩
  structureAligned := ⟨14, rfl⟩
  structureWhole := by
    have := length_flatten_mod root.names root
    simp only [headerOf, structureBlock, List.length_append, length_cell]
    omega
  reservedAfter := Nat.le_refl _
  structureAfter := Nat.le_refl _
  namesAfter := Nat.le_refl _
  namesWithin := Nat.le_refl _

theorem structureOf_flatten (root : Node) :
    (headerOf root).structureOf (flatten root) = structureBlock root := by
  have hfront : (headerOf root).structureOffset
      = ((headerCells root).flatMap cell ++ reservedBlock).length := rfl
  rw [Header.structureOf, hfront, flatten, List.append_assoc, List.drop_left]
  exact List.take_left

theorem namesOf_flatten (root : Node) :
    (headerOf root).namesOf (flatten root) = namesBlock root := by
  have hfront : (headerOf root).namesOffset
      = ((headerCells root).flatMap cell ++ reservedBlock ++ structureBlock root).length := by
    rw [List.length_append]
    rfl
  rw [Header.namesOf, hfront, flatten, List.drop_left]
  exact List.take_length

theorem reservedOf_flatten (root : Node) :
    (headerOf root).reservedOf (flatten root) = reservedBlock := by
  have hfront : (headerOf root).structureOffset
      = ((headerCells root).flatMap cell ++ reservedBlock).length := rfl
  have hlist : (headerOf root).reservedOffset = ((headerCells root).flatMap cell).length := rfl
  rw [Header.reservedOf, hfront, flatten, List.append_assoc, List.take_left, hlist, List.drop_left]

end

theorem reserved?_reservedBlock : (readCells? reservedBlock).bind reserved? = some [] := by
  have hcells : reservedBlock = [0, 0, 0, 0].flatMap cell := rfl
  rw [hcells, readCells?_flatMap (by decide), Option.bind_some, reserved?]
  exact if_pos rfl

theorem readParts?_structureBlock {root : Node} {depth : Nat} (hcheck : root.check depth = .ok ())
    (hsize : (namesBlock root).length < 2 ^ 32) :
    readParts? (namesBlock root) (structureBlock root) = some root.parts := by
  have huses : root.uses ⊆ root.names := fun name h => List.mem_eraseDups.mpr h
  have hstop := readParts?_stop (readPart?_stop (namesBlock root) [])
  rw [List.append_nil] at hstop
  rw [structureBlock, namesBlock, readParts?_node hsize hcheck huses]
  rw [namesBlock] at hstop
  rw [hstop, Option.map_some, List.append_nil]

/-- What is written is read back. -/
theorem read?_of_write {root : Node} {blob : Bytes} (h : write root = .ok blob) :
    ∃ header, Header.read? blob = some header ∧ header.Fits blob
      ∧ read? blob = some ⟨[], 0, root⟩ := by
  obtain ⟨hcheck, hwrite⟩ := bind_eq_ok_iff.mp h
  split_ifs at hwrite with hlarge
  have hsize : totalSize root < 2 ^ 32 := Nat.lt_of_not_le hlarge
  have hnames : (namesBlock root).length < 2 ^ 32 := Nat.lt_of_le_of_lt (Nat.le_add_left ..) hsize
  have hparts := readParts?_structureBlock hcheck hnames
  cases hwrite
  refine ⟨headerOf root, read?_header hsize, headerOf_fits root, ?_⟩
  rw [read?, read?_header hsize]
  simp only [Option.bind_eq_bind, Option.bind_some, if_pos (headerOf_fits root),
    reservedOf_flatten, structureOf_flatten, namesOf_flatten, hparts, assemble?_parts,
    reserved?_reservedBlock]
  rw [headerOf, Option.pure_def]

end Gic.DeviceTree
