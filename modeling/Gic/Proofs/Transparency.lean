import Gic.Proofs.BoardRun
import Gic.Proofs.Refusals

/-!
# The bus is transparent

An access on the bus is decoded to a window and checked there once more, against
an address that is put together again. This module shows that from the outside
none of this is seen: an access to an address in a window is the access to that
window at the offset in it, and any other access fails and does nothing.

## The model

* `Board.Relays` — an access on the bus is what an access to the controller is:
  with its answer, the controller after it and the changes of lines that it
  publishes.
* `Board.Transparent` — what accesses on the bus do on a board, given what
  accesses to its controller do.

## What is proved

* `Board.relays_read`, `Board.relays_write` — an access to an address that a window
  holds is relayed to that window.
* `Board.bus_is_transparent` — every board that is built is transparent after every
  run.
-/

namespace Gic

namespace Board

variable {cfg : Config}

/-- What was done on a board is what is done to its controller: it answers the same, leaves the
same controller, queues the changes of lines that are published, as far as they fit, and leaves
everything else. -/
structure Relays (b : Board cfg) {α : Type} (x : Traced Event (α × Controller cfg))
    (y : Traced Note (α × Board cfg)) : Prop where
  /-- The answer. -/
  answer : y.value.1 = x.value.1
  /-- The controller. -/
  controller : y.value.2.controller = x.value.2
  /-- The changes that wait to be drained. -/
  waiting : y.value.2.plumbing.waiting = (b.plumbing.waiting ++ x.changes).take changeCapacity
  /-- The rest of the board: only the controller and the queue of changes are other ones. -/
  rest : ∃ changes, y.value.2 =
    { b with controller := y.value.2.controller, plumbing := { b.plumbing with changes } }

theorem relays_perform {b : Board cfg} (h : b.plumbing.isOpen = true) {α : Type}
    (act : Controller cfg → Traced Event (α × Controller cfg)) :
    b.Relays (act b.controller) (b.perform act) := by
  have hvalue := value_perform h act
  have hboard := congrArg Prod.snd hvalue
  refine ⟨congrArg Prod.fst hvalue, congrArg Board.controller hboard, ?_, ?_⟩
  · rw [hboard]
    exact waiting_moved b _ _
  · rw [hboard]
    exact ⟨_, rfl⟩

/-- What publishes nothing and leaves the controller leaves the board. -/
theorem Relays.still {b : Board cfg} {α : Type} {x : Traced Event (α × Controller cfg)}
    {y : Traced Note (α × Board cfg)} (h : b.Relays x y) (hstays : x.value.2 = b.controller)
    (hnone : x.changes = []) : y.value.2 = b := by
  obtain ⟨changes, hrest⟩ := h.rest
  have hwaiting := h.waiting
  have hfits : b.plumbing.waiting.length ≤ changeCapacity := b.plumbing.changes.length_le
  rw [hnone, List.append_nil, List.take_of_length_le hfits, hrest] at hwaiting
  obtain rfl : changes = b.plumbing.changes := Queue.ext_toList hwaiting
  rw [hrest, h.controller, hstays]

/-! ### Accesses to an address in a window -/

variable {b : Board cfg} {window : Interface} {address : Nat}

/-- A read of an address in a window is a read at the offset in the window. -/
theorem relays_read (h : b.Wired) (ha : cfg.Holds window address) (i : Initiator)
    (width : Width) :
    b.Relays (b.controller.read window i (address - cfg.base window) width)
      (b.read i address width) := by
  obtain ⟨r, hfind, hdevice, hstart⟩ := h.serves.find?_of_holds ha
  rw [read_eq, hfind]
  dsimp only
  rw [hdevice, hstart]
  exact relays_perform h.isOpen fun g => g.read window i (address - cfg.base window) width

/-- A write to an address in a window is a write at the offset in the window. -/
theorem relays_write (h : b.Wired) (ha : cfg.Holds window address) (i : Initiator)
    (value : BitVec 64) (width : Width) :
    b.Relays (b.controller.write window i (address - cfg.base window) value width)
      (b.write i address value width) := by
  obtain ⟨r, hfind, hdevice, hstart⟩ := h.serves.find?_of_holds ha
  rw [write_eq, hfind]
  dsimp only
  rw [hdevice, hstart]
  exact relays_perform h.isOpen fun g => g.write window i (address - cfg.base window) value width

/-- The address that the window puts together again is the one that was accessed. -/
theorem address_of_holds (hv : cfg.validate = .ok ()) (ha : cfg.Holds window address) :
    (cfg.base window + (address - cfg.base window)) % addressSpace = address := by
  have hstop := Config.stop_lt_of_validate hv window
  rw [Nat.add_sub_cancel' ha.1]
  exact Nat.mod_eq_of_lt (Nat.lt_trans ha.2 hstop)

/-- An access that is relayed and runs past the end of its window fails with its address, and does
nothing. -/
theorem fails_of_overrun (hv : cfg.validate = .ok ()) (ha : cfg.Holds window address)
    {width : Width} (hover : cfg.stop window < address + width.bytes) {α : Type}
    {x : Traced Event (Reply cfg α)} {y : Traced Note (Except BusError α × Board cfg)}
    (hjudged : Controller.Judged b.controller window (address - cfg.base window) width x)
    (hrelays : b.Relays x y) : y.value = (.error (.invalidAddress address), b) := by
  have hsize : window.windowSize < address - cfg.base window + width.bytes := by
    have hbase := ha.1
    rw [Config.stop] at hover
    omega
  have herror := hjudged.outside.mpr hsize
  obtain ⟨hstays, hnone⟩ := hjudged.atomic _ herror
  rw [address_of_holds hv ha] at herror
  exact Prod.ext (hrelays.answer.trans herror) (hrelays.still hstays hnone)

/-- An error of a relayed access that names an address names the one that was accessed. -/
theorem names_of_relays (hv : cfg.validate = .ok ()) (ha : cfg.Holds window address)
    {width : Width} {α : Type} {x : Traced Event (Reply cfg α)}
    {y : Traced Note (Except BusError α × Board cfg)}
    (hjudged : Controller.Judged b.controller window (address - cfg.base window) width x)
    (hrelays : b.Relays x y) {named : Nat}
    (hy : y.value.1 = .error (.invalidAddress named)) : named = address := by
  have hnamed := hjudged.names_accessed (hrelays.answer.symm.trans hy)
  rwa [address_of_holds hv ha] at hnamed

/-! ### Accesses to other addresses -/

/-- A read of an address in no window fails, and does nothing. -/
theorem value_read_unmapped (h : b.Wired) (ha : ∀ window, ¬ cfg.Holds window address)
    (i : Initiator) (width : Width) :
    (b.read i address width).value = (.error (.invalidAddress address), b) := by
  rw [read_eq, h.serves.find?_of_not_holds ha]
  rfl

/-- A write to an address in no window fails, and does nothing. -/
theorem value_write_unmapped (h : b.Wired) (ha : ∀ window, ¬ cfg.Holds window address)
    (i : Initiator) (value : BitVec 64) (width : Width) :
    (b.write i address value width).value = (.error (.invalidAddress address), b) := by
  rw [write_eq, h.serves.find?_of_not_holds ha]
  rfl

/-- Accesses on the bus are accesses to the windows that hold their addresses. -/
structure Transparent (b : Board cfg) : Prop where
  /-- At most one window holds an address. -/
  unique : ∀ {address first second}, cfg.Holds first address → cfg.Holds second address →
    first = second
  /-- A read of an address in a window is a read at the offset in the window. -/
  reads : ∀ {window address}, cfg.Holds window address → ∀ i width,
    b.Relays (b.controller.read window i (address - cfg.base window) width)
      (b.read i address width)
  /-- A write to an address in a window is a write at the offset in the window. -/
  writes : ∀ {window address}, cfg.Holds window address → ∀ i value width,
    b.Relays (b.controller.write window i (address - cfg.base window) value width)
      (b.write i address value width)
  /-- An access to an address in no window fails with its address, and does nothing. -/
  unmapped : ∀ {address}, (∀ window, ¬ cfg.Holds window address) → ∀ i value width,
    (b.read i address width).value = (.error (.invalidAddress address), b) ∧
      (b.write i address value width).value = (.error (.invalidAddress address), b)
  /-- An access that starts in a window and runs past its end fails in the same way, also where
  another window starts there. -/
  overrun : ∀ {window address width}, cfg.Holds window address →
    cfg.stop window < address + width.bytes → ∀ i value,
    (b.read i address width).value = (.error (.invalidAddress address), b) ∧
      (b.write i address value width).value = (.error (.invalidAddress address), b)
  /-- No other address than the accessed one is ever named. -/
  named : ∀ i address value width named,
    ((b.read i address width).value.1 = .error (.invalidAddress named) → named = address) ∧
      ((b.write i address value width).value.1 = .error (.invalidAddress named) →
        named = address)

theorem transparent_of_wired (hv : cfg.validate = .ok ()) (h : b.Wired) : b.Transparent where
  unique := Config.holds_unique hv
  reads ha i width := relays_read h ha i width
  writes ha i value width := relays_write h ha i value width
  unmapped ha i value width :=
    ⟨value_read_unmapped h ha i width, value_write_unmapped h ha i value width⟩
  overrun ha hover i value :=
    ⟨fails_of_overrun hv ha hover (Controller.judged_read _ _ _ _ _) (relays_read h ha i _),
      fails_of_overrun hv ha hover (Controller.judged_write _ _ _ _ value _)
        (relays_write h ha i value _)⟩
  named i address value width named := by
    by_cases hheld : ∃ window, cfg.Holds window address
    · obtain ⟨window, ha⟩ := hheld
      exact ⟨names_of_relays hv ha (Controller.judged_read _ _ _ _ _) (relays_read h ha i width),
        names_of_relays hv ha (Controller.judged_write _ _ _ _ value _)
          (relays_write h ha i value width)⟩
    · have hnone := not_exists.mp hheld
      rw [value_read_unmapped h hnone, value_write_unmapped h hnone]
      constructor <;> rintro ⟨⟩ <;> rfl

/-- A board can be built for every valid configuration, and whatever is done to it, accesses on its
bus are accesses to the windows of its controller. -/
theorem bus_is_transparent (hv : cfg.validate = .ok ()) :
    ∃ b, build cfg = .ok b ∧ ∀ actions, (b.afterAll actions).Transparent := by
  obtain ⟨map, -, hbuild⟩ := build_of_valid hv
  obtain ⟨hwired, -⟩ := wired_of_build hbuild
  exact ⟨_, hbuild, fun actions => transparent_of_wired hv (hwired.afterAll actions)⟩

/-- The distributor ends right before the last address and the virtual CPU interfaces end where it
starts. A word at their last byte is not read from both: the access fails. A word at the base of
the distributor is read from the distributor. -/
theorem bus_is_transparent_adjacent :
    let cfg : Config :=
      { Config.standard with
        vcpuInterface := 0xffffffffffffcfff
        distributor := 0xffffffffffffefff }
    cfg.validate = .ok () ∧ ∃ b, build cfg = .ok b ∧
      ∀ actions,
        ((b.afterAll actions).read (.cpu 0) 0xffffffffffffeffe .word).value =
            (.error (.invalidAddress 0xffffffffffffeffe), b.afterAll actions) ∧
          ((b.afterAll actions).read (.cpu 0) 0xffffffffffffefff .word).value.1 =
            ((b.afterAll actions).controller.read .distributor (.cpu 0) 0 .word).value.1 := by
  intro cfg
  have hv : cfg.validate = .ok () := by decide
  obtain ⟨b, hbuild, htransparent⟩ := bus_is_transparent hv
  have hlast : cfg.Holds .vcpuInterface 0xffffffffffffeffe := by decide
  have hover : cfg.stop .vcpuInterface < 0xffffffffffffeffe + Width.word.bytes := by decide
  have hfirst : cfg.Holds .distributor 0xffffffffffffefff := by decide
  have hoffset : 0xffffffffffffefff - cfg.base .distributor = 0 := by decide
  refine ⟨hv, b, hbuild, fun actions => ⟨?_, ?_⟩⟩
  · exact ((htransparent actions).overrun hlast hover (.cpu 0) 0).1
  · have hread := ((htransparent actions).reads hfirst (.cpu 0) .word).answer
    rwa [hoffset] at hread

end Board

end Gic
