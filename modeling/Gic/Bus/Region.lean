import Gic.Bus.Transaction

/-!
# Regions of the address space

A device occupies regions of the address space: at least one byte each, and
ending before the last address, so that the address after a region exists.
Regions are ordered by where they start and end.
-/

namespace Gic

/-- A number of bytes, not zero. -/
structure Size where
  /-- The number. -/
  bytes : Nat
  /-- It is not zero. -/
  pos : 0 < bytes
  deriving DecidableEq

namespace Size

/-- Bytes in a KiB. -/
def kib : Nat := 1024

/-- Bytes in a MiB. -/
def mib : Nat := 1024 * kib

/-- The size of that many bytes, if they are any. -/
def ofBytes? (bytes : Nat) : Option Size :=
  if h : 0 < bytes then some ⟨bytes, h⟩ else none

/-- The size in bytes below a KiB, in whole KiB below a MiB, in whole MiB from there on. -/
def shown (size : Size) : String :=
  if size.bytes < kib then toString size.bytes ++ "bytes"
  else if size.bytes < mib then toString (size.bytes / kib) ++ "KiB"
  else toString (size.bytes / mib) ++ "MiB"

end Size

/-- An extent of addresses, without what is mapped there. -/
structure Extent where
  /-- The first address. -/
  start : Nat
  /-- How many addresses there are. -/
  size : Size
  deriving DecidableEq

namespace Extent

/-- The address after the last one. -/
def stop (e : Extent) : Nat := e.start + e.size.bytes

/-- The extent as a half-open range. -/
def range (e : Extent) : String := Text.hex e.start ++ ".." ++ Text.hex e.stop

/-- The extent as a value on one line. -/
def shown (e : Extent) : String :=
  Text.shownRecord "MemoryRegionDescription"
    [("start_offset", Text.hex e.start), ("size", e.size.shown)]

/-- Whether the extent holds `address`. -/
def contains (e : Extent) (address : Nat) : Bool :=
  decide (e.start ≤ address) && decide (address < e.stop)

/-- Whether two extents share an address. -/
def meets (a b : Extent) : Bool := decide (a.start < b.stop) && decide (b.start < a.stop)

end Extent

/-- A region: an extent and the device that is mapped there. -/
structure Region (δ : Type) extends Extent where
  /-- What is mapped. -/
  device : δ
  /-- The address after the region exists. -/
  fits : start + size.bytes < addressSpace
  deriving DecidableEq

/-- Why a device cannot be mapped somewhere. -/
inductive RegionError where
  /-- The region would be empty. -/
  | zeroSize
  /-- The region would reach past the last address. -/
  | wraps
  deriving DecidableEq, Repr

namespace Region

variable {δ : Type}

/-- The region of `bytes` bytes at `start`. -/
def make (start bytes : Nat) (device : δ) : Except RegionError (Region δ) :=
  match Size.ofBytes? bytes with
  | none => .error .zeroSize
  | some size =>
    if h : start + size.bytes < addressSpace then .ok ⟨⟨start, size⟩, device, h⟩
    else .error .wraps

/-- Regions in the order of their start, those of one start in the order of their end. -/
def order (a b : Region δ) : Ordering :=
  (compare a.start b.start).then (compare a.stop b.stop)

/-- The region as a value on one line, given its device's. -/
def shown (r : Region δ) (device : String) : String :=
  Text.shownRecord "MemoryRegion"
    [("phys_offset", Text.hex r.start), ("size", r.size.shown), ("ops", device)]

end Region

end Gic
