import Gic.Bus.Region
import Gic.Trace.Note
import Gic.Trace.Traced

/-!
# The memory map

The bus decodes an address to the device whose region contains it. Regions are
added one by one; a region that meets another one is refused.

## The model

The regions are kept in ascending order. `find?` looks for the last region that
starts at or before the address, halving the part that is left to search, and
then asks whether the address is in it. `route` hands a transaction on to that
region's device, with the offset in the region in place of the address.
-/

namespace Gic

/-- The regions of an address space, in ascending order. -/
structure MemoryMap (δ : Type) where
  /-- The regions. -/
  regions : Array (Region δ)

/-- Why a region cannot be added. -/
inductive MapError where
  /-- It meets regions that are already there. -/
  | overlaps (region : Extent) (others : List Extent)
  deriving DecidableEq

namespace MapError

/-- The sentence that reports the error. -/
def message : MapError → String
  | overlaps region others =>
    "memory region " ++ region.range ++ " overlaps with "
      ++ Text.shownList (others.map Extent.range)

/-- The error as a value on one line. -/
def shown : MapError → String
  | overlaps region others =>
    Text.shownRecord "Overlaps"
      [("region", region.shown), ("overlaps_with", Text.shownList (others.map Extent.shown))]

end MapError

namespace MemoryMap

variable {δ : Type}

/-- No region at all. -/
def empty : MemoryMap δ := ⟨#[]⟩

/-- Puts a region in its place among regions in ascending order. -/
def insert (r : Region δ) : List (Region δ) → List (Region δ)
  | [] => [r]
  | s :: rest => if r.start < s.start then r :: s :: rest else s :: insert r rest

/-- The regions that an extent meets, in ascending order. -/
def meeting (m : MemoryMap δ) (e : Extent) : List Extent :=
  (m.regions.toList.map Region.toExtent).filter fun other => other.meets e

/-- Adds a region. -/
def add (m : MemoryMap δ) (r : Region δ) : Except MapError (MemoryMap δ) :=
  match m.meeting r.toExtent with
  | [] => .ok ⟨(insert r m.regions.toList).toArray⟩
  | others => .error (.overlaps r.toExtent others)

/-- Adds regions one after the other, up to the first that is refused. -/
def addAll (m : MemoryMap δ) : List (Region δ) → Except MapError (MemoryMap δ)
  | [] => .ok m
  | r :: rest =>
    match m.add r with
    | .ok m => addAll m rest
    | .error e => .error e

/-- The place between `low` and `high` where keys in ascending order begin to exceed `bound`. -/
def partitionPoint (key : Nat → Nat) (bound low high : Nat) : Nat :=
  if low < high then
    let middle := (low + high) / 2
    if key middle ≤ bound then partitionPoint key bound (middle + 1) high
    else partitionPoint key bound low middle
  else low
termination_by high - low
decreasing_by all_goals omega

/-- Where the region at a place starts. -/
def startAt (m : MemoryMap δ) (place : Nat) : Nat :=
  match m.regions[place]? with
  | some r => r.start
  | none => 0

/-- The region that contains an address. -/
def find? (m : MemoryMap δ) (address : Nat) : Option (Region δ) :=
  match partitionPoint m.startAt address 0 m.regions.size with
  | 0 => none
  | place + 1 => m.regions[place]?.filter fun r => r.contains address

/-- The note of a transaction that reaches no device. -/
def unmapped (t : Transaction) : Note :=
  match t.access with
  | .read => .unmappedRead t.address t.width
  | .write value => .unmappedWrite t.address value.toNat t.width

/-- The device that a transaction reaches, and the transaction as the device sees it. -/
def route (m : MemoryMap δ) (t : Transaction) :
    Traced Note (Except BusError (δ × Transaction)) := do
  match m.find? t.address with
  | some r => return .ok (r.device, { t with address := t.address - r.start })
  | none =>
    .report (unmapped t)
    return .error (.invalidAddress t.address)

end MemoryMap

end Gic
