import Gic.Register.Layout

/-!
# List registers

A hypervisor injects a virtual interrupt by writing a list register. Its word
says which interrupt is meant, with which priority and in which state, and
whether it is backed by a physical interrupt that is to be completed with it.

## The model

An entry keeps the word that was written and, beside it, the two bits of state
that change as the guest acknowledges and completes the interrupt. Every other
value is read off the written word. With the hardware bit set, bits 19 to 10
name the physical interrupt; otherwise bits 12 to 10 name the CPU that sent a
virtual software generated interrupt, and bit 19 asks for a maintenance
interrupt. The word read back (`toWord`) is the written one with the live state.
-/

namespace Gic

/-- The number of list registers of a CPU. -/
def numListRegisters : Nat := 4

/-- The state of an interrupt in a list register. -/
inductive ListState where
  /-- The register holds no interrupt. -/
  | invalid
  /-- The interrupt is pending. -/
  | pending
  /-- The interrupt is active. -/
  | active
  /-- The interrupt is active and pending again. -/
  | pendingActive
  deriving DecidableEq, Repr

namespace ListState

/-- The state with those two bits. -/
def ofBits (pending active : Bool) : ListState :=
  match pending, active with
  | false, false => .invalid
  | true, false => .pending
  | false, true => .active
  | true, true => .pendingActive

/-- The text that stands for the state. -/
def shown : ListState → String
  | invalid => "Invalid"
  | pending => "Pending"
  | active => "Active"
  | pendingActive => "PendingActive"

end ListState

/-- A list register. -/
structure ListEntry where
  /-- The word as it was last written. -/
  written : Word
  /-- The interrupt is pending. -/
  pending : Bool
  /-- The interrupt is active. -/
  active : Bool
  deriving DecidableEq, Repr

namespace ListEntry

/-- A register that was never written. -/
def empty : ListEntry := ⟨0#32, false, false⟩

instance : Inhabited ListEntry := ⟨empty⟩

/-- A register to which `w` is written. -/
def ofWord (w : Word) : ListEntry := ⟨w, w.getLsbD 28, w.getLsbD 29⟩

/-- The word that is read: the written one with the live state in bits 28 and 29. -/
def toWord (e : ListEntry) : Word :=
  Word.ofBits fun bit =>
    if bit = 28 then e.pending else if bit = 29 then e.active else e.written.getLsbD bit

/-- Whether the register holds an interrupt. -/
def live (e : ListEntry) : Bool := e.pending || e.active

/-- The state of the interrupt. -/
def state (e : ListEntry) : ListState := .ofBits e.pending e.active

/-- The interrupt, as the guest numbers it. -/
def virtualId (e : ListEntry) : Nat := e.written.field 0 10

/-- Whether a physical interrupt is completed with this one. -/
def hardware (e : ListEntry) : Bool := e.written.getLsbD 31

/-- Bits 19 to 10, whatever they mean. -/
def linkField (e : ListEntry) : Nat := e.written.field 10 10

/-- The physical interrupt that is completed with this one, zero if there is none. -/
def physicalId (e : ListEntry) : Nat := if e.hardware then e.linkField else 0

/-- Bits 12 to 10, whatever they mean. -/
def sourceField (e : ListEntry) : Nat := e.written.field 10 3

/-- The CPU that sent the interrupt, zero if it is backed by a physical one. -/
def source (e : ListEntry) : Nat := if e.hardware then 0 else e.sourceField

/-- Whether a maintenance interrupt is asked for at its end. -/
def wantsMaintenance (e : ListEntry) : Bool := e.written.getLsbD 19

/-- Whether the interrupt belongs to group 1. -/
def group1 (e : ListEntry) : Bool := e.written.getLsbD 30

/-- The priority of the interrupt. -/
def priority (e : ListEntry) : Priority := .ofFive (e.written.extractLsb' 23 5)

/-- The entry as a value on one line. -/
def shown (e : ListEntry) : String :=
  Text.shownRecord "ListRegisterEntry"
    [("pending", Text.shownBool e.pending), ("active", Text.shownBool e.active),
      ("hw", Text.shownBool e.hardware), ("group1", Text.shownBool e.group1),
      ("priority", toString e.priority.toNat), ("virtual_id", toString e.virtualId),
      ("physical_id", toString e.physicalId), ("cpu_id", toString e.source),
      ("raw", toString e.written.toNat)]

end ListEntry

end Gic
