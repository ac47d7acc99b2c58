import Gic.Text.Radix
import Gic.Text.Shown

/-!
# Bus transactions

A bus master reads or writes a location in accesses of 8, 16, 32 or 64 bits.
A transaction fails if nothing is mapped at its address, or if the device that
is mapped there does not take accesses of that width at that offset.
-/

namespace Gic

/-- The width of an access. -/
inductive Width where
  /-- 8 bits. -/
  | byte
  /-- 16 bits. -/
  | half
  /-- 32 bits. -/
  | word
  /-- 64 bits. -/
  | double
  deriving DecidableEq, Repr

namespace Width

/-- The width in bits. -/
def bits : Width → Nat
  | byte => 8
  | half => 16
  | word => 32
  | double => 64

/-- The width in bytes. -/
def bytes : Width → Nat
  | byte => 1
  | half => 2
  | word => 4
  | double => 8

/-- The width of that many bits, if there is one. -/
def ofBits? : Nat → Option Width
  | 8 => some byte
  | 16 => some half
  | 32 => some word
  | 64 => some double
  | _ => none

/-- The text that stands for the width in a log record. -/
def shown (w : Width) : String := "_" ++ toString w.bits

end Width

/-- The bus master that performs an access. -/
inductive Initiator where
  /-- The CPU with this number. -/
  | cpu (number : Nat)
  /-- A master that is none of the CPUs. -/
  | unknown
  deriving DecidableEq, Repr

/-- The text that stands for the initiator in a log record. -/
def Initiator.shown : Initiator → String
  | .cpu number => "Cpu(" ++ toString number ++ ")"
  | .unknown => "Unknown"

/-- What an access does. -/
inductive Access where
  /-- It reads. -/
  | read
  /-- It writes a value. -/
  | write (value : BitVec 64)
  deriving DecidableEq, Repr

/-- An access to one location. -/
structure Transaction where
  /-- Who performs it. -/
  initiator : Initiator
  /-- Where: on the bus an address, at a device the offset in its region. -/
  address : Nat
  /-- How wide it is. -/
  width : Width
  /-- What it does. -/
  access : Access
  deriving DecidableEq, Repr

/-- Why a transaction fails. -/
inductive BusError where
  /-- No device is mapped at the address. -/
  | invalidAddress (address : Nat)
  /-- The device takes no access of this width at this offset. -/
  | unsupportedWidth (offset : Nat) (width : Width)
  deriving DecidableEq, Repr

namespace BusError

/-- The sentence that reports the error. -/
def message : BusError → String
  | invalidAddress address => "no device mapped at " ++ Text.hex address
  | unsupportedWidth offset width =>
    "unsupported " ++ toString width.bits ++ "-bit access at offset " ++ Text.hex offset

/-- The error as a value on one line. -/
def shown : BusError → String
  | invalidAddress address => "InvalidAddress(" ++ Text.hex address ++ ")"
  | unsupportedWidth offset width =>
    Text.shownRecord "UnsupportedWidth" [("offset", toString offset), ("width", width.shown)]

end BusError

/-- The number of addresses: an address is a natural number below it. -/
def addressSpace : Nat := 1 <<< 64

/-- The address `offset` after `base`, if it does not leave the address space. -/
def address? (base offset : Nat) : Option Nat :=
  if base + offset < addressSpace then some (base + offset) else none

/-- The address `offset` after `base`, starting again from zero past the last one. -/
def addressWrapping (base offset : Nat) : Nat := (base + offset) % addressSpace

end Gic
