import LittleComputer.Fault

/-!
# Locators

A locator walks through the address space while statements are placed one behind the other. The
origin can be moved until something has been placed; after that it can only be restated.
-/

namespace LittleComputer

/-- The origin of a program that does not give one. -/
def defaultOrigin : UInt16 := 0x3000

/-- One past the last byte address. -/
def addressLimit : Nat := 0x10000

/-- Bytes of a word. -/
def wordSize : Nat := 2

structure Locator where
  /-- Address of the first word. -/
  origin : UInt16
  /-- Address of the next word; it may be the limit, where no word fits any more. -/
  address : Nat
  /-- Whether a label or a word has been placed. -/
  placed : Bool
deriving DecidableEq, Repr

namespace Locator

def start : Locator := ⟨defaultOrigin, defaultOrigin.toNat, false⟩

/-- Moves to an origin. Once something is placed, only the address that is reached anyway
will do. -/
def setOrigin (loc : Locator) (origin : UInt16) : Except Fault Locator :=
  if origin.toNat % wordSize ≠ 0 then .error .misalignedOrigin
  else if loc.placed then
    if origin.toNat = loc.address then .ok loc else .error .discontiguousOrigin
  else .ok ⟨origin, origin.toNat, false⟩

/-- The address for a label, which counts as placed. -/
def here (loc : Locator) : Except Fault (UInt16 × Locator) :=
  if loc.address < addressLimit then .ok (UInt16.ofNat loc.address, { loc with placed := true })
  else .error .addressOverflow

/-- Goes on behind `size` bytes. -/
def advance (loc : Locator) (size : Nat) : Except Fault Locator :=
  if size = 0 then .ok loc
  else if loc.address + size ≤ addressLimit then
    .ok { loc with address := loc.address + size, placed := true }
  else .error .addressOverflow

end Locator

end LittleComputer
