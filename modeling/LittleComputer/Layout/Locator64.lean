import LittleComputer.Layout.Locator

/-!
# Locators of 64 bits

A `Locator` adds sizes as they are, which is all that is needed for the sizes of statements. This
one keeps its address in a signed number of 64 bits and takes any such number for a size. The sum is
compared to the limit when it has been taken, so it can wrap around before. A call gives the locator
behind it, also where it has a fault.
-/

namespace LittleComputer

structure Locator64 where
  origin : UInt16
  address : Int64
  placed : Bool
deriving DecidableEq, Repr

namespace Locator64

def start : Locator64 := ⟨defaultOrigin, Int64.ofNat defaultOrigin.toNat, false⟩

def setOrigin (loc : Locator64) (origin : UInt16) : Locator64 × Option Fault :=
  if origin.toNat % wordSize ≠ 0 then (loc, some .misalignedOrigin)
  else if loc.placed then
    if Int64.ofNat origin.toNat = loc.address then (loc, none) else (loc, some .discontiguousOrigin)
  else ({ loc with origin := origin, address := Int64.ofNat origin.toNat }, none)

/-- The lowest bits of the address, for a label. -/
def here (loc : Locator64) : Locator64 × Except Fault UInt16 :=
  if loc.address < Int64.ofNat addressLimit then
    ({ loc with placed := true }, .ok (UInt16.ofInt loc.address.toInt))
  else (loc, .error .addressOverflow)

def advance (loc : Locator64) (size : Int64) : Locator64 × Option Fault :=
  if size = 0 then (loc, none)
  else if loc.address + size ≤ Int64.ofNat addressLimit then
    ({ loc with address := loc.address + size, placed := true }, none)
  else (loc, some .addressOverflow)

end Locator64

end LittleComputer
