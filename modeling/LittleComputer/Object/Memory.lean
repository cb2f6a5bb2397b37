import LittleComputer.Object.Image

/-!
# Memory

The memory of the machine, 2^15 words of two bytes, the low byte at the even address.
-/

namespace LittleComputer

/-- Number of words. -/
def memorySize : Nat := 0x8000

structure Memory where
  words : Vector UInt16 memorySize

namespace Memory

def zero : Memory := ⟨Vector.replicate memorySize 0⟩

/-- Index of the word that holds a byte address. -/
def index (address : UInt16) : Fin memorySize :=
  ⟨address.toNat / 2, by
    have := address.toNat_lt
    unfold memorySize
    omega⟩

def word (m : Memory) (address : UInt16) : UInt16 := m.words.get (index address)

/-- The byte at an address: the high byte of its word if the address is odd. -/
def byte (m : Memory) (address : UInt16) : UInt8 :=
  let w := m.word address
  if address.toNat % 2 = 1 then UInt8.ofNat (w.toNat / 256) else UInt8.ofNat w.toNat

/-- Puts the words of an image where it says. The result is where to start: the origin,
made even. -/
def load (m : Memory) (i : Image) : Except Fault (UInt16 × Memory) :=
  let base := i.origin.toNat / 2
  if base + i.words.length ≤ memorySize then
    let image := i.words.toArray
    let words := Vector.ofFn fun k =>
      if k.val < base then m.words.get k else image.getD (k.val - base) (m.words.get k)
    .ok (UInt16.ofNat (2 * base), ⟨words⟩)
  else .error .objectTooLong

/-- The memory once an image was to be loaded; a fault leaves it as it is. -/
def afterLoad (m : Memory) (i : Image) : Memory :=
  match m.load i with
  | .ok (_, loaded) => loaded
  | .error _ => m

/-- The words at an address and the ones behind it, which go on at address zero behind the last. -/
def dump (m : Memory) (address : UInt16) (count : Nat) : List UInt16 :=
  (List.range count).map fun i => m.word (address + UInt16.ofNat (2 * i))

end Memory

end LittleComputer
