import Nmos6502.Word

/-!
# Memory

A cell for each of the 65,536 addresses.  Words and images wrap at the top of the address space.
`Memory.read` is the view through which the other operations are described.
-/

namespace Nmos6502

structure Memory where
  cells : Vector UInt8 65536
deriving DecidableEq

namespace Memory

def size : Nat := 65536

def zeroed : Memory := ⟨Vector.replicate 65536 0⟩

instance : Inhabited Memory := ⟨zeroed⟩

def read (m : Memory) (address : UInt16) : UInt8 :=
  have : address.toNat < 65536 := address.toNat_lt
  m.cells[address.toNat]

def write (m : Memory) (address : UInt16) (value : UInt8) : Memory :=
  ⟨m.cells.set address.toNat value address.toNat_lt⟩

def readWord (m : Memory) (address : UInt16) : UInt16 :=
  Word.ofBytes (m.read address) (m.read (address + 1))

def writeWord (m : Memory) (address : UInt16) (value : UInt16) : Memory :=
  (m.write address (Word.low value)).write (address + 1) (Word.high value)

/-- Writes `image` byte by byte from `base` upwards. -/
def load (m : Memory) (base : UInt16) : List UInt8 → Memory
  | [] => m
  | byte :: image => (m.write base byte).load (base + 1) image

/-- The `length` bytes from `base` upwards. -/
def dump (m : Memory) (base : UInt16) : Nat → List UInt8
  | 0 => []
  | length + 1 => m.read base :: m.dump (base + 1) length

def nonZeroCount (m : Memory) : Nat :=
  m.cells.countP (· != 0)

/-- One line that says how much of the memory is in use. -/
def describe (m : Memory) : String :=
  "Memory \x7b len: " ++ toString size ++ ", non_zero: " ++ toString m.nonZeroCount ++ " \x7d"

theorem read_zeroed (address : UInt16) : zeroed.read address = 0 := by
  simp [read, zeroed]

@[simp] theorem read_write_self (m : Memory) (address : UInt16) (value : UInt8) :
    (m.write address value).read address = value := by
  simp [read, write]

theorem read_write_of_ne
    (m : Memory) {address other : UInt16} (value : UInt8)
    (hne : other ≠ address) :
    (m.write address value).read other = m.read other := by
  have hnat : address.toNat ≠ other.toNat := fun h => hne (UInt16.toNat_inj.mp h).symm
  simp [read, write, Vector.getElem_set_ne, hnat]

theorem ext_read {m n : Memory} (h : ∀ address, m.read address = n.read address) : m = n := by
  obtain ⟨mc⟩ := m
  obtain ⟨nc⟩ := n
  congr
  ext1 i hi
  have hread := h (UInt16.ofNat i)
  have hmod : (UInt16.ofNat i).toNat = i := by
    simp [UInt16.toNat_ofNat', Nat.mod_eq_of_lt hi]
  simpa [read, hmod] using hread

@[simp] theorem load_nil (m : Memory) (base : UInt16) : m.load base [] = m := rfl

@[simp] theorem load_cons (m : Memory) (base : UInt16) (byte : UInt8) (image : List UInt8) :
    m.load base (byte :: image) = (m.write base byte).load (base + 1) image := rfl

end Memory

end Nmos6502
