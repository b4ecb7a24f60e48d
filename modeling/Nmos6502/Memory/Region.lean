/-!
# The memory map

Six regions cover the address space without gaps or overlaps.  `Region.ofAddress` classifies an
address; the vectors and the conventional device windows are named here too.
-/

namespace Nmos6502

inductive Region where
  | zeroPage
  | stack
  | ram
  | io
  | highRom
  | vectors
deriving DecidableEq, Repr

namespace Region

/-- The regions in ascending address order. -/
def all : List Region := [zeroPage, stack, ram, io, highRom, vectors]

def first : Region → UInt16
  | zeroPage => 0x0000
  | stack => 0x0100
  | ram => 0x0200
  | io => 0xC000
  | highRom => 0xE000
  | vectors => 0xFFFA

def last : Region → UInt16
  | zeroPage => 0x00FF
  | stack => 0x01FF
  | ram => 0xBFFF
  | io => 0xDFFF
  | highRom => 0xFFF9
  | vectors => 0xFFFF

def contains (r : Region) (address : UInt16) : Bool :=
  r.first ≤ address && address ≤ r.last

def ofAddress (address : UInt16) : Region :=
  if address ≤ zeroPage.last then zeroPage
  else if address ≤ stack.last then stack
  else if address ≤ ram.last then ram
  else if address ≤ io.last then io
  else if address ≤ highRom.last then highRom
  else vectors

def identifier : Region → String
  | zeroPage => "ZeroPage"
  | stack => "Stack"
  | ram => "Ram"
  | io => "Io"
  | highRom => "HighRom"
  | vectors => "Vectors"

end Region

/-- The stack pointer is an offset from here. -/
def stackBase : UInt16 := Region.stack.first

def nmiVector : UInt16 := 0xFFFA

def resetVector : UInt16 := 0xFFFC

def irqVector : UInt16 := 0xFFFE

/-- Conventional base of the character display. -/
def displayBase : UInt16 := 0xC000

/-- Conventional base of the tone generator. -/
def soundBase : UInt16 := 0xC400

/-- Conventional base of the console streams. -/
def consoleBase : UInt16 := 0xD000

end Nmos6502
