import Nmos6502.Opcode.AddressingMode
import Nmos6502.Opcode.Mnemonic
import Nmos6502.Word

/-!
# Timing

An instruction costs the base cycles of its opcode plus the surcharges it earns: one for an
indexed read that leaves its page, one for a taken branch and one more if that branch leaves its
page.  Base costs are bounded so that the largest surcharge still fits the cycle counter.
-/

namespace Nmos6502

inductive Penalty where
  | pageCross
  | branchTaken
  | branchPageCross
deriving DecidableEq, Repr

namespace Penalty

def all : List Penalty := [pageCross, branchTaken, branchPageCross]

def cycles : Penalty → UInt8
  | pageCross => 1
  | branchTaken => 1
  | branchPageCross => 1

def identifier : Penalty → String
  | pageCross => "PageCross"
  | branchTaken => "BranchTaken"
  | branchPageCross => "BranchPageCross"

end Penalty

/-- Clocks that either kind of reset takes. -/
def resetCycles : UInt8 := 7

/-- The most that one instruction can earn: a taken branch to another page. -/
def maxSurcharge : UInt8 := 2

/-- The largest base cost that leaves room for every surcharge. -/
def maxBaseCycles : UInt8 := 255 - maxSurcharge

def crossesPage (a b : UInt16) : Bool :=
  a &&& 0xFF00 != b &&& 0xFF00

def AddressingMode.isIndexedRead : AddressingMode → Bool
  | absoluteX | absoluteY | indirectIndexed => true
  | _ => false

/-- Whether the instruction only reads its operand.  Stores and read-modify-write instructions
pay for a crossing in their base cost. -/
def Mnemonic.isPureRead : Mnemonic → Bool
  | lda | ldx | ldy | adc | sbc | cmp | and | ora | eor => true
  | _ => false

def paysPageCross (mnemonic : Mnemonic) (mode : AddressingMode) : Bool :=
  mode.isIndexedRead && mnemonic.isPureRead

/-- The surcharge of a branch to `target`, where `origin` is the address of the instruction that
follows the branch. -/
def branchPenalty (taken : Bool) (origin target : UInt16) : UInt8 :=
  if !taken then 0
  else if crossesPage origin target then
    Byte.saturatingAdd Penalty.branchTaken.cycles Penalty.branchPageCross.cycles
  else Penalty.branchTaken.cycles

theorem branchPenalty_le_maxSurcharge (taken : Bool) (origin target : UInt16) :
    branchPenalty taken origin target ≤ maxSurcharge := by
  unfold branchPenalty
  split
  · decide
  · split <;> decide

end Nmos6502
