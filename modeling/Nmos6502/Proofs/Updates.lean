import Nmos6502.Cpu.Core

/-!
# Updates of the core

Each register and each flag can be set by itself.  The lemmas say what an update leaves behind in
the component that it sets and that all other components are as they were.
-/

namespace Nmos6502

theorem Byte.or_and_distrib (a b m : UInt8) : (a ||| b) &&& m = (a &&& m) ||| (b &&& m) := by
  rw [← UInt8.toBitVec_inj]
  exact BitVec.and_or_distrib_right

namespace Flag

theorem mask_ne_zero (f : Flag) : f.mask ≠ 0 := by
  cases f <;> decide

theorem mask_and_mask {f g : Flag} (hne : f ≠ g) : f.mask &&& g.mask = 0 := by
  revert hne
  cases f <;> cases g <;> decide

theorem not_mask_and_mask {f g : Flag} (hne : f ≠ g) : ~~~f.mask &&& g.mask = g.mask := by
  revert hne
  cases f <;> cases g <;> decide

end Flag

namespace Status

@[simp] theorem get_set_self (s : Status) (f : Flag) (value : Bool) :
    (s.set f value).get f = value := by
  cases value with
  | false => simp [set, get, UInt8.and_assoc]
  | true => simp [set, get, Byte.or_and_distrib, f.mask_ne_zero]

theorem get_set_of_ne (s : Status) {f g : Flag} (value : Bool) (hne : g ≠ f) :
    (s.set f value).get g = s.get g := by
  cases value with
  | false => simp [set, get, UInt8.and_assoc, Flag.not_mask_and_mask hne.symm]
  | true => simp [set, get, Byte.or_and_distrib, Flag.mask_and_mask hne.symm]

/-- `t` has the flags of `s`, those of `flags` apart. -/
def AgreesOff (flags : List Flag) (s t : Status) : Prop :=
  ∀ f, f ∉ flags → t.get f = s.get f

namespace AgreesOff

variable {flags : List Flag} {s t : Status}

theorem refl (flags : List Flag) (s : Status) : AgreesOff flags s s := fun _ _ => rfl

theorem all (s t : Status) : AgreesOff Flag.all s t :=
  fun f hf => absurd f.mem_all hf

theorem set (h : AgreesOff flags s t) {f : Flag} (hf : f ∈ flags) (value : Bool) :
    AgreesOff flags s (t.set f value) := by
  intro g hg
  have hne : g ≠ f := fun heq => hg (heq ▸ hf)
  rw [get_set_of_ne _ _ hne]
  exact h g hg

theorem setZeroNegative
    (h : AgreesOff flags s t) (hzero : .zero ∈ flags) (hnegative : .negative ∈ flags)
    (value : UInt8) :
    AgreesOff flags s (t.setZeroNegative value) :=
  (h.set hzero _).set hnegative _

end AgreesOff

end Status

namespace Registers

theorem get_set_of_ne (r : Registers) {register other : Register} (value : UInt8)
    (hne : other ≠ register) :
    (r.set register value).get other = r.get other := by
  cases register <;> cases other <;> simp [set, get] at hne ⊢

@[simp] theorem set_pc (r : Registers) (register : Register) (value : UInt8) :
    (r.set register value).pc = r.pc := by
  cases register <;> rfl

@[simp] theorem set_sp (r : Registers) (register : Register) (value : UInt8) :
    (r.set register value).sp = r.sp := by
  cases register <;> rfl

end Registers

namespace Core

variable (c : Core)

@[simp] theorem setRegister_registers (register : Register) (value : UInt8) :
    (c.setRegister register value).registers = c.registers.set register value := rfl

@[simp] theorem setRegister_status (register : Register) (value : UInt8) :
    (c.setRegister register value).status = c.status := rfl

@[simp] theorem setSp_sp (value : UInt8) : (c.setSp value).registers.sp = value := rfl

@[simp] theorem setSp_pc (value : UInt8) : (c.setSp value).registers.pc = c.registers.pc := rfl

@[simp] theorem setSp_get (value : UInt8) (register : Register) :
    (c.setSp value).registers.get register = c.registers.get register := by
  cases register <;> rfl

@[simp] theorem setSp_status (value : UInt8) : (c.setSp value).status = c.status := rfl

@[simp] theorem setSp_setSp (value next : UInt8) :
    (c.setSp value).setSp next = c.setSp next := rfl

@[simp] theorem setPc_pc (target : UInt16) : (c.setPc target).registers.pc = target := rfl

@[simp] theorem setPc_sp (target : UInt16) : (c.setPc target).registers.sp = c.registers.sp := rfl

@[simp] theorem setPc_get (target : UInt16) (register : Register) :
    (c.setPc target).registers.get register = c.registers.get register := by
  cases register <;> rfl

@[simp] theorem setPc_status (target : UInt16) : (c.setPc target).status = c.status := rfl

@[simp] theorem setPc_setPc (target next : UInt16) :
    (c.setPc target).setPc next = c.setPc next := rfl

@[simp] theorem setStatus_registers (status : Status) :
    (c.setStatus status).registers = c.registers := rfl

@[simp] theorem setStatus_status (status : Status) : (c.setStatus status).status = status := rfl

@[simp] theorem setFlag_registers (flag : Flag) (value : Bool) :
    (c.setFlag flag value).registers = c.registers := rfl

@[simp] theorem setFlag_status (flag : Flag) (value : Bool) :
    (c.setFlag flag value).status = c.status.set flag value := rfl

@[simp] theorem setZeroNegative_registers (value : UInt8) :
    (c.setZeroNegative value).registers = c.registers := rfl

@[simp] theorem setZeroNegative_status (value : UInt8) :
    (c.setZeroNegative value).status = c.status.setZeroNegative value := rfl

@[simp] theorem setResult_registers (register : Register) (value : UInt8) :
    (c.setResult register value).registers = c.registers.set register value := rfl

@[simp] theorem setResult_status (register : Register) (value : UInt8) :
    (c.setResult register value).status = c.status.setZeroNegative value := rfl

end Core

end Nmos6502
