import Nmos6502.Proofs.Effect
import Nmos6502.Proofs.Numerals

/-!
# Programs on plain memory

Where a program lies in memory, and what a number of instructions come to, one after the other.  The
contract of a piece of code says from which core and memory to which it leads, without a fault and
whatever the clocks, and contracts of adjoining pieces compose.
-/

namespace Nmos6502

/-! ## Code in memory -/

namespace Memory

def Holds (memory : Memory) : UInt16 → List UInt8 → Prop
  | _, [] => True
  | base, byte :: code => memory.read base = byte ∧ memory.Holds (base + 1) code

theorem holds_append {memory : Memory} {base : UInt16} {first second : List UInt8} :
    memory.Holds base (first ++ second) ↔
      memory.Holds base first ∧ memory.Holds (base + .ofNat first.length) second := by
  induction first generalizing base with
  | nil => simp [Holds]
  | cons byte rest ih =>
      simp only [List.cons_append, Holds, ih, List.length_cons, Word.succ_add_ofNat, and_assoc]

theorem away_from_rest
    {base address : UInt16} {length : Nat} (haway : ∀ i < length + 1, address ≠ base + .ofNat i) :
    address ≠ base ∧ ∀ i < length, address ≠ base + 1 + .ofNat i := by
  refine ⟨by simpa using haway 0 (Nat.zero_lt_succ _), fun i hi => ?_⟩
  rw [Word.succ_add_ofNat]
  exact haway (i + 1) (Nat.succ_lt_succ hi)

theorem read_load_of_ne
    (memory : Memory) {base address : UInt16} (image : List UInt8)
    (haway : ∀ i < image.length, address ≠ base + .ofNat i) :
    (memory.load base image).read address = memory.read address := by
  induction image generalizing memory base with
  | nil => rfl
  | cons byte rest ih =>
      rcases away_from_rest haway with ⟨hne, hrest⟩
      rw [load_cons, ih _ hrest, read_write_of_ne _ _ hne]

/-- An image that fits into the address space is found where it has been loaded, also where it wraps
around. -/
theorem holds_load
    (memory : Memory) (base : UInt16) {image : List UInt8} (hfits : image.length ≤ 65536) :
    (memory.load base image).Holds base image := by
  induction image generalizing memory base with
  | nil => trivial
  | cons byte rest ih =>
      rw [List.length_cons] at hfits
      refine ⟨?_, ih _ _ (by omega)⟩
      -- The rest of the image ends before it comes around to its first cell again.
      have haway : ∀ i < rest.length, base ≠ base + 1 + .ofNat i := by
        intro i hi heq
        have hnat := congrArg UInt16.toNat heq
        simp only [UInt16.toNat_add, UInt16.toNat_ofNat'] at hnat
        have hbase := base.toNat_lt
        change base.toNat = ((base.toNat + 1) % 65536 + i % 65536) % 65536 at hnat
        omega
      rw [load_cons, read_load_of_ne _ _ haway, read_write_self]

theorem Holds.write
    {memory : Memory} {base address : UInt16} {code : List UInt8} (hcode : memory.Holds base code)
    (haway : ∀ i < code.length, address ≠ base + .ofNat i) (value : UInt8) :
    (memory.write address value).Holds base code := by
  induction code generalizing base with
  | nil => trivial
  | cons byte rest ih =>
      rcases away_from_rest haway with ⟨hne, hrest⟩
      exact ⟨(read_write_of_ne _ _ hne.symm).trans hcode.1, ih hcode.2 hrest⟩

end Memory

/-! ## Instructions one after the other -/

namespace Cpu

def after (cpu : Cpu) (n : Nat) (memory : Memory) : Report (List Reply) Memory Unit :=
  cpu.performAll (List.replicate n .execute) memory ()

theorem after_add (cpu : Cpu) (m n : Nat) (memory : Memory) :
    cpu.after (m + n) memory =
      let a := cpu.after m memory
      let b := a.cpu.after n a.bus
      ⟨a.value ++ b.value, b.cpu, b.bus, ()⟩ := by
  simp only [after, ← List.replicate_append_replicate, performAll_append]

/-- The processor takes instructions, and from this table. -/
structure Ready (cpu : Cpu) (table : Opcode.Table) : Prop where
  resetDone : cpu.resetDone = true
  table_eq : cpu.setup.table = table

theorem Ready.perform
    {cpu : Cpu} {table : Opcode.Table} (hready : cpu.Ready table) (memory : Memory) :
    (cpu.perform .execute memory ()).cpu.Ready table where
  resetDone := by
    rw [perform_execute]
    exact (cpu.execute_leaves memory hready.resetDone).2
  table_eq := hready.table_eq

theorem Ready.after
    {cpu : Cpu} {table : Opcode.Table} (hready : cpu.Ready table) (n : Nat) (memory : Memory) :
    (cpu.after n memory).cpu.Ready table := by
  induction n generalizing cpu memory with
  | zero => exact hready
  | succ n ih => exact ih (hready.perform memory) _

end Cpu

namespace Core

/-- Whatever the clocks, `n` instructions lead from one core and memory to the other, and none of
them is refused. -/
def Leads
    (table : Opcode.Table) (n : Nat) (c : Core) (memory : Memory) (d : Core) (left : Memory) :
    Prop :=
  ∀ cpu : Cpu, cpu.Ready table → cpu.toCore = c →
    let r := cpu.after n memory
    r.cpu.toCore = d ∧ r.bus = left ∧ ∀ reply ∈ r.value, reply.fault? = none

variable {table : Opcode.Table} {m n : Nat} {c d e : Core} {memory left last : Memory}

theorem Leads.zero : Leads table 0 c memory c memory := by
  intro cpu _ hcore
  exact ⟨hcore, rfl, by simp [Cpu.after, Cpu.performAll]⟩

theorem Leads.trans
    (hfirst : Leads table m c memory d left) (hsecond : Leads table n d left e last) :
    Leads table (m + n) c memory e last := by
  intro cpu hready hcore
  rcases hfirst cpu hready hcore with ⟨hmiddle, hbus, haccepted⟩
  have hlater := hsecond (cpu.after m memory).cpu (hready.after m memory) hmiddle
  simp only [Cpu.after_add, hbus]
  rcases hlater with ⟨hend, hleft, haccepted'⟩
  exact ⟨hend, hleft, fun reply hmem =>
    (List.mem_append.mp hmem).elim (haccepted reply) (haccepted' reply)⟩

theorem leads_of_decodes
    {entry : Opcode.Entry} {m : Mnemonic}
    (hdecodes : table.Decodes (memory.read c.registers.pc) entry m) :
    let ready := c.setPc (c.registers.pc + entry.mode.instructionLength.toUInt16)
    let operand := c.pastOpcode.operandOn memory entry.mode
    let s := (m.action.effect ready operand).result memory
    Leads table 1 c memory s.value s.bus := by
  intro ready operand s cpu hready hcore
  subst hcore
  have hdecoded : cpu.setup.table.Decodes (memory.read cpu.registers.pc) entry m := by
    rw [hready.table_eq]
    exact hdecodes
  rcases cpu.perform_effect memory hready.resetDone (.inl rfl) hdecoded with
    ⟨hfault, hend, hbus⟩
  refine ⟨hend, hbus, ?_⟩
  intro reply hmem
  obtain rfl := List.mem_singleton.mp hmem
  exact hfault

end Core

end Nmos6502
