import Nmos6502.Proofs.Step
import Nmos6502.Proofs.Transfers

/-!
# What a log tells of retirements

A log of events tells of every instruction that has retired where it stood and what it cost.  Only
the clock that fetches an instruction adds to this, and what it reports is what it bills: one clock
is paid at once and the rest is pending.
-/

namespace Nmos6502

def Event.retirement? : Event → Option (UInt16 × UInt8)
  | .retired pc cycles => some (pc, cycles)
  | _ => none

/-- The instructions that have retired, with their costs. -/
def retirements (log : Array Event) : List (UInt16 × UInt8) :=
  log.toList.filterMap Event.retirement?

@[simp] theorem retirements_event (log : Array Event) (e : Event) :
    retirements (Sink.event log e) = retirements log ++ e.retirement?.toList := by
  change List.filterMap _ (log.push e).toList = _
  rw [Array.toList_push, List.filterMap_append]
  cases hretired : e.retirement? <;> simp [retirements, hretired]

@[simp] theorem retirements_remark (log : Array Event) (remark : DiaryEntry) :
    retirements (Sink.remark log remark) = retirements log := rfl

theorem retirements_traced
    {α β : Type} [Bus β] (t : Work α) (clock : UInt64) (bus : β) (log : Array Event) :
    retirements ((t.embed : Traffic Mark α).traced.run clock bus log).sink = retirements log := by
  have hnone : ∀ list : List Access,
      (list.map Event.accessed).filterMap Event.retirement? = [] := by
    intro list
    simp [List.filterMap_map, Event.retirement?]
  unfold retirements
  rw [t.run_traced_log, List.filterMap_append, hnone, List.append_nil]

/-! ## What an instruction costs -/

theorem Byte.saturatingAdd_pos {a : UInt8} (b : UInt8) (ha : 0 < a) :
    0 < Byte.saturatingAdd a b := by
  have hpos : 0 < a.toNat := UInt8.lt_iff_toNat_lt.mp ha
  unfold saturatingAdd
  by_cases hfits : a.toNat + b.toNat < 256
  · rw [if_pos hfits]
    apply UInt8.lt_iff_toNat_lt.mpr
    rw [UInt8.toNat_add, Nat.mod_eq_of_lt hfits]
    exact Nat.add_pos_left hpos _
  · rw [if_neg hfits]
    decide

namespace Core

theorem cost_pos
    (config : Config) (entry : Opcode.Entry) (m : Mnemonic) (resolved : EffectiveAddress × Core) :
    0 < cost config entry m resolved := by
  apply Byte.saturatingAdd_pos
  unfold Config.baseCycles
  split
  · exact Byte.saturatingAdd_pos _ entry.cycles_pos
  · exact entry.cycles_pos

theorem carriedOut_cost_pos
    {β σ : Type} [Bus β] [Sink σ] (c : Core) (config : Config) (entry : Opcode.Entry)
    (m : Mnemonic) (clock : UInt64) (bus : β) (sink : σ) :
    0 < (c.carriedOut config entry m clock bus sink).value.1 := by
  have hcost :
      (c.pastOpcode.carryOut config entry m).Ensures (fun _ _ => True) fun r => 0 < r.1 := by
    rw [carryOut_eq]
    apply (Traffic.ensures_true _).bind
    intro resolved _
    apply (Traffic.ensures_true _).map
    intro d _
    exact cost_pos config entry m resolved
  exact ((Traffic.ensures_traced _).mpr hcost.embed).run_value _ _ _

end Core

namespace Cpu

variable {β : Type} [Bus β] (cpu : Cpu) (bus : β) (log : Array Event)

theorem retirements_of_refusal
    (hreset : cpu.resetDone = true) (hpending : cpu.pendingCycles = 0)
    {fault : Fault} {remark : DiaryEntry}
    (hrefusal :
      cpu.setup.table.refusal? (cpu.opcodeOn bus) cpu.registers.pc = some (fault, remark)) :
    retirements (cpu.step bus log).sink = retirements log := by
  rw [cpu.step_of_refusal bus log hreset hpending hrefusal]
  simp [Core.announce, Event.retirement?]

theorem retirements_of_decodes
    (hreset : cpu.resetDone = true) (hpending : cpu.pendingCycles = 0)
    {entry : Opcode.Entry} {mnemonic : Mnemonic}
    (hdecodes : cpu.setup.table.Decodes (cpu.opcodeOn bus) entry mnemonic) :
    ∃ cycles : UInt8, 0 < cycles ∧
      retirements (cpu.step bus log).sink = retirements log ++ [(cpu.registers.pc, cycles)] ∧
      (cpu.step bus log).cpu.pendingCycles = Byte.countdown cycles := by
  rw [cpu.step_of_decodes bus log hreset hpending hdecodes]
  refine ⟨_, Core.carriedOut_cost_pos _ _ _ _ _ _ _, ?_, rfl⟩
  simp [Core.announce, Core.carriedOut, retirements_traced, Event.retirement?]

end Cpu

end Nmos6502
