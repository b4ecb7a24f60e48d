import Nmos6502.Bus.Tape
import Nmos6502.Proofs.Blocks
import Nmos6502.Proofs.Watched

/-!
# The stream of events

Every call of a session adds its blocks to the stream of events: a reset one, a fetch one, idle
clocks and calls without a reset none.  The stream is the same whoever looks on, it speaks of every
transfer of the bus, and the counts of clocks in it never go back.
-/

namespace Nmos6502

/-! ## What a call adds to the stream -/

/-- The requests that let the processor run. -/
inductive Request.Clocked : Request → Prop
  | reset (kind : ResetKind) : Clocked (.reset kind)
  | step : Clocked .step
  | execute : Clocked .execute

namespace Cpu

/-- The other requests tell nobody: they go as they would without a sink. -/
theorem perform_of_not_clocked
    {β σ : Type} [Bus β] [Sink σ] (cpu : Cpu) {request : Request} (hclocked : ¬ request.Clocked)
    (bus : β) (sink : σ) :
    cpu.perform request bus sink =
      let r := cpu.perform request bus ()
      ⟨r.value, r.cpu, r.bus, sink⟩ := by
  have hsilent : (cpu.perform request bus sink).sink = sink := by
    cases request with
    | reset kind => exact absurd (.reset kind) hclocked
    | step => exact absurd .step hclocked
    | execute => exact absurd .execute hclocked
    | pushByte | pushWord | pullByte | pullWord | resolve =>
        simp [perform, drive, Request.task, Engine.intervene, Traffic.run_bind, Traffic.run]
    | _ => rfl
  have hseen : cpu.perform request bus () =
      ⟨(cpu.perform request bus sink).value, (cpu.perform request bus sink).cpu,
        (cpu.perform request bus sink).bus, ()⟩ :=
    cpu.drive_unobserved (fun e => request.task cpu.setup e) bus sink
  rw [hseen]
  exact congrArg (Report.mk _ _ _) hsilent

/-- The block of a fetch at the program counter, refused or not. -/
inductive Fetches (cpu : Cpu) : Option Fault → Block → Prop
  | retired (opcode : UInt8) (transfers : List Transfer) (cycles : UInt8) :
      cpu.Fetches none (.retired cpu.totalCycles cpu.registers.pc opcode transfers cycles)
  | refused (fault : Fault) (opcode : UInt8) (hopcode : fault.opcode? = some opcode)
      (hpc : fault.pc? = some cpu.registers.pc) :
      cpu.Fetches (some fault) (.refused cpu.totalCycles cpu.registers.pc opcode)

/-- The blocks that a call adds, which takes the processor from `cpu` to `left`. -/
inductive Adds (cpu left : Cpu) : Request → Reply → List Block → Prop
  | reset (kind : ResetKind) (reads : List (UInt16 × UInt8)) (hreads : reads.length = 7) :
      Adds cpu left (.reset kind) .done [.reset cpu.totalCycles kind reads left.registers.pc]
  | unreadyStep (hreset : cpu.resetDone = false) :
      Adds cpu left .step (.phase (.error .resetRequired)) []
  | idleStep (hpending : cpu.pendingCycles ≠ 0) : Adds cpu left .step (.phase (.ok .idle)) []
  | step (block : Block) (hblock : cpu.Fetches none block) :
      Adds cpu left .step (.phase (.ok .fetch)) [block]
  | refusedStep (fault : Fault) (block : Block) (hblock : cpu.Fetches (some fault) block) :
      Adds cpu left .step (.phase (.error fault)) [block]
  | unreadyExecute (hreset : cpu.resetDone = false) :
      Adds cpu left .execute (.clocks (.error .resetRequired)) []
  | execute (clocks : Nat) (block : Block) (hblock : cpu.drained.Fetches none block) :
      Adds cpu left .execute (.clocks (.ok clocks)) [block]
  | refusedExecute (fault : Fault) (block : Block)
      (hblock : cpu.drained.Fetches (some fault) block) :
      Adds cpu left .execute (.clocks (.error fault)) [block]

/-- The blocks of a session, call by call. -/
inductive Tells {β : Type} [Bus β] : Cpu → List Request → β → List Block → Prop
  | nil (cpu : Cpu) (bus : β) : Tells cpu [] bus []
  | cons {cpu : Cpu} {request : Request} {rest : List Request} {bus : β}
      {blocks later : List Block}
      (hfirst :
        cpu.Adds (cpu.perform request bus ()).cpu request (cpu.perform request bus ()).value blocks)
      (hrest : Tells (cpu.perform request bus ()).cpu rest (cpu.perform request bus ()).bus later) :
      Tells cpu (request :: rest) bus (blocks ++ later)

/-! ## The account of one call -/

variable {β : Type} [Bus β]

/-- What a call does and what it reports, in blocks: these are the events, they tell of all
transfers, and they begin while the call lasts. -/
structure Accounts (cpu : Cpu) (request : Request) (bus : β) (blocks : List Block) : Prop where
  adds :
    cpu.Adds (cpu.perform request bus ()).cpu request (cpu.perform request bus ()).value blocks
  events :
    (cpu.perform request bus (#[] : Array Event)).sink.toList = blocks.flatMap Block.events
  moved :
    transfers (cpu.perform request (Probe.fresh bus) ()).bus.calls = blocks.flatMap Block.moved
  timely : ∀ block ∈ blocks, ∃ waited,
    block.clock = cpu.totalCycles + UInt64.ofNat waited ∧
      waited + block.width ≤ (cpu.perform request (Probe.fresh bus) ()).bus.ticks

theorem fetch_block
    (cpu : Cpu) (bus : β) (hreset : cpu.resetDone = true) (hpending : cpu.pendingCycles = 0) :
    ∃ refusal? block, cpu.Fetches refusal? block ∧
      (cpu.step bus ()).value = refusal?.elim (.ok .fetch) .error ∧
      (cpu.step bus (#[] : Array Event)).sink.toList = block.events ∧
      transfers (cpu.step (Probe.fresh bus) ()).bus.calls = block.moved ∧
      block.width ≤ (cpu.step (Probe.fresh bus) ()).bus.ticks := by
  rcases cpu.setup.table.refused_or_decodes (cpu.opcodeOn bus) cpu.registers.pc with
    ⟨fault, remark, hrefusal⟩ | ⟨entry, m, hdecodes⟩
  · have hfault : fault.opcode? = some (cpu.opcodeOn bus) ∧ fault.pc? = some cpu.registers.pc := by
      rcases Opcode.Table.fault_of_refusal? hrefusal with rfl | ⟨name, rfl⟩
      · exact ⟨rfl, rfl⟩
      · exact ⟨rfl, rfl⟩
    refine ⟨some fault, _, .refused fault (cpu.opcodeOn bus) hfault.1 hfault.2, ?_, ?_, ?_, ?_⟩
    · rw [cpu.step_of_refusal bus () hreset hpending hrefusal]
      rfl
    · rw [cpu.step_of_refusal bus #[] hreset hpending hrefusal]
      rfl
    · rw [cpu.step_of_refusal (Probe.fresh bus) () hreset hpending hrefusal]
      rfl
    · exact Nat.zero_le _
  · let o := cpu.carriedOut cpu.setup.config entry m cpu.totalCycles bus (#[] : Array Event)
    let calls := Traffic.calls (cpu.pastOpcode.carryOut cpu.setup.config entry m).embed
      (cpu.busPastOpcode bus)
    have hcalls := cpu.step_calls_of_decodes bus () hreset hpending hdecodes
    refine ⟨none, _, .retired (cpu.opcodeOn bus) (transfers calls) o.value.1, ?_, ?_, ?_, ?_⟩
    · rw [cpu.step_of_decodes bus () hreset hpending hdecodes]
      rfl
    · rw [cpu.step_of_decodes bus #[] hreset hpending hdecodes]
      change (Array.push _ _).toList = _
      rw [Array.toList_push, Core.carriedOut, Traffic.run_traced_log]
      rfl
    · rw [hcalls]
      simp [Block.moved_retired, calls]
    · unfold Probe.ticks
      rw [hcalls]
      simp [Block.width]

theorem Fetches.clock_eq {cpu : Cpu} {refusal? : Option Fault} {block : Block}
    (h : cpu.Fetches refusal? block) : block.clock = cpu.totalCycles := by
  cases h <;> rfl

theorem accounts_of_step (cpu : Cpu) (bus : β) : ∃ blocks, cpu.Accounts .step bus blocks := by
  by_cases hreset : cpu.resetDone = true
  · by_cases hpending : cpu.pendingCycles = 0
    · rcases cpu.fetch_block bus hreset hpending with
        ⟨refusal?, block, hblock, hvalue, hevents, hmoved, hwidth⟩
      refine ⟨[block], ?_, ?_, ?_, ?_⟩
      · rw [perform_step]
        simp only [hvalue]
        cases refusal? with
        | none => exact .step block hblock
        | some fault => exact .refusedStep fault block hblock
      · rw [perform_step]
        simpa using hevents
      · rw [perform_step]
        simpa using hmoved
      · intro other hmem
        obtain rfl := List.mem_singleton.mp hmem
        rw [perform_step]
        exact ⟨0, by simp [hblock.clock_eq], by simpa using hwidth⟩
    · refine ⟨[], ?_, ?_, ?_, by simp⟩
      · rw [perform_step, cpu.step_of_pending bus () hreset hpending]
        exact .idleStep hpending
      · rw [perform_step, cpu.step_of_pending bus #[] hreset hpending]
        rfl
      · rw [perform_step, cpu.step_of_pending (Probe.fresh bus) () hreset hpending]
        rfl
  · have hunready := Bool.eq_false_iff.mpr hreset
    refine ⟨[], ?_, ?_, ?_, by simp⟩
    · rw [perform_step, cpu.step_of_not_reset bus () hunready]
      exact .unreadyStep hunready
    · rw [perform_step, cpu.step_of_not_reset bus #[] hunready]
      rfl
    · rw [perform_step, cpu.step_of_not_reset (Probe.fresh bus) () hunready]
      rfl

theorem accounts_of_execute (cpu : Cpu) (bus : β) : ∃ blocks, cpu.Accounts .execute bus blocks := by
  by_cases hreset : cpu.resetDone = true
  · let clocked := Bus.tick^[cpu.pendingCycles.toNat] bus
    rcases cpu.drained.fetch_block clocked hreset rfl with
      ⟨refusal?, block, hblock, hvalue, hevents, hmoved, hwidth⟩
    rcases cpu.execute_probe bus () hreset with ⟨later, hcalls⟩
    refine ⟨[block], ?_, ?_, ?_, ?_⟩
    · rw [perform_execute]
      cases refusal? with
      | none =>
          rw [cpu.execute_of_fetch bus () hreset hvalue]
          exact .execute _ block hblock
      | some fault =>
          rw [cpu.execute_of_fault bus () hreset hvalue]
          exact .refusedExecute fault block hblock
    · rw [perform_execute]
      simp only [cpu.execute_sink bus (#[] : Array Event) hreset]
      exact hevents.trans (List.flatMap_singleton _ _).symm
    · rw [perform_execute]
      simp only [hcalls]
      simpa using hmoved
    · intro other hmem
      obtain rfl := List.mem_singleton.mp hmem
      rw [perform_execute]
      -- The block begins once the instruction in flight has run out.
      refine ⟨cpu.pendingCycles.toNat, hblock.clock_eq, ?_⟩
      have hticks : (cpu.execute (Probe.fresh bus) ()).bus.ticks =
          cpu.pendingCycles.toNat + (cpu.drained.step (Probe.fresh clocked) ()).bus.ticks +
            later := by
        simp [Probe.ticks, hcalls, clocked, Nat.add_assoc]
      simp only [hticks]
      omega
  · have hunready := Bool.eq_false_iff.mpr hreset
    refine ⟨[], ?_, ?_, ?_, by simp⟩
    · rw [perform_execute, cpu.execute_of_not_reset bus () hunready]
      exact .unreadyExecute hunready
    · rw [perform_execute, cpu.execute_of_not_reset bus #[] hunready]
      rfl
    · rw [perform_execute, cpu.execute_of_not_reset (Probe.fresh bus) () hunready]
      rfl

/-- What comes back when the addresses are read in turn, one in a clock. -/
def clockedBytes : List UInt16 → β → List (UInt16 × UInt8)
  | [], _ => []
  | address :: rest, bus =>
    let (byte, bus) := Bus.read bus address
    (address, byte) :: clockedBytes rest (Bus.tick bus)

def resetAddresses (r : Registers) : List UInt16 :=
  [r.pc, r.pc + 1, Core.stackCell (r.sp - 1), Core.stackCell (r.sp - 2), Core.stackCell (r.sp - 3),
    resetVector, resetVector + 1]

theorem accounts_of_reset (cpu : Cpu) (kind : ResetKind) (bus : β) :
    ∃ blocks, cpu.Accounts (.reset kind) bus blocks := by
  let reads := clockedBytes (resetAddresses cpu.registers) bus
  let block := Block.reset cpu.totalCycles kind reads (cpu.reset kind bus ()).cpu.registers.pc
  refine ⟨[block], ?_, ?_, ?_, ?_⟩
  · rw [perform_reset]
    exact .reset kind reads rfl
  · rw [perform_reset, List.flatMap_singleton]
    have hevents := cpu.drive_events (Engine.reset kind) bus
    cases kind with
    | deterministic => exact hevents
    | hardwareAccurate => exact hevents
  · rw [perform_reset]
    simp [block, Block.moved_reset]
    rfl
  · intro other hmem
    obtain rfl := List.mem_singleton.mp hmem
    rw [perform_reset]
    have hticks := (cpu.reset_ticks kind (Probe.fresh bus) ()).1
    have hwidth : 0 + block.width = 7 := rfl
    refine ⟨0, by simp [block, Block.clock], ?_⟩
    rw [hwidth, hticks]
    exact Nat.le_add_left 7 _

/-! ## The account of a session -/

theorem accounts_of_clocked
    (cpu : Cpu) {request : Request} (hclocked : request.Clocked) (bus : β) :
    ∃ blocks, cpu.Accounts request bus blocks := by
  cases hclocked with
  | reset kind => exact cpu.accounts_of_reset kind bus
  | step => exact cpu.accounts_of_step bus
  | execute => exact cpu.accounts_of_execute bus

theorem Adds.pairwise
    {cpu left : Cpu} {request : Request} {reply : Reply} {blocks : List Block}
    (h : cpu.Adds left request reply blocks) (R : Block → Block → Prop) :
    blocks.Pairwise R := by
  cases h <;> simp

theorem Accounts.inOrder
    {cpu : Cpu} {request : Request} {bus : β} {blocks : List Block}
    (h : cpu.Accounts request bus blocks)
    (hbound : cpu.totalCycles.toNat + (cpu.perform request (Probe.fresh bus) ()).bus.ticks <
      UInt64.size) :
    Block.InOrder cpu.totalCycles.toNat (cpu.perform request bus ()).cpu.totalCycles.toNat
      blocks := by
  have hends := UInt64.toNat_add_ofNat hbound
  rw [cpu.perform_total request bus, hends]
  refine ⟨Nat.le_add_right _ _, h.adds.pairwise _, fun block hmem => ?_⟩
  rcases h.timely block hmem with ⟨waited, hclock, hwaited⟩
  have hbegins : block.clock.toNat = cpu.totalCycles.toNat + waited := by
    rw [hclock]
    exact UInt64.toNat_add_ofNat (by omega)
  omega

/-- The events of a session are those of its blocks, and so are its transfers.  As long as the count
of clocks stays within its range, the blocks are in order. -/
theorem blocks_of_performAll
    (cpu : Cpu) (requests : List Request) (bus : β)
    (hclocked : ∀ request ∈ requests, request.Clocked) :
    let finish := cpu.totalCycles.toNat + (cpu.watched requests bus ()).bus.ticks
    ∃ blocks, cpu.Tells requests bus blocks ∧
      (cpu.performAll requests bus (#[] : Array Event)).sink.toList =
        blocks.flatMap Block.events ∧
      transfers (cpu.watched requests bus ()).bus.calls = blocks.flatMap Block.moved ∧
      (finish < UInt64.size → Block.InOrder cpu.totalCycles.toNat finish blocks) := by
  induction requests generalizing cpu bus with
  | nil => exact ⟨[], .nil cpu bus, rfl, rfl, fun _ => .nil (Nat.le_refl _)⟩
  | cons request rest ih =>
      let r := cpu.perform request bus ()
      have hrequest := hclocked request List.mem_cons_self
      have hcalls := cpu.watched_cons_calls request rest bus
      rcases cpu.accounts_of_clocked hrequest bus with ⟨blocks, haccounts⟩
      rcases ih r.cpu r.bus (fun other hmem => hclocked other (List.mem_cons_of_mem _ hmem)) with
        ⟨later, hlater, hevents, hmoved, horder⟩
      refine ⟨blocks ++ later, .cons haccounts.adds hlater, ?_, ?_, fun hbound => ?_⟩
      · rw [cpu.performAll_cons_log request rest bus, haccounts.events, hevents,
          List.flatMap_append]
      · rw [hcalls, transfers_append, haccounts.moved, hmoved, List.flatMap_append]
      · have hticks : (cpu.watched (request :: rest) bus ()).bus.ticks =
            (cpu.perform request (Probe.fresh bus) ()).bus.ticks +
              (r.cpu.watched rest r.bus ()).bus.ticks := by
          unfold Probe.ticks
          rw [hcalls, List.count_append]
        rw [hticks, ← Nat.add_assoc] at hbound ⊢
        have hfirst := Nat.lt_of_le_of_lt (Nat.le_add_right _ _) hbound
        have htotal : r.cpu.totalCycles.toNat = cpu.totalCycles.toNat +
            (cpu.perform request (Probe.fresh bus) ()).bus.ticks :=
          (congrArg UInt64.toNat (cpu.perform_total request bus)).trans
            (UInt64.toNat_add_ofNat hfirst)
        rw [← htotal] at hbound ⊢
        exact (haccounts.inOrder hfirst).append (horder hbound)

theorem transfers_of_performAll
    (cpu : Cpu) (requests : List Request) (bus : β)
    (hclocked : ∀ request ∈ requests, request.Clocked) :
    (accesses (cpu.performAll requests bus (#[] : Array Event)).sink.toList).map Access.transfer =
      transfers (cpu.watched requests bus ()).bus.calls := by
  rcases cpu.blocks_of_performAll requests bus hclocked with ⟨blocks, -, hevents, hmoved, -⟩
  rw [hevents, hmoved, Block.accesses_flatMap_events, List.map_flatMap]
  rfl

/-- A session goes the same way whoever looks on, and every sink is told the same notes.  The events
among them report the transfers of the bus one for one and fall into the blocks of the calls; as
long as the count of clocks stays within its range, the stamps never go back, and they have grown
when a reset or an instruction is over.  Over plain memory the reported accesses alone lead from the
first contents to the last. -/
theorem trace_is_faithful
    (cpu : Cpu) (requests : List Request) (bus : β)
    (hclocked : ∀ request ∈ requests, request.Clocked) :
    let bare := cpu.performAll requests bus ()
    let calls := (cpu.watched requests bus ()).bus.calls
    let log := (cpu.performAll requests bus (#[] : Array Event)).sink.toList
    (∀ {σ : Type} [Sink σ] (sink : σ),
      let r := cpu.performAll requests bus sink
      r.value = bare.value ∧ r.cpu = bare.cpu ∧ r.bus = bare.bus) ∧
    (∃ notes : List Note, notes.filterMap Note.event? = log ∧
      ∀ {σ : Type} [Sink σ] (sink : σ),
        (cpu.performAll requests bus sink).sink = notes.foldl Sink.take sink) ∧
    (accesses log).map Access.transfer = transfers calls ∧
    (∃ blocks, cpu.Tells requests bus blocks ∧ log = blocks.flatMap Block.events ∧
      (cpu.totalCycles.toNat + calls.count .tick < UInt64.size →
        (accesses log).Pairwise (fun first second => first.cycle ≤ second.cycle) ∧
        blocks.Pairwise fun first second => first.Completes →
          ∀ a ∈ first.accesses, ∀ b ∈ second.accesses, a.cycle < b.cycle)) ∧
    (∀ memory : Memory,
      let r := cpu.performAll requests memory (#[] : Array Event)
      memory.Follows ((accesses r.sink.toList).map Access.transfer) r.bus) := by
  intro bare calls log
  refine ⟨?_, ?_, ?_, ?_, ?_⟩
  · intro σ _ sink
    exact cpu.performAll_any_sink requests bus sink ()
  · refine ⟨(Request.tasks cpu.setup requests cpu.toEngine).notes cpu.totalCycles bus, ?_, ?_⟩
    · have hevents := cpu.drive_events (Request.tasks cpu.setup requests) bus
      rw [← performAll_eq_drive] at hevents
      exact hevents.symm
    · intro σ _ sink
      rw [performAll_eq_drive]
      exact cpu.drive_sink _ bus sink
  · exact cpu.transfers_of_performAll requests bus hclocked
  · rcases cpu.blocks_of_performAll requests bus hclocked with ⟨blocks, htells, hevents, -, horder⟩
    refine ⟨blocks, htells, hevents, fun hbound => ?_⟩
    have hordered := horder hbound
    have hsorted := hordered.cycles_sorted hbound
    rw [← hevents] at hsorted
    exact ⟨hsorted, hordered.cycles_increase hbound⟩
  · intro memory r
    have hfollows := cpu.follows_performAll requests memory (#[] : Array Event)
    rwa [← cpu.transfers_of_performAll requests memory hclocked] at hfollows

theorem clocked_resetMidway : ∀ request ∈ resetMidway, request.Clocked := by
  simp only [resetMidway, List.forall_mem_cons]
  exact ⟨.step, .reset _, .execute, by simp⟩

theorem faithful_resetMidway :
    let nop : Opcode.Entry := ⟨0xEA, "NOP", some .nop, .implied, 1, 2, by decide, by decide⟩
    let cpu := readyAt 0x400 (Opcode.Table.empty.insert nop)
    let log := (cpu.performAll resetMidway resetMidwayTape (#[] : Array Event)).sink.toList
    (accesses log).map Access.transfer =
      [⟨.read, 0x400, 0xEA⟩, ⟨.read, 0x401, 0⟩, ⟨.read, 0x402, 0⟩, ⟨.read, 0x1FC, 0⟩,
        ⟨.read, 0x1FB, 0⟩, ⟨.read, 0x1FA, 0⟩, ⟨.read, 0xFFFC, 0⟩, ⟨.read, 0xFFFD, 4⟩,
        ⟨.read, 0x400, 0xEA⟩] ∧
      (accesses log).Pairwise fun first second => first.cycle ≤ second.cycle := by
  intro nop cpu log
  obtain ⟨-, -, htransfers, ⟨blocks, -, -, horder⟩, -⟩ :=
    cpu.trace_is_faithful resetMidway resetMidwayTape clocked_resetMidway
  refine ⟨?_, (horder (by decide +kernel)).1⟩
  rw [htransfers]
  decide +kernel

end Cpu

end Nmos6502
