import Nmos6502.Proofs.Frame
import Nmos6502.Proofs.Result
import Nmos6502.Proofs.Watched

/-!
# Time and meaning

On plain memory the clock has no effect, so what an instruction does is the same whatever it costs.
`Core.turn` is a whole instruction without its clocks; every `execute` comes to it.  Base costs,
the surcharge for a page crossing and what is pending decide on the number of clocks and on nothing
else.
-/

namespace Nmos6502

/-! ## A whole instruction without its clocks -/

/-- What an entry says apart from its cost and from the length that is listed with it. -/
structure Opcode.Entry.Meaning where
  name : String
  mnemonic : Option Mnemonic
  mode : AddressingMode

def Opcode.Entry.meaning (entry : Opcode.Entry) : Opcode.Entry.Meaning :=
  ⟨entry.name, entry.mnemonic, entry.mode⟩

/-- The tables differ in nothing but costs and listed lengths. -/
def Opcode.Table.Alike (t u : Opcode.Table) : Prop :=
  ∀ opcode, (t.lookup opcode).map Opcode.Entry.meaning = (u.lookup opcode).map Opcode.Entry.meaning

namespace Core

variable {β σ : Type} [Bus β] [Sink σ]

def turn (table : Opcode.Table) (c : Core) : Work (Option Fault × Core) := do
  let pc := c.registers.pc
  let (opcode, c) ← c.fetchByte
  match (table.lookup opcode).map Opcode.Entry.meaning with
  | none => pure (some (.unimplementedOpcode opcode pc), c)
  | some ⟨name, none, _⟩ => pure (some (.instructionNotImplemented name opcode pc), c)
  | some ⟨_, some mnemonic, mode⟩ => Prod.mk none <$> c.proceed mode mnemonic

theorem turn_of_alike {t u : Opcode.Table} (halike : t.Alike u) (c : Core) :
    c.turn t = c.turn u := by
  unfold turn
  simp only [halike _]

theorem turn_of_refusal
    (c : Core) (bus : β) {table : Opcode.Table} {fault : Fault} {remark : DiaryEntry}
    (hrefusal : table.refusal? (c.opcodeOn bus) c.registers.pc = some (fault, remark)) :
    (c.turn table).result bus =
      ⟨(some fault, c.pastOpcode), c.busPastOpcode bus,
        [⟨.read, c.registers.pc, c.opcodeOn bus⟩]⟩ := by
  unfold Opcode.Table.refusal? opcodeOn at hrefusal
  cases hentry : table.lookup (Bus.read bus c.registers.pc).1 with
  | none =>
      simp only [hentry, Option.some.injEq, Prod.mk.injEq] at hrefusal
      rcases hrefusal with ⟨rfl, -⟩
      simp [turn, fetchByte, Traffic.fetch, Traffic.result, hentry, pastOpcode, busPastOpcode,
        opcodeOn]
  | some entry =>
      cases hmnemonic : entry.mnemonic with
      | none =>
          simp only [hentry, hmnemonic, Option.some.injEq, Prod.mk.injEq] at hrefusal
          rcases hrefusal with ⟨rfl, -⟩
          simp [turn, fetchByte, Traffic.fetch, Traffic.result, hentry, Opcode.Entry.meaning,
            hmnemonic, pastOpcode, busPastOpcode, opcodeOn]
      | some mnemonic => simp [hentry, hmnemonic] at hrefusal

theorem turn_of_decodes
    (c : Core) (bus : β) {table : Opcode.Table} {entry : Opcode.Entry} {mnemonic : Mnemonic}
    (hdecodes : table.Decodes (c.opcodeOn bus) entry mnemonic) :
    (c.turn table).result bus =
      let r := (c.pastOpcode.proceed entry.mode mnemonic).result (c.busPastOpcode bus)
      ⟨(none, r.value), r.bus, ⟨.read, c.registers.pc, c.opcodeOn bus⟩ :: r.moved⟩ := by
  have hentry : table.lookup (Bus.read bus c.registers.pc).1 = some entry := hdecodes.lookup_eq
  simp only [turn, fetchByte, Traffic.fetch, Traffic.pure_eq_done, Traffic.read_bind,
    Traffic.done_bind, Traffic.result, hentry, Option.map_some, Opcode.Entry.meaning,
    hdecodes.mnemonic_eq, Traffic.result_map]
  rfl

end Core

/-! ## One call on plain memory -/

theorem Memory.tick_iterate (n : Nat) (memory : Memory) : Bus.tick^[n] memory = memory := by
  induction n with
  | zero => rfl
  | succ n ih => exact ih

/-- The fault that a request was refused with. -/
def Reply.fault? : Reply → Option Fault
  | .phase (.error fault) => some fault
  | .clocks (.error fault) => some fault
  | _ => none

namespace Cpu

variable (cpu : Cpu) (memory : Memory)

theorem fetchingStep_memory {σ : Type} [Sink σ] (sink : σ) :
    cpu.fetchingStep memory sink = cpu.drained.step memory sink := by
  rw [fetchingStep, Memory.tick_iterate]

/-- Whatever the costs and the configuration, the clock that fetches comes to one turn. -/
theorem step_turn (hreset : cpu.resetDone = true) (hpending : cpu.pendingCycles = 0) :
    let x := cpu.step memory ()
    let r := (cpu.turn cpu.setup.table).result memory
    (Reply.phase x.value).fault? = r.value.1 ∧ x.cpu.toCore = r.value.2 ∧ x.bus = r.bus ∧
      transfers (cpu.step (Probe.fresh memory) ()).bus.calls = r.moved := by
  intro x r
  rcases cpu.setup.table.refused_or_decodes (cpu.opcodeOn memory) cpu.registers.pc with
    ⟨fault, remark, hrefusal⟩ | ⟨entry, mnemonic, hdecodes⟩
  · have hx : x = _ := cpu.step_of_refusal memory () hreset hpending hrefusal
    have hr : r = _ := cpu.turn_of_refusal memory hrefusal
    rw [hx, hr, cpu.step_of_refusal (Probe.fresh memory) () hreset hpending hrefusal]
    exact ⟨rfl, rfl, rfl, rfl⟩
  · have hx : x = _ := cpu.step_of_decodes memory () hreset hpending hdecodes
    have hr : r = _ := cpu.turn_of_decodes memory hdecodes
    have hcarried := cpu.carriedOut_result cpu.setup.config entry mnemonic cpu.totalCycles memory ()
    rw [hx, hr, cpu.step_transfers_of_decodes memory () hreset hpending hdecodes,
      Core.carryOut_result]
    exact ⟨rfl, congrArg Prod.snd hcarried.1, hcarried.2, rfl⟩

/-- A call sees out what is pending, comes to one turn and lets its clocks pass. -/
theorem execute_turn (hreset : cpu.resetDone = true) :
    let x := cpu.execute memory ()
    let r := (cpu.turn cpu.setup.table).result memory
    (Reply.clocks x.value).fault? = r.value.1 ∧ x.cpu.toCore = r.value.2 ∧ x.bus = r.bus ∧
      transfers (cpu.execute (Probe.fresh memory) ()).bus.calls = r.moved := by
  intro x r
  rw [cpu.execute_transfers memory () hreset, Memory.tick_iterate]
  rcases cpu.drained.step_turn memory hreset rfl with ⟨hfault, hcore, hbus, hmoved⟩
  rw [← cpu.fetchingStep_memory] at hfault hcore hbus
  cases hvalue : (cpu.fetchingStep memory ()).value with
  | error fault =>
      have hx : x = _ := cpu.execute_of_fault memory () hreset hvalue
      rw [hvalue] at hfault
      rw [hx]
      exact ⟨hfault, hcore, hbus, hmoved⟩
  | ok phase =>
      have hx : x = _ := cpu.execute_of_fetch memory () hreset hvalue
      rw [hvalue] at hfault
      rw [hx, Memory.tick_iterate]
      exact ⟨hfault, hcore, hbus, hmoved⟩

theorem execute_leaves (hreset : cpu.resetDone = true) :
    let x := cpu.execute memory ()
    x.cpu.pendingCycles = 0 ∧ x.cpu.resetDone = true := by
  intro x
  cases hvalue : (cpu.fetchingStep memory ()).value with
  | error fault =>
      have hx : x = _ := cpu.execute_of_fault memory () hreset hvalue
      have hleft := (cpu.drained.step_of_error _ () hreset rfl hvalue).1
      rw [hx]
      simp only [fetchingStep, hleft]
      exact ⟨rfl, hreset⟩
  | ok phase =>
      have hx : x = _ := cpu.execute_of_fetch memory () hreset hvalue
      rw [hx]
      exact ⟨rfl, cpu.fetchingStep_resetDone memory () hreset⟩

/-! ## Calls on processors that differ in time -/

/-- The processors differ in nothing but configuration, costs and counts of clocks. -/
structure Alike (c d : Cpu) : Prop where
  core : c.toCore = d.toCore
  resetDone : c.resetDone = d.resetDone
  table : c.setup.table.Alike d.setup.table

theorem Alike.perform
    {c d : Cpu} (halike : c.Alike d) (memory : Memory) :
    let r := c.perform .execute memory ()
    let s := d.perform .execute memory ()
    r.value.fault? = s.value.fault? ∧ r.cpu.Alike s.cpu ∧ r.bus = s.bus ∧
      (c.pendingCycles = d.pendingCycles → r.cpu.pendingCycles = s.cpu.pendingCycles) ∧
      transfers (c.perform .execute (Probe.fresh memory) ()).bus.calls =
        transfers (d.perform .execute (Probe.fresh memory) ()).bus.calls := by
  simp only [perform_execute]
  cases hreset : c.resetDone with
  | false =>
      have hother : d.resetDone = false := halike.resetDone.symm.trans hreset
      rw [c.execute_of_not_reset memory () hreset, d.execute_of_not_reset memory () hother,
        c.execute_of_not_reset (Probe.fresh memory) () hreset,
        d.execute_of_not_reset (Probe.fresh memory) () hother]
      exact ⟨rfl, halike, rfl, fun hpending => hpending, rfl⟩
  | true =>
      have hother : d.resetDone = true := halike.resetDone.symm.trans hreset
      have hturn : (d.turn d.setup.table).result memory = (c.turn c.setup.table).result memory := by
        rw [← halike.core, Core.turn_of_alike halike.table]
      rcases c.execute_turn memory hreset with ⟨hfault, hcore, hbus, hmoved⟩
      rcases d.execute_turn memory hother with ⟨hfault', hcore', hbus', hmoved'⟩
      rw [hturn] at hfault' hcore' hbus' hmoved'
      rcases c.execute_leaves memory hreset with ⟨hpending, hready⟩
      rcases d.execute_leaves memory hother with ⟨hpending', hready'⟩
      exact ⟨hfault.trans hfault'.symm,
        ⟨hcore.trans hcore'.symm, hready.trans hready'.symm, halike.table⟩,
        hbus.trans hbus'.symm, fun _ => hpending.trans hpending'.symm, hmoved.trans hmoved'.symm⟩

theorem Alike.performAll
    {c d : Cpu} (halike : c.Alike d) (n : Nat) (memory : Memory) :
    let calls := List.replicate n .execute
    let r := c.performAll calls memory ()
    let s := d.performAll calls memory ()
    r.value.map Reply.fault? = s.value.map Reply.fault? ∧ r.cpu.Alike s.cpu ∧ r.bus = s.bus ∧
      (c.pendingCycles = d.pendingCycles → r.cpu.pendingCycles = s.cpu.pendingCycles) ∧
      transfers (c.watched calls memory ()).bus.calls =
        transfers (d.watched calls memory ()).bus.calls := by
  induction n generalizing c d memory with
  | zero => exact ⟨rfl, halike, rfl, fun hpending => hpending, rfl⟩
  | succ n ih =>
      rcases halike.perform memory with ⟨hfault, hfirst, hbus, hpending, htransfers⟩
      have hrest := ih hfirst (c.perform .execute memory ()).bus
      rw [hbus] at hrest
      simp only [List.replicate_succ, Cpu.performAll, List.map_cons, hfault, hbus,
        watched_cons_calls, transfers_append, htransfers]
      rcases hrest with ⟨hfaults, hlast, hend, hlevel, hlater⟩
      exact ⟨congrArg _ hfaults, hlast, hend, fun hequal => hlevel (hpending hequal),
        congrArg _ hlater⟩

theorem performAll_setup (requests : List Request) :
    (cpu.performAll requests memory ()).cpu.setup = cpu.setup := by
  rw [performAll_eq_drive]
  rfl

end Cpu

/-! ## The price of a page crossing -/

theorem Byte.toNat_saturatingAdd (a b : UInt8) :
    (Byte.saturatingAdd a b).toNat = min (a.toNat + b.toNat) 255 := by
  unfold saturatingAdd
  split
  · rw [UInt8.toNat_add]
    omega
  · change 255 = _
    omega

def Mnemonic.pureReads : List Mnemonic := [lda, ldx, ldy, adc, sbc, cmp, and, ora, eor]

def AddressingMode.indexedReads : List AddressingMode := [absoluteX, absoluteY, indirectIndexed]

theorem Mnemonic.isPureRead_iff (m : Mnemonic) : m.isPureRead = true ↔ m ∈ pureReads := by
  cases m <;> decide

theorem AddressingMode.isIndexedRead_iff (mode : AddressingMode) :
    mode.isIndexedRead = true ↔ mode ∈ indexedReads := by
  cases mode <;> decide

/-- The instruction pays for leaving its page, and does leave it. -/
def PaysCrossing (mnemonic : Mnemonic) (mode : AddressingMode) (ea : EffectiveAddress) : Prop :=
  mnemonic ∈ Mnemonic.pureReads ∧ mode ∈ AddressingMode.indexedReads ∧ ea.pageCrossed = true

instance (mnemonic : Mnemonic) (mode : AddressingMode) (ea : EffectiveAddress) :
    Decidable (PaysCrossing mnemonic mode ea) :=
  inferInstanceAs (Decidable (_ ∧ _ ∧ _))

theorem Mnemonic.surcharge_of_isPureRead
    {m : Mnemonic} (hread : m.isPureRead = true) (c : Core) (operand : Operand) :
    m.action.surcharge c operand = 0 := by
  cases m <;> first | rfl | contradiction

theorem Core.cost_of_penalty
    {on off : Config} (hon : on.pageCrossPenalty = true) (hoff : off.pageCrossPenalty = false)
    (entry : Opcode.Entry) (m : Mnemonic) (resolved : EffectiveAddress × Core) :
    (cost on entry m resolved).toNat =
      (cost off entry m resolved).toNat +
        if PaysCrossing m entry.mode resolved.1 then 1 else 0 := by
  have hcycles : entry.cycles.toNat ≤ 253 := UInt8.le_iff_toNat_le.mp entry.cycles_le
  have hpays : PaysCrossing m entry.mode resolved.1 ↔
      (resolved.1.pageCrossed && on.pageCrossPenalty && paysPageCross m entry.mode) = true := by
    simp only [PaysCrossing, ← m.isPureRead_iff, ← entry.mode.isIndexedRead_iff, hon, paysPageCross,
      Bool.and_true, Bool.and_eq_true]
    exact ⟨fun ⟨hread, hindexed, hcrossed⟩ => ⟨hcrossed, hindexed, hread⟩,
      fun ⟨hcrossed, hindexed, hread⟩ => ⟨hread, hindexed, hcrossed⟩⟩
  unfold cost Config.baseCycles
  by_cases hcrossing : PaysCrossing m entry.mode resolved.1
  · -- A pure read is no branch, and a base cost leaves room for one clock more.
    have hsurcharge := Mnemonic.surcharge_of_isPureRead (m.isPureRead_iff.mpr hcrossing.1)
      resolved.2 resolved.1.operand
    rw [if_pos (hpays.mp hcrossing), if_pos hcrossing, hoff]
    simp [Byte.toNat_saturatingAdd, hsurcharge, Penalty.cycles]
    omega
  · rw [if_neg (mt hpays.mpr hcrossing), if_neg hcrossing, hoff]
    simp

namespace Cpu

variable (cpu : Cpu) (memory : Memory)

theorem decodes_of_execute {clocks : Nat} (hvalue : (cpu.execute memory ()).value = .ok clocks) :
    cpu.resetDone = true ∧
      ∃ entry m, cpu.setup.table.Decodes (cpu.opcodeOn memory) entry m := by
  cases hreset : cpu.resetDone with
  | false =>
      rw [cpu.execute_of_not_reset memory () hreset] at hvalue
      contradiction
  | true =>
      refine ⟨rfl, Classical.byContradiction fun hundecoded => ?_⟩
      have hrefused := cpu.execute_refused_iff memory () hreset
      rw [Memory.tick_iterate] at hrefused
      rcases hrefused.mpr hundecoded with ⟨fault, hfault⟩
      rw [hfault] at hvalue
      contradiction

theorem execute_clocks
    (hreset : cpu.resetDone = true) {entry : Opcode.Entry} {m : Mnemonic}
    (hdecodes : cpu.setup.table.Decodes (cpu.opcodeOn memory) entry m) :
    (cpu.execute memory ()).value = .ok (cpu.pendingCycles.toNat +
      (Core.cost cpu.setup.config entry m
        ((cpu.pastOpcode.resolve entry.mode).result memory).value).toNat) := by
  let cycles := Core.cost cpu.setup.config entry m
    ((cpu.pastOpcode.resolve entry.mode).result memory).value
  have hstep := cpu.drained.step_of_decodes memory () hreset rfl hdecodes
  have hcarried := (cpu.carriedOut_result cpu.setup.config entry m cpu.drained.totalCycles
    memory ()).1
  have hfetch : (cpu.fetchingStep memory ()).value = .ok .fetch := by
    rw [fetchingStep_memory, hstep]
  have hlater : (cpu.fetchingStep memory ()).cpu.pendingCycles = Byte.countdown cycles := by
    rw [fetchingStep_memory, hstep]
    exact congrArg (fun value => Byte.countdown value.1) hcarried
  have hpos : 0 < cycles.toNat :=
    UInt8.lt_iff_toNat_lt.mp (Core.cost_pos cpu.setup.config entry m _)
  rw [cpu.execute_of_fetch memory () hreset hfetch, hlater, Byte.toNat_countdown]
  refine congrArg Except.ok ?_
  change _ + 1 + (cycles.toNat - 1) = _ + cycles.toNat
  omega

theorem resolve_result (mode : AddressingMode) :
    (cpu.resolve mode memory).value = ((cpu.toCore.resolve mode).result memory).value.1 := by
  have hrun := ((cpu.toCore.resolve mode).run_embed_result cpu.totalCycles memory ()).1
  rw [resolve_value, hrun]

/-- Processors that differ in nothing but configuration, costs and counts of clocks do the same on
plain memory, call after call, and are refused alike.  If the surcharge for a page crossing is all
that they differ in, the one that levies it takes one clock more for an indexed read that leaves
its page, and as many for all else. -/
theorem timing_never_matters
    {c d : Cpu} (halike : c.Alike d) (memory : Memory) (n : Nat) :
    let calls := List.replicate n .execute
    let r := c.performAll calls memory ()
    let s := d.performAll calls memory ()
    r.cpu.toCore = s.cpu.toCore ∧ r.bus = s.bus ∧
    r.value.map Reply.fault? = s.value.map Reply.fault? ∧
    transfers (c.watched calls memory ()).bus.calls =
      transfers (d.watched calls memory ()).bus.calls ∧
    (c.setup.table = d.setup.table → c.pendingCycles = d.pendingCycles →
      c.setup.config.pageCrossPenalty = true → d.setup.config.pageCrossPenalty = false →
      ∀ clocks, (r.cpu.execute r.bus ()).value = .ok clocks →
        ∃ entry m, c.setup.table.Decodes (r.cpu.opcodeOn r.bus) entry m ∧
          let ea := ((r.cpu.setCore r.cpu.pastOpcode).resolve entry.mode r.bus).value
          ∃ fewer, (s.cpu.execute s.bus ()).value = .ok fewer ∧
            clocks = fewer + if PaysCrossing m entry.mode ea then 1 else 0) := by
  intro calls r s
  rcases halike.performAll n memory with ⟨hfaults, hlast, hbus, hlevel, htransfers⟩
  refine ⟨hlast.core, hbus, hfaults, htransfers, ?_⟩
  intro htable hpending hon hoff clocks hclocks
  have hequal : r.cpu.pendingCycles = s.cpu.pendingCycles := hlevel hpending
  have hr : r.cpu.setup = c.setup := c.performAll_setup memory calls
  have hs : s.cpu.setup = d.setup := d.performAll_setup memory calls
  rcases r.cpu.decodes_of_execute r.bus hclocks with ⟨hreset, entry, m, hdecodes⟩
  have hother : s.cpu.setup.table.Decodes (s.cpu.opcodeOn s.bus) entry m := by
    rw [hs, ← htable, ← hr, ← hlast.core, ← hbus]
    exact hdecodes
  have hslow := r.cpu.execute_clocks r.bus hreset hdecodes
  have hfast := s.cpu.execute_clocks s.bus (hlast.resetDone.symm.trans hreset) hother
  refine ⟨entry, m, hr ▸ hdecodes, _, hfast, ?_⟩
  have hprice := Core.cost_of_penalty (hr ▸ hon) (hs ▸ hoff) entry m
    ((r.cpu.pastOpcode.resolve entry.mode).result r.bus).value
  rw [Except.ok.inj (hclocks.symm.trans hslow), hprice, resolve_result, hequal, hbus, hlast.core,
    Nat.add_assoc]
  rfl

def crossing : Memory := Memory.zeroed.load 0x10 [0xBD, 0x01, 0x00, 0xBD, 0x01, 0x00]

def crossingAt (entry : Opcode.Entry) (penalty : Bool) : Cpu :=
  { readyAt 0x10 .empty with
    registers := ⟨0, 0xFF, 0, 0xFD, 0x10⟩
    setup := ⟨⟨penalty, 0⟩, Opcode.Table.empty.insert entry⟩ }

theorem timing_of_crossing :
    let load : Opcode.Entry := ⟨0xBD, "LDA", some .lda, .absoluteX, 3, 4, by decide, by decide⟩
    let r := (crossingAt load true).performAll (List.replicate 1 .execute) crossing ()
    let s := (crossingAt load false).performAll (List.replicate 1 .execute) crossing ()
    r.cpu.toCore = s.cpu.toCore ∧ (r.cpu.execute r.bus ()).value = .ok 5 ∧
      (s.cpu.execute s.bus ()).value = .ok 4 := by
  intro load r s
  have halike : (crossingAt load true).Alike (crossingAt load false) := ⟨rfl, rfl, fun _ => rfl⟩
  obtain ⟨hcore, -, -, -, hclocks⟩ := timing_never_matters halike crossing 1
  have hfive : (r.cpu.execute r.bus ()).value.toOption = some 5 := by decide +kernel
  have hslow : (r.cpu.execute r.bus ()).value = .ok 5 := by
    cases hvalue : (r.cpu.execute r.bus ()).value with
    | error fault => simp [hvalue, Except.toOption] at hfive
    | ok clocks => simpa [hvalue, Except.toOption] using hfive
  rcases hclocks rfl rfl rfl rfl 5 hslow with ⟨entry, m, hdecodes, fewer, hfewer, hprice⟩
  have hopcode : r.cpu.opcodeOn r.bus = load.opcode := by decide +kernel
  have hload : (Opcode.Table.empty.insert load).lookup (r.cpu.opcodeOn r.bus) = some load := by
    rw [hopcode, Opcode.Table.lookup_insert_self]
  obtain rfl : load = entry := Option.some.inj (hload.symm.trans hdecodes.lookup_eq)
  obtain rfl : Mnemonic.lda = m := Option.some.inj hdecodes.mnemonic_eq
  have hcrossed :
      ((r.cpu.setCore r.cpu.pastOpcode).resolve load.mode r.bus).value.pageCrossed = true := by
    decide +kernel
  have hpays : PaysCrossing .lda load.mode
      ((r.cpu.setCore r.cpu.pastOpcode).resolve load.mode r.bus).value :=
    ⟨by decide, by decide, hcrossed⟩
  rw [if_pos hpays] at hprice
  obtain rfl : fewer = 4 := (Nat.succ.inj hprice).symm
  exact ⟨hcore, hslow, hfewer⟩

end Cpu

end Nmos6502
