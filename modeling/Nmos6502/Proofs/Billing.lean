import Nmos6502.Proofs.Conservation
import Nmos6502.Proofs.Resolution

/-!
# What an instruction costs

The cost of an instruction in whole numbers: the base cost of its entry and the surcharge that it
earns, for an indexed read that leaves its page or for a branch that is taken.  No instruction earns
both, and base costs are bounded so that no sum is cut off at the largest byte.
-/

namespace Nmos6502

/-! ## Surcharges in whole numbers -/

/-- The flag that a conditional branch tests, and the value on which it branches. -/
def Mnemonic.condition? : Mnemonic → Option (Flag × Bool)
  | bcc => some (.carry, false)
  | bcs => some (.carry, true)
  | bne => some (.zero, false)
  | beq => some (.zero, true)
  | bpl => some (.negative, false)
  | bmi => some (.negative, true)
  | bvc => some (.overflow, false)
  | bvs => some (.overflow, true)
  | _ => none

/-- The address before indexing, if the mode is an indexed one that may leave its page. -/
def AddressingMode.unindexed (mode : AddressingMode) (r : Registers) (address : UInt16) : UInt16 :=
  match mode with
  | absoluteX => address - r.x.toUInt16
  | absoluteY | indirectIndexed => address - r.y.toUInt16
  | _ => address

def AddressingMode.ChangesPage (mode : AddressingMode) (r : Registers) (address : UInt16) : Prop :=
  (mode.unindexed r address).toNat / 256 ≠ address.toNat / 256

instance (mode : AddressingMode) (r : Registers) (address : UInt16) :
    Decidable (mode.ChangesPage r address) :=
  inferInstanceAs (Decidable (_ ≠ _))

section Surcharges

variable (config : Config) (m : Mnemonic) (mode : AddressingMode) (c : Core)

/-- One for a pure read that indexing has taken to another page, if the configuration says so. -/
def crossingSurcharge : Operand → Nat
  | .address address =>
    if config.pageCrossPenalty = true ∧ m ∈ Mnemonic.pureReads ∧
        mode ∈ AddressingMode.indexedReads ∧ mode.ChangesPage c.registers address then 1
    else 0
  | _ => 0

/-- One for a branch that is taken, or two if its target is not on the page of the address behind
the displacement. -/
def branchSurcharge : Operand → Nat
  | .relative displacement =>
    match m.condition? with
    | some (flag, expected) =>
      let next := (c.registers.pc.toNat + 2) % 65536
      let target : Int := (next + Byte.signed displacement) % 65536
      if mode = .relative ∧ c.status.get flag = expected then
        if target / 256 ≠ next / 256 then 2 else 1
      else 0
    | none => 0
  | _ => 0

theorem one_surcharge_only (operand : Operand) :
    crossingSurcharge config m mode c operand = 0 ∨ branchSurcharge m mode c operand = 0 := by
  cases operand with
  | address address => exact .inr rfl
  | relative displacement => exact .inl rfl
  | accumulator => exact .inl rfl
  | none => exact .inl rfl

theorem crossingSurcharge_le (operand : Operand) :
    crossingSurcharge config m mode c operand ≤ 1 := by
  cases operand with
  | address address =>
      unfold crossingSurcharge
      grind
  | _ => exact Nat.zero_le 1

theorem branchSurcharge_le (operand : Operand) : branchSurcharge m mode c operand ≤ 2 := by
  cases operand with
  | relative displacement =>
      unfold branchSurcharge
      grind
  | _ => exact Nat.zero_le 2

end Surcharges

/-! ## What a branch adds -/

theorem Mnemonic.action_eq_branch_iff (m : Mnemonic) (flag : Flag) (expected : Bool) :
    m.action = .branch flag expected ↔ m.condition? = some (flag, expected) := by
  cases m <;> simp [action, condition?]

theorem Operand.Suits.mode_eq_relative
    {displacement : UInt8} {mode : AddressingMode}
    (h : (Operand.relative displacement).Suits mode) :
    mode = .relative := by
  cases mode <;> simp_all [Suits]

theorem branchPenalty_toNat (taken : Bool) (origin target : UInt16) :
    (branchPenalty taken origin target).toNat =
      if taken then if target.toNat / 256 ≠ origin.toNat / 256 then 2 else 1 else 0 := by
  have hcrosses := crossesPage_iff origin target
  unfold branchPenalty
  cases taken with
  | false => rfl
  | true =>
      by_cases hpage : origin.toNat / 256 = target.toNat / 256
      · have hsame : crossesPage origin target = false :=
          Bool.eq_false_iff.mpr (mt hcrosses.mp (not_not.mpr hpage))
        simp [hsame, hpage, Penalty.cycles]
      · have hother : crossesPage origin target = true := hcrosses.mpr hpage
        simp only [hother, ne_eq, Ne.symm hpage, not_false_eq_true]
        rfl

theorem Core.branch_surcharge_toNat
    (c : Core) (flag : Flag) (expected : Bool) (displacement : UInt8) :
    (c.branch flag expected (.relative displacement)).2.toNat =
      let target : Int := (c.registers.pc.toNat + Byte.signed displacement) % 65536
      if c.status.get flag = expected then
        if target / 256 ≠ c.registers.pc.toNat / 256 then 2 else 1
      else 0 := by
  have hpage : ((c.registers.pc.toNat : Int) + Byte.signed displacement) % 65536 / 256 ≠
        (c.registers.pc.toNat : Int) / 256 ↔
      (Word.displace c.registers.pc displacement).toNat / 256 ≠ c.registers.pc.toNat / 256 := by
    rw [← Word.toNat_displace]
    omega
  simp only [branch, branchPenalty_toNat, beq_iff_eq, hpage]

theorem Mnemonic.surcharge_toNat
    (m : Mnemonic) {mode : AddressingMode} (c : Core) {operand : Operand} {next : UInt16}
    (hsuits : operand.Suits mode)
    (hnext : mode = .relative → next.toNat = (c.registers.pc.toNat + 2) % 65536) :
    (m.action.surcharge (c.setPc next) operand).toNat = branchSurcharge m mode c operand := by
  cases hcondition : m.condition? with
  | none =>
      have hplain : m.action.surcharge (c.setPc next) operand = 0 := by
        cases haction : m.action with
        | branch flag expected =>
            rw [(m.action_eq_branch_iff flag expected).mp haction] at hcondition
            contradiction
        | _ => rfl
      rw [hplain]
      cases operand <;> simp [branchSurcharge, hcondition]
  | some condition =>
      rcases condition with ⟨flag, expected⟩
      rw [(m.action_eq_branch_iff flag expected).mpr hcondition, Action.surcharge]
      cases operand with
      | relative displacement =>
          have hmode := hsuits.mode_eq_relative
          rw [Core.branch_surcharge_toNat]
          simp only [branchSurcharge, hcondition, hmode, true_and, Core.setPc_pc, Core.setPc_status,
            hnext hmode]
      | address address => rfl
      | accumulator => rfl
      | none => rfl

/-! ## What an indexed read adds -/

namespace Core

theorem indexed_changesPage_iff (base : UInt16) (index : UInt8) :
    (EffectiveAddress.indexed base index).pageCrossed = true ↔
      ∃ address, (EffectiveAddress.indexed base index).operand = .address address ∧
        (address - index.toUInt16).toNat / 256 ≠ address.toNat / 256 := by
  have hbase : base + index.toUInt16 - index.toUInt16 = base := UInt16.add_sub_cancel _ _
  simp only [EffectiveAddress.indexed, Operand.address.injEq, exists_eq_left', hbase]
  exact crossesPage_iff base (base + index.toUInt16)

theorem resolve_changesPage_iff
    {β : Type} [Bus β] (c : Core) (mode : AddressingMode) (bus : β) :
    let ea := ((c.resolve mode).result bus).value.1
    ea.pageCrossed = true ↔
      ∃ address, ea.operand = .address address ∧ mode.ChangesPage c.registers address := by
  cases mode with
  | absoluteX => exact indexed_changesPage_iff _ _
  | absoluteY => exact indexed_changesPage_iff _ _
  | indirectIndexed => exact indexed_changesPage_iff _ _
  | _ =>
      change false = true ↔ _
      simp [AddressingMode.ChangesPage, AddressingMode.unindexed]

end Core

theorem crossingSurcharge_eq
    (config : Config) (m : Mnemonic) {mode : AddressingMode} {c : Core} {ea : EffectiveAddress}
    (hcrossed : ea.pageCrossed = true ↔
      ∃ address, ea.operand = .address address ∧ mode.ChangesPage c.registers address) :
    crossingSurcharge config m mode c ea.operand =
      if ea.pageCrossed && config.pageCrossPenalty && paysPageCross m mode then 1 else 0 := by
  rcases ea with ⟨operand, crossed⟩
  cases operand with
  | address address =>
      have hcrossed : crossed = true ↔ mode.ChangesPage c.registers address := by
        simpa using hcrossed
      refine if_congr ?_ rfl rfl
      simp only [paysPageCross, Bool.and_eq_true, hcrossed, m.isPureRead_iff,
        mode.isIndexedRead_iff]
      grind
  | _ =>
      have hstayed : crossed = false := by simpa using hcrossed
      simp [crossingSurcharge, hstayed]

theorem Config.baseCycles_toNat
    (config : Config) (entry : Opcode.Entry) (m : Mnemonic) (ea : EffectiveAddress) :
    (config.baseCycles entry m ea).toNat = entry.cycles.toNat +
      if ea.pageCrossed && config.pageCrossPenalty && paysPageCross m entry.mode then 1 else 0 := by
  have hcycles : entry.cycles.toNat ≤ 253 := UInt8.le_iff_toNat_le.mp entry.cycles_le
  unfold baseCycles
  split
  · rw [Byte.toNat_saturatingAdd]
    change min (_ + 1) 255 = _
    omega
  · rfl

/-! ## What an instruction costs in all -/

namespace Core

section Cost

variable (config : Config) (entry : Opcode.Entry) (m : Mnemonic) (c : Core)

def dueCost (operand : Operand) : Nat :=
  entry.cycles.toNat + crossingSurcharge config m entry.mode c operand +
    branchSurcharge m entry.mode c operand

theorem dueCost_pos (operand : Operand) : 1 ≤ dueCost config entry m c operand := by
  have hpos : 0 < entry.cycles.toNat := UInt8.lt_iff_toNat_lt.mp entry.cycles_pos
  unfold dueCost
  omega

/-- The largest base cost leaves room for the larger of the surcharges, not for both. -/
theorem dueCost_le (operand : Operand) : dueCost config entry m c operand ≤ 255 := by
  have hcycles : entry.cycles.toNat ≤ 253 := UInt8.le_iff_toNat_le.mp entry.cycles_le
  have hcrossing := crossingSurcharge_le config m entry.mode c operand
  have hbranch := branchSurcharge_le m entry.mode c operand
  unfold dueCost
  rcases one_surcharge_only config m entry.mode c operand with hzero | hzero <;> omega

end Cost

variable {β : Type} [Bus β] (config : Config) (entry : Opcode.Entry) (m : Mnemonic) (c : Core)
  (bus : β)

/-- What the bytes behind the opcode resolve to, and the core that is left then. -/
def resolvedOn (mode : AddressingMode) : EffectiveAddress × Core :=
  ((c.pastOpcode.resolve mode).result (c.busPastOpcode bus)).value

theorem resolvedOn_suits (mode : AddressingMode) :
    let resolved := c.resolvedOn bus mode
    resolved.1.operand.Suits mode ∧
      resolved.2 = c.setPc (c.registers.pc + 1 + mode.operandBytes.toUInt16) :=
  (c.pastOpcode.resolve_ensures mode).result_value (W := fun _ _ => True) (c.busPastOpcode bus)

theorem summands_toNat :
    let resolved := c.resolvedOn bus entry.mode
    let operand := resolved.1.operand
    (config.baseCycles entry m resolved.1).toNat =
        entry.cycles.toNat + crossingSurcharge config m entry.mode c operand ∧
      (m.action.surcharge resolved.2 operand).toNat = branchSurcharge m entry.mode c operand := by
  intro resolved operand
  rcases c.resolvedOn_suits bus entry.mode with ⟨hsuits, hcore⟩
  have hcrossed : resolved.1.pageCrossed = true ↔
      ∃ address, operand = .address address ∧ entry.mode.ChangesPage c.registers address :=
    c.pastOpcode.resolve_changesPage_iff entry.mode (c.busPastOpcode bus)
  have hnext : entry.mode = .relative →
      (c.registers.pc + 1 + entry.mode.operandBytes.toUInt16).toNat =
        (c.registers.pc.toNat + 2) % 65536 := by
    intro hmode
    rw [hmode, UInt16.add_assoc, UInt16.toNat_add]
    rfl
  constructor
  · rw [config.baseCycles_toNat, crossingSurcharge_eq config m hcrossed]
  · rw [show resolved.2 = _ from hcore]
    exact m.surcharge_toNat c hsuits hnext

theorem cost_toNat :
    let resolved := c.resolvedOn bus entry.mode
    (cost config entry m resolved).toNat = dueCost config entry m c resolved.1.operand := by
  intro resolved
  rcases summands_toNat config entry m c bus with ⟨hbase, hsurcharge⟩
  have hbound := dueCost_le config entry m c resolved.1.operand
  rw [cost, Byte.toNat_saturatingAdd, hbase, hsurcharge]
  exact Nat.min_eq_left hbound

theorem retirements_carriedOut (clock : UInt64) (log : Array Event) :
    let o := c.carriedOut config entry m clock bus log
    retirements (Sink.event o.sink (.retired c.registers.pc o.value.1)) =
      retirements log ++
        [(c.registers.pc, cost config entry m (c.resolvedOn bus entry.mode))] := by
  intro o
  have hcarried : o.value = _ := (c.carriedOut_result config entry m clock bus log).1
  have hbefore : retirements o.sink = retirements log := by
    simp [o, announce, carriedOut, retirements_traced, Event.retirement?]
  rw [retirements_event, hbefore, hcarried]
  rfl

end Core

/-! ## What is billed -/

namespace Cpu

section Bills

variable {β : Type} [Bus β] (cpu : Cpu) (bus : β) {entry : Opcode.Entry} {m : Mnemonic}
  (hreset : cpu.resetDone = true) (hpending : cpu.pendingCycles = 0)
  (hdecodes : cpu.setup.table.Decodes (cpu.opcodeOn bus) entry m)

include hpending

theorem fetchingStep_eq_step {σ : Type} [Sink σ] (sink : σ) :
    cpu.fetchingStep bus sink = cpu.step bus sink := by
  rw [fetchingStep, cpu.drained_of_pendingCycles_zero hpending, hpending]
  rfl

include hreset hdecodes

theorem step_bills {σ : Type} [Sink σ] (sink : σ) :
    let cycles := Core.cost cpu.setup.config entry m (cpu.resolvedOn bus entry.mode)
    (cpu.step bus sink).value = .ok .fetch ∧
      (cpu.step bus sink).cpu.pendingCycles.toNat + 1 = cycles.toNat := by
  intro cycles
  have hcarried := (cpu.carriedOut_result cpu.setup.config entry m cpu.totalCycles bus sink).1
  have hpos : 0 < cycles.toNat :=
    UInt8.lt_iff_toNat_lt.mp (Core.cost_pos cpu.setup.config entry m _)
  rw [cpu.step_of_decodes bus sink hreset hpending hdecodes]
  refine ⟨rfl, ?_⟩
  simp only [hcarried, billed, Byte.toNat_countdown]
  change cycles.toNat - 1 + 1 = cycles.toNat
  omega

theorem execute_bills {σ : Type} [Sink σ] (sink : σ) :
    (cpu.execute bus sink).value =
      .ok (Core.cost cpu.setup.config entry m (cpu.resolvedOn bus entry.mode)).toNat := by
  rcases cpu.step_bills bus hreset hpending hdecodes sink with ⟨hfetch, hcost⟩
  have hfetching := cpu.fetchingStep_eq_step bus hpending sink
  rw [cpu.execute_of_fetch bus sink hreset (hfetching ▸ hfetch), hfetching, hpending, ← hcost]
  refine congrArg Except.ok ?_
  change 0 + 1 + _ = _
  omega

theorem steps_bill {σ : Type} [Sink σ] (sink : σ) :
    let n := (Core.cost cpu.setup.config entry m (cpu.resolvedOn bus entry.mode)).toNat
    let x := cpu.execute bus sink
    cpu.steps n bus sink =
      ⟨.phase (.ok .fetch) :: idleReplies (n - 1), x.cpu, x.bus, x.sink⟩ := by
  intro n x
  rcases cpu.step_bills bus hreset hpending hdecodes sink with ⟨hfetch, hcost⟩
  have hfetching := cpu.fetchingStep_eq_step bus hpending sink
  have hsteps := cpu.steps_of_fetch bus sink hreset (hfetching ▸ hfetch)
  rw [← hfetching] at hcost
  rw [hpending] at hsteps
  have hn : n = 0 + ((cpu.fetchingStep bus sink).cpu.pendingCycles.toNat + 1) := by omega
  rw [hn]
  simpa [idleReplies] using hsteps

theorem retirements_execute (log : Array Event) :
    retirements (cpu.execute bus log).sink = retirements log ++
      [(cpu.registers.pc, Core.cost cpu.setup.config entry m (cpu.resolvedOn bus entry.mode))] := by
  rw [cpu.execute_sink bus log hreset, cpu.fetchingStep_eq_step bus hpending,
    cpu.step_of_decodes bus log hreset hpending hdecodes]
  exact Core.retirements_carriedOut cpu.setup.config entry m cpu.toCore bus cpu.totalCycles log

theorem execute_ticks :
    (cpu.execute (Probe.fresh bus) ()).bus.ticks =
      (Core.cost cpu.setup.config entry m (cpu.resolvedOn bus entry.mode)).toNat := by
  let log : Array Event := #[]
  let probed := cpu.execute (Probe.fresh bus) log
  have hprobe : probed = _ := cpu.drive_probe (Engine.execute cpu.setup) bus [] log
  have hunobserved : (cpu.execute (Probe.fresh bus) ()).bus = probed.bus :=
    congrArg Report.bus (cpu.drive_unobserved (Engine.execute cpu.setup) (Probe.fresh bus) log)
  have hdone : probed.cpu.pendingCycles = 0 := by
    rcases cpu.step_bills bus hreset hpending hdecodes log with ⟨hfetch, -⟩
    have hplain : probed.cpu = (cpu.execute bus log).cpu := congrArg Report.cpu hprobe
    rw [← cpu.fetchingStep_eq_step bus hpending] at hfetch
    rw [hplain, cpu.execute_of_fetch bus log hreset hfetch]
    rfl
  have hbill : bill probed.sink.toList =
      (Core.cost cpu.setup.config entry m (cpu.resolvedOn bus entry.mode)).toNat := by
    have hplain : probed.sink = (cpu.execute bus log).sink := congrArg Report.sink hprobe
    rw [bill_log, hplain, cpu.retirements_execute bus hreset hpending hdecodes log]
    rfl
  have hstart : cpu.balance (Probe.fresh bus) log = 0 := by
    rw [balance, hpending]
    rfl
  have hbalance : probed.cpu.balance probed.bus probed.sink = 0 :=
    (cpu.execute_balance (Probe.fresh bus) log).trans hstart
  -- Nothing is left pending, so that what has been billed has been clocked.
  rw [balance, hdone, hbill, ← hunobserved] at hbalance
  change (_ + 0 - _ : Int) = 0 at hbalance
  omega

omit hdecodes

theorem retires_iff :
    (∃ clocks, (cpu.execute bus ()).value = .ok clocks) ↔
      ∃ entry m, cpu.setup.table.Decodes (cpu.opcodeOn bus) entry m := by
  have hrefused := cpu.execute_refused_iff bus () hreset
  rw [hpending] at hrefused
  change _ ↔ ¬∃ entry m, cpu.setup.table.Decodes (cpu.opcodeOn bus) entry m at hrefused
  cases hvalue : (cpu.execute bus ()).value with
  | error fault =>
      have hundecoded := hrefused.mp ⟨fault, hvalue⟩
      simp [hundecoded]
  | ok clocks =>
      have hdecodes := not_not.mp (mt hrefused.mpr (by simp [hvalue]))
      simp [hdecodes]

end Bills

/-- An instruction retires exactly if its opcode decodes.  It costs what its entry declares and the
surcharge that it earns; it earns one kind of surcharge at most, no sum on the way is cut off at
the largest byte, and as many clocks pass on the bus, of which the first fetches and the others are
idle. -/
theorem cost_is_exact
    {β : Type} [Bus β] (cpu : Cpu) (bus : β) (hreset : cpu.resetDone = true)
    (hpending : cpu.pendingCycles = 0) :
    let config := cpu.setup.config
    let x := cpu.execute bus ()
    ((∃ clocks, x.value = .ok clocks) ↔
      ∃ entry m, cpu.setup.table.Decodes (cpu.opcodeOn bus) entry m) ∧
    ∀ entry m, cpu.setup.table.Decodes (cpu.opcodeOn bus) entry m →
      let resolved := (cpu.setCore cpu.pastOpcode).resolve entry.mode (cpu.busPastOpcode bus)
      let operand := resolved.value.operand
      let crossing := crossingSurcharge config m entry.mode cpu.toCore operand
      let branching := branchSurcharge m entry.mode cpu.toCore operand
      let cost := entry.cycles.toNat + crossing + branching
      (crossing = 0 ∨ branching = 0) ∧ 1 ≤ cost ∧ cost ≤ 255 ∧
      entry.cycles.toNat + Penalty.pageCross.cycles.toNat ≤ 255 ∧
      Penalty.branchTaken.cycles.toNat + Penalty.branchPageCross.cycles.toNat ≤ 255 ∧
      (config.baseCycles entry m resolved.value).toNat +
        (m.action.surcharge resolved.cpu.toCore operand).toNat ≤ 255 ∧
      x.value = .ok cost ∧
      retirements (cpu.execute bus (#[] : Array Event)).sink =
        [(cpu.registers.pc, .ofNat cost)] ∧
      (cpu.execute (Probe.fresh bus) ()).bus.ticks = cost ∧
      cpu.steps cost bus () =
        ⟨.phase (.ok .fetch) :: idleReplies (cost - 1), x.cpu, x.bus, ()⟩ := by
  intro config x
  refine ⟨cpu.retires_iff bus hreset hpending, ?_⟩
  intro entry m hdecodes resolved operand crossing branching cost
  have hresolved : resolved = _ := (cpu.setCore cpu.pastOpcode).drive_intervene
    (fun c => c.resolve entry.mode) (cpu.busPastOpcode bus)
  have hvalue : resolved.value = (cpu.resolvedOn bus entry.mode).1 :=
    congrArg Report.value hresolved
  have hcore : resolved.cpu.toCore = (cpu.resolvedOn bus entry.mode).2 :=
    congrArg (fun r => r.cpu.toCore) hresolved
  have hcost : (Core.cost config entry m (cpu.resolvedOn bus entry.mode)).toNat = cost := by
    rw [Core.cost_toNat, ← hvalue]
    rfl
  have hbound : cost ≤ 255 := Core.dueCost_le config entry m cpu.toCore operand
  have hcycles : entry.cycles.toNat ≤ 253 := UInt8.le_iff_toNat_le.mp entry.cycles_le
  have hroom : entry.cycles.toNat + Penalty.pageCross.cycles.toNat ≤ 255 := by
    change _ + 1 ≤ 255
    omega
  have hsum : (config.baseCycles entry m resolved.value).toNat +
      (m.action.surcharge resolved.cpu.toCore operand).toNat = cost := by
    rcases Core.summands_toNat config entry m cpu.toCore bus with ⟨hbase, hsurcharge⟩
    rw [← hvalue] at hbase hsurcharge
    rw [hcore, hbase, hsurcharge]
  refine ⟨one_surcharge_only config m entry.mode cpu.toCore operand,
    Core.dueCost_pos config entry m cpu.toCore operand, hbound, hroom, by decide,
    Nat.le_trans (Nat.le_of_eq hsum) hbound, ?_, ?_, ?_, ?_⟩
  · exact hcost ▸ cpu.execute_bills bus hreset hpending hdecodes ()
  · rw [cpu.retirements_execute bus hreset hpending hdecodes, ← hcost, UInt8.ofNat_toNat]
    rfl
  · exact hcost ▸ cpu.execute_ticks bus hreset hpending hdecodes
  · exact hcost ▸ cpu.steps_bill bus hreset hpending hdecodes ()

/-- A branch of the largest base cost that is taken to another page uses the whole byte. -/
theorem cost_of_dear_branch :
    let branch : Opcode.Entry :=
      ⟨0xD0, "BNE", some .bne, .relative, 2, maxBaseCycles, by decide, by decide⟩
    let table := Opcode.Table.empty.insert branch
    let tape : Tape := ⟨[0xD0, 0x7F]⟩
    Opcode.Table.ofRecords [⟨0xD0, "BNE", "Relative", 2, maxBaseCycles⟩] = .ok table ∧
      ((readyAt 0x6F0 table).execute tape ()).value = .ok 255 ∧
      ((readyAt 0x6F0 table).execute (Probe.fresh tape) ()).bus.ticks = 255 := by
  intro branch table tape
  let cpu := readyAt 0x6F0 table
  have hdecodes : cpu.setup.table.Decodes (cpu.opcodeOn tape) branch .bne :=
    ⟨Opcode.Table.lookup_insert_self _ branch, rfl⟩
  obtain ⟨-, -, -, -, -, -, hvalue, -, hticks, -⟩ :=
    (cpu.cost_is_exact tape rfl rfl).2 branch .bne hdecodes
  refine ⟨rfl, hvalue.trans (congrArg Except.ok ?_), hticks.trans ?_⟩
  · decide +kernel
  · decide +kernel

end Cpu

end Nmos6502
