import Nmos6502.Proofs.Frame
import Nmos6502.Proofs.Result

/-!
# The live status

Two bits of the status are no flags of the processor: in the register `unused` is always set and
`break` never, and only on the stack does `break` stand for the instruction that pushed it.  No
request breaks this but one that installs a status as it is.
-/

namespace Nmos6502

namespace Status

/-- The status as it stands in the register. -/
structure Live (s : Status) : Prop where
  unused : s.get .unused = true
  breakMark : s.get .breakMark = false

theorem live_powerOn : powerOn.Live := ⟨by decide, by decide⟩

theorem Live.of_agreesOff
    {s t : Status} {flags : List Flag} (hs : s.Live) (hagrees : AgreesOff flags s t)
    (hunused : .unused ∉ flags) (hbreak : .breakMark ∉ flags) :
    t.Live where
  unused := (hagrees _ hunused).trans hs.unused
  breakMark := (hagrees _ hbreak).trans hs.breakMark

theorem live_pulled (byte : UInt8) : (pulled byte).Live := by
  have hpulled : pulled byte = ((⟨byte⟩ : Status).set .breakMark false).set .unused true := rfl
  rw [hpulled]
  refine ⟨get_set_self _ _ _, ?_⟩
  rw [get_set_of_ne _ _ (by decide), get_set_self]

/-- What goes onto the stack has both bits set and is the status otherwise. -/
theorem get_pushed (s : Status) (f : Flag) :
    (⟨s.pushed⟩ : Status).get f = (decide (f = .breakMark ∨ f = .unused) || s.get f) := by
  have hpushed : (⟨s.pushed⟩ : Status) = (s.set .breakMark true).set .unused true := rfl
  rw [hpushed]
  by_cases hunused : f = .unused
  · simp [hunused]
  · rw [get_set_of_ne _ _ hunused]
    by_cases hbreak : f = .breakMark
    · simp [hbreak]
    · rw [get_set_of_ne _ _ hbreak]
      simp [hunused, hbreak]

end Status

theorem Mnemonic.unaltered_of_ne
    {m : Mnemonic} (hplp : m ≠ .plp) (hrti : m ≠ .rti) :
    .unused ∉ m.alteredFlags ∧ .breakMark ∉ m.alteredFlags := by
  revert hplp hrti
  cases m <;> decide

/-! ## Every way through a request -/

namespace Core

theorem carryOut_live
    (c : Core) (config : Config) (entry : Opcode.Entry) (m : Mnemonic) (hlive : c.status.Live) :
    (c.carryOut config entry m).Ensures (fun _ _ => True) fun r => r.2.status.Live := by
  -- Only the two that pull a status name the two bits in their footprint.
  by_cases hplp : m = .plp
  · subst hplp
    rw [carryOut_eq]
    apply (c.resolve_ensures entry.mode).bind
    intro r _
    have heffect : (Mnemonic.plp.action.effect r.2 r.1.operand).Ensures (fun _ _ => True)
        fun d => d.status.Live := by
      apply r.2.pullByte_ensures.bind
      intro pulled _
      exact Status.live_pulled pulled.1
    exact heffect.map fun d hd => hd
  · by_cases hrti : m = .rti
    · subst hrti
      rw [carryOut_eq]
      apply (c.resolve_ensures entry.mode).bind
      intro r _
      apply r.2.returnFromInterrupt_ensures.map
      rintro d ⟨byte, target, rfl⟩
      exact Status.live_pulled byte
    · have hunaltered := Mnemonic.unaltered_of_ne hplp hrti
      apply (c.carryOut_ensures config entry m).imp
      intro r hadmits
      exact hlive.of_agreesOff hadmits.flag hunaltered.1 hunaltered.2

theorem instruction_live (c : Core) (setup : Setup) (hlive : c.status.Live) :
    (c.instruction setup).Ensures (fun _ _ => True) fun r => r.2.status.Live := by
  unfold instruction
  apply ((Traffic.ensures_traced _).mpr c.fetchByte_ensures.embed).bind
  rintro ⟨opcode, d⟩ rfl
  simp only [Traffic.note, Traffic.mark_bind, Traffic.done_bind]
  cases setup.table.lookup opcode with
  | none => exact hlive
  | some entry =>
      cases hmnemonic : entry.mnemonic with
      | none =>
          simp only [hmnemonic]
          exact hlive
      | some m =>
          simp only [hmnemonic, Traffic.ensures_mark]
          have hcarried :=
            (c.setPc (c.registers.pc + 1)).carryOut_live setup.config entry m hlive
          exact ((Traffic.ensures_traced _).mpr hcarried.embed).bind fun r hr => hr

end Core

namespace Engine

theorem step_live (setup : Setup) (e : Engine) (hlive : e.status.Live) :
    (step setup e).Ensures (fun _ _ => True) fun r => r.2.status.Live := by
  unfold step
  split
  · exact hlive
  · split
    · apply (e.toCore.instruction_live setup hlive).bind
      rintro ⟨result, core⟩ hcore
      cases result with
      | error fault => exact hcore
      | ok cycles => exact hcore
    · exact hlive

theorem untilRetired_live
    (setup : Setup) (fetched : Bool) (clocks fuel : Nat) (e : Engine) (hlive : e.status.Live) :
    (untilRetired setup fetched clocks fuel e).Ensures (fun _ _ => True)
      fun r => r.2.status.Live := by
  induction fuel generalizing fetched clocks e with
  | zero => exact hlive
  | succ fuel ih =>
      apply (step_live setup e hlive).bind
      rintro ⟨result, e⟩ hstepped
      cases result with
      | error fault => exact hstepped
      | ok phase =>
          simp only
          split
          · exact hstepped
          · exact ih _ _ e hstepped

theorem execute_live (setup : Setup) (e : Engine) (hlive : e.status.Live) :
    (execute setup e).Ensures (fun _ _ => True) fun r => r.2.status.Live := by
  apply (untilRetired_live setup false 0 _ e hlive).bind
  intro r hr
  exact hr

/-- The reset that keeps its old bits keeps them as they should be. -/
theorem restart_live (kind : ResetKind) (pc : UInt16) (c : Core) (hlive : c.status.Live) :
    (restart kind pc c).status.Live := by
  cases kind with
  | deterministic =>
      have hset : (restart .deterministic pc c).status =
          ⟨Flag.interruptDisable.mask ||| Flag.unused.mask⟩ := rfl
      rw [hset]
      exact ⟨by decide, by decide⟩
  | hardwareAccurate =>
      have hset : (restart .hardwareAccurate pc c).status =
          (c.status.set .interruptDisable true).set .unused true :=
        congrArg Status.mk (UInt8.or_assoc _ _ _).symm
      rw [hset]
      refine ⟨Status.get_set_self _ _ _, ?_⟩
      rw [Status.get_set_of_ne _ _ (by decide), Status.get_set_of_ne _ _ (by decide)]
      exact hlive.breakMark

theorem reset_live (kind : ResetKind) (e : Engine) (hlive : e.status.Live) :
    (reset kind e).Ensures (fun _ _ => True) fun r => r.2.status.Live := by
  simp only [reset, clockedRead, Traffic.fetch, Traffic.note, Traffic.embed, Traffic.traced,
    Traffic.pure_eq_done, Traffic.read_bind, Traffic.mark_bind, Traffic.done_bind]
  intro _ _ _ _ _ low high
  exact restart_live kind _ e.toCore hlive

theorem intervene_live
    {α : Type} {work : Core → Work (α × Core)} (e : Engine) (hlive : e.status.Live)
    (hwork : (work e.toCore).Ensures (fun _ _ => True) fun r => r.2.status = e.status) :
    (intervene work e).Ensures (fun _ _ => True) fun r => r.2.status.Live := by
  apply hwork.embed.bind
  intro r hr
  change r.2.status.Live
  rw [hr]
  exact hlive

end Engine

theorem Request.task_live
    (setup : Setup) {request : Request} (hrequest : ∀ status, request ≠ .setStatus status)
    (e : Engine) (hlive : e.status.Live) :
    (request.task setup e).Ensures (fun _ _ => True) fun r => r.2.status.Live := by
  have hwrite : ∀ depth < 2, ∀ _byte : UInt8, True := fun _ _ _ => trivial
  unfold task
  cases request with
  | reset kind => exact (e.reset_live kind hlive).map fun _ h => h
  | step => exact (e.step_live setup hlive).map fun _ h => h
  | execute => exact (e.execute_live setup hlive).map fun _ h => h
  | pushByte value =>
      apply e.intervene_live hlive
      exact (e.toCore.pushByte_ensures value trivial).map fun d hd => (congrArg Core.status hd :)
  | pushWord value =>
      apply e.intervene_live hlive
      exact (e.toCore.pushWord_ensures value hwrite).map fun d hd => (congrArg Core.status hd :)
  | pullByte =>
      apply e.intervene_live hlive
      exact e.toCore.pullByte_ensures.map fun r hr => (congrArg Core.status hr :)
  | pullWord =>
      apply e.intervene_live hlive
      exact e.toCore.pullWord_ensures.map fun r hr => (congrArg Core.status hr :)
  | resolve mode =>
      apply e.intervene_live hlive
      exact (e.toCore.resolve_ensures mode).map fun r hr => (congrArg Core.status hr.2 :)
  | setRegister register value => exact hlive
  | setSp value => exact hlive
  | setPc value => exact hlive
  | setPending cycles => exact hlive
  | setStatus status => exact absurd rfl (hrequest status)

/-! ## What goes onto the stack -/

def Transfer.stored? : Transfer → Option (UInt16 × UInt8)
  | ⟨.read, _, _⟩ => none
  | ⟨.write, address, value⟩ => some (address, value)

def stores (transfers : List Transfer) : List (UInt16 × UInt8) :=
  transfers.filterMap Transfer.stored?

@[simp] theorem stores_read (address : UInt16) (data : UInt8) (rest : List Transfer) :
    stores (⟨.read, address, data⟩ :: rest) = stores rest := rfl

@[simp] theorem stores_append (first second : List Transfer) :
    stores (first ++ second) = stores first ++ stores second :=
  List.filterMap_append

namespace Traffic

theorem Ensures.stores_eq_nil
    {α β : Type} [Bus β] {P : α → Prop} {t : Work α} (ht : t.Ensures (fun _ _ => False) P)
    (bus : β) :
    stores (t.result bus).moved = [] := by
  induction t generalizing bus with
  | done value => rfl
  | read address next ih => exact ih _ (ht _) _
  | write address value next ih => exact ht.1.elim
  | mark m next ih => exact m.elim

end Traffic

namespace Core

variable {β : Type} [Bus β]

/-- What a decoded instruction writes, its effect writes. -/
theorem stores_carryOut
    (c : Core) (config : Config) (entry : Opcode.Entry) (m : Mnemonic) (bus : β) :
    let next := c.registers.pc + entry.mode.operandBytes.toUInt16
    ∃ operand late, stores ((c.carryOut config entry m).result bus).moved =
      stores ((m.action.effect (c.setPc next) operand).result (β := β) late).moved := by
  intro next
  let r := (c.resolve entry.mode).result bus
  have hresolve := (c.resolve_ensures entry.mode (W := fun _ _ => False))
  have hplace := (hresolve.embed (ε := Mark)).run_value 0 bus ()
  rw [((c.resolve entry.mode).run_embed_result 0 bus ()).1] at hplace
  refine ⟨r.value.1.operand, r.bus, ?_⟩
  rw [carryOut_result]
  simp only [proceed, Traffic.result_bind, stores_append, hresolve.stores_eq_nil, List.nil_append]
  rw [hplace.2]

theorem stores_pushStatus (c : Core) (operand : Operand) (bus : β) :
    stores ((Mnemonic.php.action.effect c operand).result bus).moved =
      [(stackCell c.registers.sp, c.status.pushed)] := rfl

theorem stores_interrupt (c : Core) (operand : Operand) (bus : β) :
    let back := c.registers.pc + 1
    stores ((Mnemonic.brk.action.effect c operand).result bus).moved =
      [(stackCell c.registers.sp, Word.high back), (stackCell (c.registers.sp - 1), Word.low back),
        (stackCell (c.registers.sp - 1 - 1), c.status.pushed)] := rfl

end Core

namespace Cpu

variable {β σ : Type} [Bus β] [Sink σ]

/-- The processors that a host can bring about without installing a status of its own. -/
inductive Reachable : Cpu → Prop
  | built (setup : Setup) : Reachable (ofSetup setup)
  | perform {cpu : Cpu} (hcpu : Reachable cpu) {request : Request}
      (hrequest : ∀ status, request ≠ .setStatus status)
      {β σ : Type} [Bus β] [Sink σ] (bus : β) (sink : σ) :
      Reachable (cpu.perform request bus sink).cpu

theorem Reachable.live {cpu : Cpu} (hcpu : cpu.Reachable) : cpu.status.Live := by
  induction hcpu with
  | built setup => exact Status.live_powerOn
  | @perform cpu hcpu request hrequest β σ _ _ bus sink ih =>
      exact
        (Request.task_live cpu.setup hrequest cpu.toEngine ih).run_value cpu.totalCycles bus sink

theorem stores_step
    (cpu : Cpu) (bus : β) (sink : σ)
    (hreset : cpu.resetDone = true) (hpending : cpu.pendingCycles = 0)
    {entry : Opcode.Entry} {m : Mnemonic}
    (hdecodes : cpu.setup.table.Decodes (cpu.opcodeOn bus) entry m) :
    let next := cpu.registers.pc + 1 + entry.mode.operandBytes.toUInt16
    ∃ operand late, stores (transfers (cpu.step (Probe.fresh bus) sink).bus.calls) =
      stores ((m.action.effect (cpu.setPc next) operand).result (β := β) late).moved := by
  intro next
  rcases cpu.pastOpcode.stores_carryOut cpu.setup.config entry m (cpu.busPastOpcode bus) with
    ⟨operand, late, hstores⟩
  refine ⟨operand, late, Eq.trans ?_ hstores⟩
  rw [cpu.step_transfers_of_decodes bus sink hreset hpending hdecodes, stores_read]

/-- However a host drives a processor, as long as it installs no status of its own, `unused` is set
and `break` is not.  Instructions that save the status save it as it stands at the fetch, with both
bits set. -/
theorem status_stays_live {cpu : Cpu} (hcpu : cpu.Reachable) :
    cpu.status.Live ∧
    (∀ f, (⟨cpu.status.pushed⟩ : Status).get f =
      (decide (f = .breakMark ∨ f = .unused) || cpu.status.get f)) ∧
    ∀ {β σ : Type} [Bus β] [Sink σ] (bus : β) (sink : σ) {entry : Opcode.Entry} {m : Mnemonic},
      let clocked := Bus.tick^[cpu.pendingCycles.toNat] bus
      let stepped := stores (transfers (cpu.step (Probe.fresh bus) sink).bus.calls)
      let executed := stores (transfers (cpu.execute (Probe.fresh bus) sink).bus.calls)
      let sp := cpu.registers.sp
      let back := cpu.registers.pc + 1 + entry.mode.operandBytes.toUInt16 + 1
      cpu.resetDone = true → cpu.setup.table.Decodes (cpu.opcodeOn clocked) entry m →
        (cpu.pendingCycles = 0 → stepped = executed) ∧
        (m = .php → executed = [(Core.stackCell sp, cpu.status.pushed)]) ∧
        (m = .brk → executed =
          [(Core.stackCell sp, Word.high back), (Core.stackCell (sp - 1), Word.low back),
            (Core.stackCell (sp - 2), cpu.status.pushed)]) := by
  refine ⟨hcpu.live, cpu.status.get_pushed, ?_⟩
  intro β σ _ _ bus sink entry m clocked stepped executed sp back hreset hdecodes
  have hexecuted : executed = _ := congrArg stores (cpu.execute_transfers bus sink hreset)
  rcases cpu.drained.stores_step clocked sink hreset rfl hdecodes with ⟨operand, late, hstores⟩
  refine ⟨fun hpending => ?_, ?_, ?_⟩
  · have hclocked : clocked = bus := by
      change Bus.tick^[cpu.pendingCycles.toNat] bus = bus
      rw [hpending]
      rfl
    rw [hexecuted, cpu.drained_of_pendingCycles_zero hpending]
    change stepped = stores (transfers (cpu.step (Probe.fresh clocked) sink).bus.calls)
    rw [hclocked]
  · rintro rfl
    rw [hexecuted, hstores, Core.stores_pushStatus]
    rfl
  · rintro rfl
    have hsp : sp - 2 = sp - 1 - 1 := by grind
    rw [hexecuted, hstores, Core.stores_interrupt, hsp]
    rfl

def restarted : Cpu :=
  ((ofSetup ⟨default, .documented⟩).perform (.reset .hardwareAccurate)
    (⟨[0, 0, 0, 0, 0, 0x00, 0x04]⟩ : Tape) ()).cpu

theorem status_of_restarted :
    restarted.Reachable ∧ restarted.status.Live ∧
      stores (transfers (restarted.execute (Probe.fresh (⟨[0x08]⟩ : Tape)) ()).bus.calls) =
        [(0x1FD, 0x34)] := by
  have hreachable : restarted.Reachable := .perform (.built _) (by simp) _ _
  obtain ⟨hlive, -, hstored⟩ := status_stays_live hreachable
  let php : Opcode.Entry := ⟨0x08, "PHP", some .php, .implied, 1, 3, by decide, by decide⟩
  have hlookup : restarted.setup.table.lookup 0x08 = some php := by decide +kernel
  obtain ⟨-, hpushed, -⟩ := hstored (⟨[0x08]⟩ : Tape) () rfl ⟨hlookup, rfl⟩
  exact ⟨hreachable, hlive, hpushed rfl⟩

end Cpu

end Nmos6502
