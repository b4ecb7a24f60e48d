import Nmos6502.Bus.Tape
import Nmos6502.Proofs.Footprint
import Nmos6502.Proofs.Step

/-!
# The frame of an instruction

The clock that fetches an instruction changes what the footprint of its mnemonic names and nothing
else, in every mode and on every bus.  Control comes to the next instruction unless the mnemonic
redirects it, and the bus is written only where the resolved operand is or where the stack grows.
-/

namespace Nmos6502

/-- The forms that an operand of each mode takes. -/
def Operand.Suits (operand : Operand) : AddressingMode → Prop
  | .implied => operand = .none
  | .accumulator => operand = .accumulator
  | .relative => ∃ displacement, operand = .relative displacement
  | _ => ∃ address, operand = .address address

namespace Operand.Suits

theorem eq_accumulator_iff
    {operand : Operand} {mode : AddressingMode} (h : operand.Suits mode) :
    operand = .accumulator ↔ mode = .accumulator := by
  cases mode <;> simp only [Suits] at h
  case implied => simp [h]
  case accumulator => simp [h]
  all_goals
    rcases h with ⟨place, rfl⟩
    simp

end Operand.Suits

namespace Mnemonic

theorem footprint_action
    (m : Mnemonic) {mode : AddressingMode} {operand : Operand} (r : Registers)
    (hsuits : operand.Suits mode) :
    m.action.footprint operand r = m.footprint mode r := by
  have hback : Action.backed operand = if mode == .accumulator then [Register.a] else [] := by
    simp [Action.backed, hsuits.eq_accumulator_iff]
  cases m <;>
    simp [action, Action.footprint, footprint, redirects, alteredFlags, alteredRegisters,
      storesOperand, stackPointer, pushes, hback]

end Mnemonic

namespace Footprint.Admits

theorem of_setPc
    {fp : Footprint} {next target : UInt16} {c d : Core}
    (h : fp.Admits next (c.setPc target) d) :
    fp.Admits next c d where
  pc := h.pc
  flag := h.flag
  register r hr := (h.register r hr).trans (c.setPc_get target r)
  sp := h.sp

end Footprint.Admits

/-! ## From the operand bytes to the effect -/

namespace Core

variable {W : UInt16 → UInt8 → Prop}

theorem fetchByte_ensures (c : Core) :
    c.fetchByte.Ensures W fun r => r.2 = c.setPc (c.registers.pc + 1) := by
  simp [fetchByte, Traffic.fetch]

theorem fetchWord_ensures (c : Core) :
    c.fetchWord.Ensures W fun r => r.2 = c.setPc (c.registers.pc + 2) := by
  unfold fetchWord
  apply c.fetchByte_ensures.bind
  intro r hd
  rcases r with ⟨low, d⟩
  obtain rfl : d = c.setPc (c.registers.pc + 1) := hd
  apply (c.setPc (c.registers.pc + 1)).fetchByte_ensures.bind
  intro r he
  rcases r with ⟨high, e⟩
  change e = (c.setPc (c.registers.pc + 1)).setPc (c.registers.pc + 1 + 1) at he
  change e = c.setPc (c.registers.pc + 2)
  rw [he, setPc_setPc]
  congr 1
  grind

/-- Resolving takes the operand bytes, writes nothing and finds an operand of the mode's form. -/
theorem resolve_ensures (c : Core) (mode : AddressingMode) :
    (c.resolve mode).Ensures W fun r =>
      r.1.operand.Suits mode ∧
        r.2 = c.setPc (c.registers.pc + mode.operandBytes.toUInt16) := by
  cases mode with
  | implied => exact ⟨rfl, by simp [AddressingMode.operandBytes, setPc]⟩
  | accumulator => exact ⟨rfl, by simp [AddressingMode.operandBytes, setPc]⟩
  | immediate => exact ⟨⟨_, rfl⟩, rfl⟩
  | relative =>
      apply c.fetchByte_ensures.bind
      intro r hr
      exact ⟨⟨r.1, rfl⟩, hr⟩
  | zeroPage =>
      apply c.fetchByte_ensures.bind
      intro r hr
      exact ⟨⟨_, rfl⟩, hr⟩
  | zeroPageX =>
      apply c.fetchByte_ensures.bind
      intro r hr
      exact ⟨⟨_, rfl⟩, hr⟩
  | zeroPageY =>
      apply c.fetchByte_ensures.bind
      intro r hr
      exact ⟨⟨_, rfl⟩, hr⟩
  | absolute =>
      apply c.fetchWord_ensures.bind
      intro r hr
      exact ⟨⟨r.1, rfl⟩, hr⟩
  | absoluteX =>
      apply c.fetchWord_ensures.bind
      intro r hr
      exact ⟨⟨_, rfl⟩, hr⟩
  | absoluteY =>
      apply c.fetchWord_ensures.bind
      intro r hr
      exact ⟨⟨_, rfl⟩, hr⟩
  | indirect =>
      apply c.fetchWord_ensures.bind
      intro r hr
      apply (readPair_ensures _ _).bind
      intro target _
      exact ⟨⟨target, rfl⟩, hr⟩
  | indexedIndirect =>
      apply c.fetchByte_ensures.bind
      intro r hr
      apply (readPair_ensures _ _).bind
      intro address _
      exact ⟨⟨address, rfl⟩, hr⟩
  | indirectIndexed =>
      apply c.fetchByte_ensures.bind
      intro r hr
      apply (readPair_ensures _ _).bind
      intro base _
      exact ⟨⟨_, rfl⟩, hr⟩

theorem footprint_setPc (m : Mnemonic) (mode : AddressingMode) (c : Core) (target : UInt16) :
    m.footprint mode (c.setPc target).registers = m.footprint mode c.registers := by
  have hsp : m.stackPointer (c.setPc target).registers = m.stackPointer c.registers := by
    cases m <;> rfl
  simp [Mnemonic.footprint, hsp]

theorem effect_ensures
    (c : Core) (m : Mnemonic) {mode : AddressingMode} {ea : EffectiveAddress} {d : Core}
    {next : UInt16} (hsuits : ea.operand.Suits mode) (hd : d = c.setPc next) :
    (m.action.effect d ea.operand).Ensures
      (fun address _ =>
        (m.footprint mode c.registers).MayWrite c.registers.sp ea.operand address)
      ((m.footprint mode c.registers).Admits next c) := by
  subst hd
  have heffect := m.action.effect_within_footprint (c.setPc next) ea.operand
  rw [m.footprint_action _ hsuits, footprint_setPc] at heffect
  apply heffect.imp
  intro e he
  exact he.of_setPc

theorem carryOut_ensures
    (c : Core) (config : Config) (entry : Opcode.Entry) (m : Mnemonic) :
    (c.carryOut config entry m).Ensures (fun _ _ => True) fun r =>
      (m.footprint entry.mode c.registers).Admits
        (c.registers.pc + entry.mode.operandBytes.toUInt16) c r.2 := by
  rw [carryOut_eq]
  apply (c.resolve_ensures entry.mode).bind
  intro r hd
  rcases r with ⟨ea, d⟩
  rcases hd with ⟨hsuits, hd⟩
  have heffect := c.effect_ensures m hsuits hd
  have hframe := heffect.mono (V := fun _ _ => True) (fun _ _ _ => trivial) (fun _ h => h)
  exact hframe.map fun e he => he

/-! ## What a pulled status comes from -/

variable {β σ : Type} [Bus β] [Sink σ]

theorem effect_pulls_status
    (c : Core) (operand : Operand) {m : Mnemonic} (hpulls : m = .plp ∨ m = .rti)
    (clock : UInt64) (bus : β) (sink : σ) :
    let t := (m.action.effect c operand).embed (ε := Mark)
    ∃ byte, .read (stackCell (c.registers.sp + 1)) byte ∈ t.calls bus ∧
      (t.run clock bus sink).value.status = Status.pulled byte := by
  rcases hpulls with rfl | rfl
  · exact ⟨_, List.mem_cons_self, rfl⟩
  · exact ⟨_, List.mem_cons_self, rfl⟩

theorem carryOut_pulls_status
    (c : Core) (config : Config) (entry : Opcode.Entry) {m : Mnemonic}
    (hpulls : m = .plp ∨ m = .rti) (clock : UInt64) (bus : β) (sink : σ) :
    let t := (c.carryOut config entry m).embed (ε := Mark)
    ∃ byte, .read (stackCell (c.registers.sp + 1)) byte ∈ t.calls bus ∧
      (t.run clock bus sink).value.2.status = Status.pulled byte := by
  intro t
  have hresolve : Traffic.Ensures (fun _ _ => True) _ ((c.resolve entry.mode).embed (ε := Mark)) :=
    (c.resolve_ensures entry.mode).embed
  have hplace := hresolve.run_value clock bus sink
  generalize hresolved : (c.resolve entry.mode).embed.run clock bus sink = o at hplace
  have hsp : o.value.2.registers.sp = c.registers.sp := by
    rw [hplace.2]
    rfl
  obtain ⟨byte, hread, hstatus⟩ :=
    o.value.2.effect_pulls_status o.value.1.operand hpulls o.clock o.bus o.sink
  rw [hsp] at hread
  refine ⟨byte, ?_, ?_⟩
  · simp only [t, carryOut_eq, map_eq_pure_bind, Traffic.embed_bind]
    rw [Traffic.calls_bind _ _ clock bus sink, hresolved]
    apply List.mem_append_right
    rw [Traffic.calls_bind _ _ o.clock o.bus o.sink]
    exact List.mem_append_left _ hread
  · simp only [t, carryOut_eq, map_eq_pure_bind, Traffic.embed_bind, Traffic.run_bind, hresolved]
    exact hstatus

/-- On a given bus the operand is resolved first, and all writes come after. -/
theorem mayWrite_of_mem_carryOut_calls
    (c : Core) (config : Config) (entry : Opcode.Entry) (m : Mnemonic)
    (clock : UInt64) (bus : β) {address : UInt16} {value : UInt8}
    (hmem : .write address value ∈ Traffic.calls (c.carryOut config entry m).embed bus) :
    (m.footprint entry.mode c.registers).MayWrite c.registers.sp
      ((c.resolve entry.mode).embed.run clock bus ()).value.1.operand address := by
  rw [carryOut_eq, Traffic.embed_bind, Traffic.calls_bind _ _ clock bus (),
    List.mem_append] at hmem
  have hresolve : Traffic.Ensures (fun _ _ => False) _ ((c.resolve entry.mode).embed (ε := Mark)) :=
    (c.resolve_ensures entry.mode).embed
  have hplace := hresolve.run_value clock bus ()
  rcases hmem with hearly | hlate
  · exact (hresolve.write_mem_calls hearly).elim
  · generalize (c.resolve entry.mode).embed.run clock bus () = o at hplace hlate ⊢
    have heffect := c.effect_ensures m hplace.1 hplace.2
    have hwrites := heffect.map (R := fun _ => True)
      (f := Prod.mk (cost config entry m o.value)) fun _ _ => trivial
    exact hwrites.embed.write_mem_calls hlate

end Core

namespace Cpu

variable {β σ : Type} [Bus β] [Sink σ]

theorem resolve_value (cpu : Cpu) (mode : AddressingMode) (bus : β) :
    (cpu.resolve mode bus).value =
      ((cpu.toCore.resolve mode).embed.run cpu.totalCycles bus ()).value.1 := by
  simp only [resolve, drive, Engine.intervene, Traffic.run_bind]
  rfl

/-- The clock that fetches a decodable opcode, from any state that is ready for it: what the
mnemonic's footprint does not name is as before, control comes to the next instruction unless
redirected, a pulled status is the byte read above the stack pointer, and every write goes where the
footprint says. -/
theorem step_within_footprint
    (cpu : Cpu) (bus : β) (sink : σ)
    (hreset : cpu.resetDone = true) (hpending : cpu.pendingCycles = 0)
    {entry : Opcode.Entry} {m : Mnemonic}
    (hdecodes : cpu.setup.table.Decodes (cpu.opcodeOn bus) entry m) :
    let r := cpu.step bus sink
    let calls := (cpu.step (Probe.fresh bus) sink).bus.calls
    let fp := m.footprint entry.mode cpu.registers
    let place :=
      ((cpu.setCore cpu.pastOpcode).resolve entry.mode (cpu.busPastOpcode bus)).value.operand
    r.value = .ok .fetch ∧
      fp.Admits (cpu.registers.pc + entry.mode.instructionLength.toUInt16)
        cpu.toCore r.cpu.toCore ∧
      (m = .plp ∨ m = .rti → ∃ byte,
        .read (Core.stackCell (cpu.registers.sp + 1)) byte ∈ calls ∧
          r.cpu.status = Status.pulled byte) ∧
      r.cpu.setup = cpu.setup ∧ r.cpu.resetDone = true ∧
      r.cpu.totalCycles = cpu.totalCycles + 1 ∧
      ∀ address value, .write address value ∈ calls →
        fp.MayWrite cpu.registers.sp place address := by
  intro r calls fp place
  have hr : r = _ := cpu.step_of_decodes bus sink hreset hpending hdecodes
  have hcalls : calls = _ := cpu.step_calls_of_decodes bus sink hreset hpending hdecodes
  have hfp : m.footprint entry.mode cpu.pastOpcode.registers = fp :=
    Core.footprint_setPc m entry.mode cpu.toCore _
  have hlength : cpu.registers.pc + 1 + entry.mode.operandBytes.toUInt16 =
      cpu.registers.pc + entry.mode.instructionLength.toUInt16 := by
    rw [UInt16.add_assoc]
    congr 1
    cases entry.mode <;> rfl
  have hcore : r.cpu.toCore =
      ((cpu.pastOpcode.carryOut cpu.setup.config entry m).embed.run cpu.totalCycles
        (cpu.busPastOpcode bus) ()).value.2 := by
    rw [hr]
    exact congrArg Prod.snd (cpu.carriedOut_value _ entry m cpu.totalCycles bus sink)
  refine ⟨by rw [hr], ?_, ?_, by rw [hr]; rfl, by rw [hr]; exact hreset, by rw [hr]; rfl, ?_⟩
  · have hcarried := (cpu.pastOpcode.carryOut_ensures cpu.setup.config entry m).embed (ε := Mark)
    have hadmits := hcarried.run_value cpu.totalCycles (cpu.busPastOpcode bus) ()
    rw [hfp, ← hcore] at hadmits
    change fp.Admits (cpu.registers.pc + 1 + _) (cpu.toCore.setPc _) _ at hadmits
    rw [hlength] at hadmits
    exact hadmits.of_setPc
  · intro hpulls
    obtain ⟨byte, hread, hstatus⟩ :=
      cpu.pastOpcode.carryOut_pulls_status cpu.setup.config entry hpulls cpu.totalCycles
        (cpu.busPastOpcode bus) ()
    rw [← hcore] at hstatus
    refine ⟨byte, ?_, hstatus⟩
    rw [hcalls]
    exact List.mem_cons_of_mem _ (List.mem_append_left _ hread)
  · intro address value hmem
    rw [hcalls] at hmem
    have hcarried : .write address value ∈
        Traffic.calls (cpu.pastOpcode.carryOut cpu.setup.config entry m).embed
          (cpu.busPastOpcode bus) := by
      simpa using hmem
    have hwrite := Core.mayWrite_of_mem_carryOut_calls _ _ entry m cpu.totalCycles _ hcarried
    rw [hfp] at hwrite
    have hplace : place = _ := congrArg EffectiveAddress.operand (resolve_value _ _ _)
    rw [hplace]
    exact hwrite

/-- A store whose operand is the accumulator is in no documented table, and stays within its
footprint all the same. -/
theorem step_of_stx_accumulator :
    let entry : Opcode.Entry :=
      ⟨0x8E, "STX", some .stx, .accumulator, 1, 2, by decide, by decide⟩
    let cpu := readyAt 0x400 (Opcode.Table.empty.insert entry)
    let r := cpu.step (⟨[0x8E]⟩ : Tape) ()
    r.value = .ok .fetch ∧
      (Mnemonic.stx.footprint .accumulator cpu.registers).Admits 0x401 cpu.toCore r.cpu.toCore := by
  intro entry cpu r
  have hdecodes : cpu.setup.table.Decodes (cpu.opcodeOn (⟨[0x8E]⟩ : Tape)) entry .stx :=
    ⟨Opcode.Table.lookup_insert_self _ entry, rfl⟩
  have hframe := cpu.step_within_footprint (⟨[0x8E]⟩ : Tape) () rfl rfl hdecodes
  exact ⟨hframe.1, hframe.2.1⟩

end Cpu

end Nmos6502
