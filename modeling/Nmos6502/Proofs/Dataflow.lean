import Nmos6502.Proofs.Arithmetic

/-!
# Data on its way

The instructions that take a byte from one place, may change it, and put it in another: loads and
stores, transfers, logic, counting, and the stack.  A table says of each of them where its byte
comes from, what becomes of it, where it goes to, and whether zero and negative tell of it.  What is
read and written on the bus follows from the two places.
-/

namespace Nmos6502

/-! ## Places for a byte -/

/-- Where a byte is taken from or put to. -/
inductive Seat where
  | operand
  | register (register : Register)
  | stackPointer
  | status
  | stack
deriving DecidableEq, Repr

namespace Seat

section Taking

variable {β : Type} [Bus β] (c : Core) (place : Operand) (bus : β)

/-- The cell that is pulled from next. -/
def top : UInt16 := .ofNat (0x100 + (c.registers.sp.toNat + 1) % 256)

/-- The byte that is found there.  The status shows its two unused bits set. -/
def byte : Seat → UInt8
  | operand => c.valueAt bus place
  | register name => c.registers.get name
  | stackPointer => c.registers.sp
  | status => c.status.bits ||| 0x30
  | stack => (Bus.read bus (top c)).1

def take (r : Registers) : Seat → Registers
  | stack => { r with sp := r.sp + 1 }
  | _ => r

def reads (seat : Seat) : List Transfer :=
  match seat with
  | operand => place.transfers .read (seat.byte c place bus)
  | stack => [⟨.read, top c, seat.byte c place bus⟩]
  | _ => []

end Taking

section Putting

variable (r : Registers) (place : Operand) (value : UInt8)

/-- The registers once `value` has been put there. -/
def put : Seat → Registers
  | operand => if place = .accumulator then { r with a := value } else r
  | register name => r.set name value
  | stackPointer => { r with sp := value }
  | status => r
  | stack => { r with sp := r.sp - 1 }

def writes : Seat → List Transfer
  | operand => place.transfers .write value
  | stack => [⟨.write, .ofNat (0x100 + r.sp.toNat), value⟩]
  | _ => []

end Putting

end Seat

/-! ## The table -/

/-- The way of one byte. -/
structure Flow where
  source : Seat
  /-- What becomes of the byte, modulo 256, next to the accumulator, which comes first. -/
  change : Nat → Nat → Nat
  target : Seat
  /-- Whether zero and negative tell of the byte that arrives. -/
  tells : Bool

namespace Flow

def load (change : Nat → Nat → Nat) (target : Register) : Flow :=
  ⟨.operand, change, .register target, true⟩

def transfer (source target : Seat) (tells : Bool) : Flow :=
  ⟨source, fun _ v => v, target, tells⟩

def store (source : Register) : Flow :=
  transfer (.register source) .operand false

/-- To go back by one is to go on by 255. -/
def count (steps : Nat) (seat : Seat) : Flow :=
  ⟨seat, fun _ v => v + steps, seat, true⟩

end Flow

def Mnemonic.flow? : Mnemonic → Option Flow
  | lda => some (.load (fun _ v => v) .a)
  | ldx => some (.load (fun _ v => v) .x)
  | ldy => some (.load (fun _ v => v) .y)
  | and => some (.load (fun a v => a &&& v) .a)
  | ora => some (.load (fun a v => a ||| v) .a)
  | eor => some (.load (fun a v => a ^^^ v) .a)
  | sta => some (.store .a)
  | stx => some (.store .x)
  | sty => some (.store .y)
  | inc => some (.count 1 .operand)
  | dec => some (.count 255 .operand)
  | inx => some (.count 1 (.register .x))
  | iny => some (.count 1 (.register .y))
  | dex => some (.count 255 (.register .x))
  | dey => some (.count 255 (.register .y))
  | tax => some (.transfer (.register .a) (.register .x) true)
  | tay => some (.transfer (.register .a) (.register .y) true)
  | txa => some (.transfer (.register .x) (.register .a) true)
  | tya => some (.transfer (.register .y) (.register .a) true)
  | tsx => some (.transfer .stackPointer (.register .x) true)
  | txs => some (.transfer (.register .x) .stackPointer false)
  | pha => some (.transfer (.register .a) .stack false)
  | php => some (.transfer .status .stack false)
  | pla => some (.transfer .stack (.register .a) true)
  | plp => some (.transfer .stack .status false)
  | _ => none

/-- The flag that an instruction sets or clears, with its new value. -/
def Mnemonic.flag? : Mnemonic → Option (Flag × Bool)
  | sec => some (.carry, true)
  | clc => some (.carry, false)
  | sei => some (.interruptDisable, true)
  | cli => some (.interruptDisable, false)
  | sed => some (.decimal, true)
  | cld => some (.decimal, false)
  | clv => some (.overflow, false)
  | _ => none

namespace Flow

variable {β : Type} [Bus β] (flow : Flow) (c : Core) (place : Operand) (bus : β)

def arriving : UInt8 :=
  .ofNat (flow.change c.registers.a.toNat (flow.source.byte c place bus).toNat)

/-- What crosses the bus: a byte is read before it is written. -/
def transfers : List Transfer :=
  flow.source.reads c place bus ++
    flow.target.writes c.registers place (flow.arriving c place bus)

/-- The core `d` is what is left of `c` when the byte has arrived. -/
structure Carried (d : Core) : Prop where
  registers : d.registers =
    flow.target.put (flow.source.take c.registers) place (flow.arriving c place bus)
  told : flow.tells = true →
    d.TellsOf (flow.arriving c place bus) ∧ c.status.AgreesOff [.negative, .zero] d.status
  untold : flow.tells = false → d.status =
    if flow.target = .status then ⟨(flow.arriving c place bus &&& 0xEF) ||| 0x20⟩ else c.status

end Flow

/-! ## What the actions do -/

theorem Core.stackCell_succ (c : Core) : stackCell (c.registers.sp + 1) = Seat.top c := by
  rw [stackCell_eq, UInt8.toNat_add]
  rfl

def Logic.onNumbers : Logic → Nat → Nat → Nat
  | and, a, v => a &&& v
  | or, a, v => a ||| v
  | xor, a, v => a ^^^ v

theorem Logic.apply_eq_ofNat (logic : Logic) (a v : UInt8) :
    logic.apply a v = .ofNat (logic.onNumbers a.toNat v.toNat) := by
  cases logic with
  | and => rw [onNumbers, ← UInt8.toNat_and, UInt8.ofNat_toNat, apply]
  | or => rw [onNumbers, ← UInt8.toNat_or, UInt8.ofNat_toNat, apply]
  | xor => rw [onNumbers, ← UInt8.toNat_xor, UInt8.ofNat_toNat, apply]

namespace Action

def flow? : Action → Option Flow
  | load register => some (.load (fun _ v => v) register)
  | combine logic => some (.load logic.onNumbers .a)
  | store register => some (.store register)
  | adjust delta => some (.count delta.toNat .operand)
  | adjustRegister register delta => some (.count delta.toNat (.register register))
  | transfer source target => some (.transfer (.register source) (.register target) true)
  | readStackPointer => some (.transfer .stackPointer (.register .x) true)
  | setStackPointer => some (.transfer (.register .x) .stackPointer false)
  | pushAccumulator => some (.transfer (.register .a) .stack false)
  | pushStatus => some (.transfer .status .stack false)
  | pullAccumulator => some (.transfer .stack (.register .a) true)
  | pullStatus => some (.transfer .stack .status false)
  | _ => none

end Action

theorem Mnemonic.flow?_eq (m : Mnemonic) : m.flow? = m.action.flow? := by
  cases m <;> rfl

section Arrivals

variable {β : Type} [Bus β] {c : Core} {place : Operand} {bus : β}

namespace Flow

theorem carried_of_tells
    {flow : Flow} {d : Core} {value : UInt8} (harriving : flow.arriving c place bus = value)
    (hregisters : d.registers = flow.target.put (flow.source.take c.registers) place value)
    (hstatus : d.status = c.status) (htells : flow.tells = true) :
    flow.Carried c place bus (d.setZeroNegative value) where
  registers := harriving ▸ hregisters
  told _ := by
    rw [harriving, ← hstatus]
    exact ⟨d.setZeroNegative_tellsOf value, d.setZeroNegative_agreesOff value⟩
  untold hsilent := by simp [htells] at hsilent

theorem arriving_count (delta : UInt8) (seat : Seat) :
    (count delta.toNat seat).arriving c place bus = seat.byte c place bus + delta := by
  apply UInt8.toNat_inj.mp
  rw [UInt8.toNat_add]
  exact UInt8.toNat_ofNat'

theorem arriving_transfer (source target : Seat) (tells : Bool) :
    (transfer source target tells).arriving c place bus = source.byte c place bus :=
  UInt8.ofNat_toNat

theorem transfer_carried_of_silent
    {source target : Seat} {d : Core} {value : UInt8} (hvalue : source.byte c place bus = value)
    (hregisters : d.registers = target.put (source.take c.registers) place value)
    (hstatus : d.status =
      if target = .status then ⟨(value &&& 0xEF) ||| 0x20⟩ else c.status) :
    (transfer source target false).Carried c place bus d where
  registers := by rw [arriving_transfer, hvalue, hregisters]; rfl
  told htells := by contradiction
  untold _ := by rw [arriving_transfer, hvalue, hstatus]; rfl

end Flow

end Arrivals

section Effects

variable {β : Type} [Bus β] (c : Core) (place : Operand) (bus : β)

namespace Core

theorem load_carries
    {change : Nat → Nat → Nat} {f : UInt8 → UInt8} (target : Register)
    (hf : ∀ v, f v = .ofNat (change c.registers.a.toNat v.toNat)) :
    let s := (c.load place >>= fun v => pure (c.setResult target (f v))).result bus
    (Flow.load change target).Carried c place bus s.value ∧
      s.moved = (Flow.load change target).transfers c place bus := by
  intro s
  rcases c.load_result bus place (fun v => c.setResult target (f v)) with ⟨hvalue, hmoved⟩
  have hend : s.value = _ := hvalue
  rw [hend]
  exact ⟨Flow.carried_of_tells (hf _).symm rfl rfl rfl, hmoved.trans (List.append_nil _).symm⟩

theorem store_carries (source : Register) :
    let s := (c.store place (c.registers.get source)).result bus
    (Flow.store source).Carried c place bus s.value ∧
      s.moved = (Flow.store source).transfers c place bus := by
  intro s
  rcases c.store_result bus place (c.registers.get source) with ⟨hvalue, hmoved⟩
  have hend : s.value = _ := hvalue
  have hbyte : (Seat.register source).byte c place bus = c.registers.get source := rfl
  rw [hend, Flow.store]
  refine ⟨Flow.transfer_carried_of_silent hbyte ?_ ?_, ?_⟩
  · unfold Seat.put
    split <;> rfl
  · split <;> rfl
  · rw [Flow.transfers, Flow.arriving_transfer]
    exact hmoved

theorem adjust_carries (delta : UInt8) :
    let s := ((Action.adjust delta).effect c place).result bus
    (Flow.count delta.toNat .operand).Carried c place bus s.value ∧
      s.moved = (Flow.count delta.toNat .operand).transfers c place bus := by
  intro s
  rcases c.modify_result bus place (· + delta) (fun v d => d.setZeroNegative (v + delta)) with
    ⟨hvalue, hmoved⟩
  have hend : s.value = _ := hvalue
  rw [hend]
  refine ⟨Flow.carried_of_tells (Flow.arriving_count delta _) ?_ ?_ rfl, ?_⟩
  · unfold Flow.count Seat.put
    split <;> rfl
  · split <;> rfl
  · rw [Flow.transfers, Flow.arriving_count]
    exact hmoved

theorem push_carries
    (source : Seat) {value : UInt8} (hvalue : source.byte c place bus = value)
    (htake : source.take c.registers = c.registers) (hreads : source.reads c place bus = []) :
    let s := (c.pushByte value).result bus
    (Flow.transfer source .stack false).Carried c place bus s.value ∧
      s.moved = (Flow.transfer source .stack false).transfers c place bus := by
  intro s
  refine ⟨Flow.transfer_carried_of_silent hvalue ?_ rfl, ?_⟩
  · rw [htake]
    rfl
  · rw [Flow.transfers, Flow.arriving_transfer, hvalue]
    simp only [Flow.transfer, hreads, Seat.writes, ← stackCell_eq]
    rfl

theorem pull_result (f : UInt8 → Core → Core) :
    let s := (do
      let (byte, d) ← c.pullByte
      pure (f byte d) : Work Core).result bus
    let byte := Seat.stack.byte c place bus
    s.value = f byte (c.setSp (c.registers.sp + 1)) ∧
      s.moved = Seat.stack.reads c place bus := by
  intro s byte
  have htop := c.stackCell_succ
  simp only [byte, Seat.byte, Seat.reads, ← htop]
  exact ⟨rfl, rfl⟩

end Core

theorem Action.effect_carries {action : Action} {flow : Flow} (hflow : action.flow? = some flow) :
    let s := (action.effect c place).result bus
    flow.Carried c place bus s.value ∧ s.moved = flow.transfers c place bus := by
  intro s
  cases action with
  | load register =>
      cases hflow
      exact c.load_carries place bus register fun _ => UInt8.ofNat_toNat.symm
  | combine logic =>
      cases hflow
      exact c.load_carries place bus .a fun v => logic.apply_eq_ofNat c.registers.a v
  | store register =>
      cases hflow
      exact c.store_carries place bus register
  | adjust delta =>
      cases hflow
      exact c.adjust_carries place bus delta
  | adjustRegister register delta =>
      cases hflow
      exact ⟨Flow.carried_of_tells (Flow.arriving_count delta _) rfl rfl rfl, rfl⟩
  | transfer source target =>
      cases hflow
      exact ⟨Flow.carried_of_tells (Flow.arriving_transfer ..) rfl rfl rfl, rfl⟩
  | readStackPointer =>
      cases hflow
      exact ⟨Flow.carried_of_tells (Flow.arriving_transfer ..) rfl rfl rfl, rfl⟩
  | setStackPointer =>
      cases hflow
      exact ⟨Flow.transfer_carried_of_silent rfl rfl rfl, rfl⟩
  | pushAccumulator =>
      cases hflow
      exact c.push_carries place bus (.register .a) rfl rfl rfl
  | pushStatus =>
      cases hflow
      exact c.push_carries place bus .status (UInt8.or_assoc _ 0x10 0x20).symm rfl rfl
  | pullAccumulator =>
      cases hflow
      rcases c.pull_result place bus (fun v d => d.setResult .a v) with ⟨hvalue, hmoved⟩
      have hend : s.value = _ := hvalue
      rw [hend]
      exact ⟨Flow.carried_of_tells (Flow.arriving_transfer ..) rfl rfl rfl,
        hmoved.trans (List.append_nil _).symm⟩
  | pullStatus =>
      cases hflow
      rcases c.pull_result place bus (fun v d => d.setStatus (Status.pulled v)) with
        ⟨hvalue, hmoved⟩
      have hend : s.value = _ := hvalue
      rw [hend]
      exact ⟨Flow.transfer_carried_of_silent rfl rfl rfl, hmoved.trans (List.append_nil _).symm⟩
  | _ => contradiction

end Effects

theorem Core.testBits_get (c : Core) (v : UInt8) :
    let d := c.testBits v
    (d.status.get .zero = true ↔ c.registers.a &&& v = 0) ∧
      d.status.get .negative = v.toNat.testBit 7 ∧ d.status.get .overflow = v.toNat.testBit 6 := by
  have hnext : (v &&& 0x40 != 0) = v.toNat.testBit 6 := Byte.and_bit v rfl
  simp [testBits, Status.get_set_of_ne, ← Byte.and_top, ← hnext]

namespace Cpu

section Calls

variable {β : Type} [Bus β] (cpu : Cpu) (bus : β) {request : Request} {entry : Opcode.Entry}
  {m : Mnemonic} (h : cpu.Performs bus request entry m)

include h

theorem perform_flow {flow : Flow} (hflow : m.flow? = some flow) :
    let c := cpu.ready entry.mode
    let located := cpu.locate bus entry.mode
    let place := located.value.operand
    flow.Carried c place located.bus (cpu.perform request bus ()).cpu.toCore ∧
      transfers (cpu.perform request (Probe.fresh bus) ()).bus.calls =
        cpu.fetches bus entry.mode ++ flow.transfers c place located.bus := by
  intro c located place
  rw [m.flow?_eq] at hflow
  rcases Action.effect_carries c place located.bus hflow with ⟨hcarried, hmoved⟩
  rw [(cpu.perform_result bus () h).2.1, cpu.perform_transfers bus () h]
  exact ⟨hcarried, congrArg _ hmoved⟩

theorem perform_flag {flag : Flag} {value : Bool} (hflag : m.flag? = some (flag, value)) :
    (cpu.perform request bus ()).cpu.toCore = (cpu.ready entry.mode).setFlag flag value ∧
      transfers (cpu.perform request (Probe.fresh bus) ()).bus.calls =
        cpu.fetches bus entry.mode := by
  have haction : m.action = .setFlag flag value := by
    cases m <;> simp_all [Mnemonic.flag?, Mnemonic.action]
  have heffect (c : Core) (operand : Operand) :
      m.action.effect c operand = pure (c.setFlag flag value) := by
    rw [haction]
    rfl
  exact cpu.perform_of_pure bus () h heffect

end Calls

/-- Loads, stores, transfers, logic, counting and the stack carry bytes as the table says, whatever
the mode and the bus: what comes to rest where, which flags tell of it, and what crosses the bus
behind the bytes that lead to the operand.  A bit test leaves the registers alone, an instruction
for a flag changes that flag, and a no-operation is over with its bytes. -/
theorem data_flows_as_tabulated
    {β : Type} [Bus β] (cpu : Cpu) (bus : β) {request : Request} {entry : Opcode.Entry}
    {m : Mnemonic} (h : cpu.Performs bus request entry m) :
    let c := cpu.ready entry.mode
    let located := cpu.locate bus entry.mode
    let place := located.value.operand
    let fetched := cpu.fetches bus entry.mode
    let x := cpu.perform request bus ()
    let seen := transfers (cpu.perform request (Probe.fresh bus) ()).bus.calls
    x.value.fault? = none ∧ place.Suits entry.mode ∧
    (entry.mode = .relative → place = .relative (cpu.displacementOn bus)) ∧
    (∀ transfer ∈ fetched, transfer.direction = .read) ∧
    (∀ flow, m.flow? = some flow →
      flow.Carried c place located.bus x.cpu.toCore ∧
      seen = fetched ++ flow.transfers c place located.bus) ∧
    (m = .bit →
      let v := cpu.operandValue bus entry.mode
      x.cpu.registers = c.registers ∧
      (x.cpu.status.get .zero = true ↔ cpu.registers.a &&& v = 0) ∧
      x.cpu.status.get .negative = v.toNat.testBit 7 ∧
      x.cpu.status.get .overflow = v.toNat.testBit 6 ∧
      cpu.status.AgreesOff [.negative, .zero, .overflow] x.cpu.status ∧
      seen = fetched ++ place.transfers .read v) ∧
    (∀ flag value, m.flag? = some (flag, value) →
      x.cpu.registers = c.registers ∧ x.cpu.status.get flag = value ∧
      cpu.status.AgreesOff [flag] x.cpu.status ∧ seen = fetched) ∧
    (m = .nop → x.cpu.toCore = c ∧ seen = fetched) := by
  intro c located place fetched x seen
  refine ⟨(cpu.perform_result bus () h).1, cpu.locate_suits bus entry.mode, ?_,
    fun _ => cpu.direction_of_mem_fetches bus entry.mode, fun _ => cpu.perform_flow bus h,
    ?_, ?_, ?_⟩
  · intro hmode
    unfold place located
    rw [hmode]
    exact cpu.locate_relative bus
  · rintro rfl v
    rcases cpu.perform_of_load bus () h (f := fun c v => c.testBits v) fun _ _ => rfl with
      ⟨hcore, hseen⟩
    have hx : x.cpu.toCore = _ := hcore
    rw [hx]
    rcases c.testBits_get v with ⟨hzero, hnegative, hoverflow⟩
    exact ⟨rfl, hzero, hnegative, hoverflow, Core.testBits_agreesOff c v, hseen⟩
  · intro flag value hflag
    rcases cpu.perform_flag bus h hflag with ⟨hcore, hseen⟩
    have hx : x.cpu.toCore = _ := hcore
    rw [hx]
    exact ⟨rfl, by simp, Core.setFlag_agreesOff c flag value, hseen⟩
  · rintro rfl
    exact cpu.perform_of_pure bus () h fun _ _ => rfl

/-- A byte is pulled from the bottom of the stack page, and the accumulator is counted around. -/
theorem pull_and_count_around :
    let pla : Opcode.Entry := ⟨0x68, "PLA", some .pla, .implied, 1, 4, by decide, by decide⟩
    let inc : Opcode.Entry := ⟨0x1A, "INC", some .inc, .accumulator, 1, 2, by decide, by decide⟩
    let puller : Cpu :=
      { readyAt 0x400 (Opcode.Table.empty.insert pla) with registers := ⟨1, 2, 3, 0xFF, 0x400⟩ }
    let counter := holding 0xFF (Opcode.Table.empty.insert inc)
    let tape : Tape := ⟨[0x68, 0x80]⟩
    let away : Tape := ⟨[0x1A]⟩
    (puller.perform .step tape ()).cpu.registers = ⟨0x80, 2, 3, 0, 0x401⟩ ∧
      (puller.perform .step tape ()).cpu.status.get .negative = true ∧
      transfers (puller.perform .step (Probe.fresh tape) ()).bus.calls =
        [⟨.read, 0x400, 0x68⟩, ⟨.read, 0x100, 0x80⟩] ∧
      (counter.perform .execute away ()).cpu.registers.a = 0 ∧
      (counter.perform .execute away ()).cpu.status.get .zero = true := by
  intro pla inc puller counter tape away
  have hpla : puller.Performs tape .step pla .pla :=
    ⟨rfl, .inr ⟨rfl, rfl⟩, Opcode.Table.lookup_insert_self _ pla, rfl⟩
  have hinc : counter.Performs away .execute inc .inc :=
    ⟨rfl, .inl rfl, Opcode.Table.lookup_insert_self _ inc, rfl⟩
  obtain ⟨-, -, -, -, hpull, -⟩ := puller.data_flows_as_tabulated tape hpla
  obtain ⟨-, -, -, -, hcount, -⟩ := counter.data_flows_as_tabulated away hinc
  rcases hpull _ rfl with ⟨hpulled, hseen⟩
  rcases hcount _ rfl with ⟨hcounted, -⟩
  refine ⟨hpulled.registers.trans ?_, (hpulled.told rfl).1.negative.mpr ?_, hseen.trans ?_,
    (congrArg Registers.a hcounted.registers).trans ?_, (hcounted.told rfl).1.zero.mpr ?_⟩
  all_goals decide +kernel

end Cpu

end Nmos6502
