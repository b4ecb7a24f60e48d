import Nmos6502.Proofs.Counted
import Nmos6502.Proofs.Watched

/-!
# Peripherals that stand by

As long as no peripheral claims an address that a session accesses, the system is the memory alone:
the session goes as it would without peripherals, and all that a peripheral learns of it is how many
clocks have passed.  To say the latter of any peripheral, it is made to keep a journal of its calls.
-/

namespace Nmos6502

/-- A peripheral with the calls that have reached it, in order. -/
structure Journaled (δ : Type) where
  device : δ
  journal : List DeviceCall
deriving DecidableEq

namespace Journaled

variable {δ : Type}

def fresh (device : δ) : Journaled δ := ⟨device, []⟩

instance [Peripheral δ] : Peripheral (Journaled δ) where
  claims journaled := Peripheral.claims journaled.device
  read journaled address :=
    let (value, device) := Peripheral.read journaled.device address
    (value, ⟨device, journaled.journal ++ [.read address value]⟩)
  write journaled address value :=
    ⟨Peripheral.write journaled.device address value,
      journaled.journal ++ [.write address value]⟩
  tick journaled := ⟨Peripheral.tick journaled.device, journaled.journal ++ [.tick]⟩
  reset journaled := ⟨Peripheral.reset journaled.device, journaled.journal ++ [.reset]⟩

theorem claims_eq [Peripheral δ] (journaled : Journaled δ) :
    Peripheral.claims journaled = Peripheral.claims journaled.device := rfl

theorem tick_iterate [Peripheral δ] (n : Nat) (device : δ) (journal : List DeviceCall) :
    Peripheral.tick^[n] (⟨device, journal⟩ : Journaled δ) =
      ⟨Peripheral.tick^[n] device, journal ++ List.replicate n .tick⟩ := by
  induction n generalizing device journal with
  | zero => simp
  | succ n ih =>
      rw [Function.iterate_succ_apply]
      change Peripheral.tick^[n] (⟨Peripheral.tick device, journal ++ [.tick]⟩ : Journaled δ) = _
      rw [ih, Function.iterate_succ_apply, List.append_assoc, List.singleton_append,
        List.replicate_succ]

theorem tick_iterate_fresh [Peripheral δ] (n : Nat) (device : δ) :
    Peripheral.tick^[n] (fresh device) =
      ⟨Peripheral.tick^[n] device, List.replicate n .tick⟩ :=
  tick_iterate n device []

end Journaled

/-- What `device` claims does not change with the clock. -/
def Peripheral.KeepsClaims {δ : Type} [Peripheral δ] (device : δ) : Prop :=
  ∀ n, Peripheral.claims (Peripheral.tick^[n] device) = Peripheral.claims device

namespace SystemBus

variable {δ : Type} [Peripheral δ] {peripherals : Array δ} {calls : List BusCall}

/-- However far the clock goes on, no peripheral claims an address that `calls` access. -/
def StandBy (peripherals : Array δ) (calls : List BusCall) : Prop :=
  ∀ device ∈ peripherals, ∀ n, ∀ transfer ∈ transfers calls,
    Peripheral.claims (Peripheral.tick^[n] device) transfer.address = false

theorem StandBy.owner?_eq_none (h : StandBy peripherals calls) (memory : Memory)
    {transfer : Transfer} (hmem : transfer ∈ transfers calls) :
    (⟨memory, peripherals⟩ : SystemBus δ).owner? transfer.address = none := by
  rw [owner?, Array.findFinIdx?_eq_none_iff]
  intro device hdevice
  exact Bool.eq_false_iff.mp (h device hdevice 0 transfer hmem)

theorem StandBy.of_subset (h : StandBy peripherals calls) {some : List BusCall}
    (hsub : transfers some ⊆ transfers calls) : StandBy peripherals some :=
  fun device hdevice n transfer hmem => h device hdevice n transfer (hsub hmem)

theorem StandBy.tick (h : StandBy peripherals calls) :
    StandBy (peripherals.map Peripheral.tick) calls := by
  intro device hdevice n transfer hmem
  rcases Array.mem_map.mp hdevice with ⟨earlier, hearlier, rfl⟩
  exact h earlier hearlier (n + 1) transfer hmem

theorem StandBy.journaled (h : StandBy peripherals calls) :
    StandBy (peripherals.map Journaled.fresh) calls := by
  intro journaled hjournaled n transfer hmem
  rcases Array.mem_map.mp hjournaled with ⟨device, hdevice, rfl⟩
  rw [Journaled.tick_iterate_fresh, Journaled.claims_eq]
  exact h device hdevice n transfer hmem

theorem standBy_of_keepsClaims
    (hkeeps : ∀ device ∈ peripherals, Peripheral.KeepsClaims device)
    (hfree : ∀ transfer ∈ transfers calls, ∀ device ∈ peripherals,
      Peripheral.claims device transfer.address = false) :
    StandBy peripherals calls := by
  intro device hdevice n transfer hmem
  rw [hkeeps device hdevice n]
  exact hfree transfer hmem device hdevice

theorem map_tick_iterate_succ (n : Nat) :
    (peripherals.map Peripheral.tick).map Peripheral.tick^[n] =
      peripherals.map Peripheral.tick^[n + 1] := by
  rw [Array.map_map, Function.iterate_succ]

theorem map_tick_iterate_fresh (n : Nat) :
    (peripherals.map Journaled.fresh).map Peripheral.tick^[n] =
      peripherals.map fun device => ⟨Peripheral.tick^[n] device, List.replicate n .tick⟩ := by
  rw [Array.map_map]
  congr
  funext device
  exact Journaled.tick_iterate_fresh n device

end SystemBus

namespace Traffic

variable {α δ σ : Type} [Peripheral δ] [Sink σ]

theorem run_of_standBy
    (t : Traffic Mark α) (clock : UInt64) (memory : Memory) (peripherals : Array δ) (sink : σ)
    (h : SystemBus.StandBy peripherals (t.calls memory)) :
    t.run clock (⟨memory, peripherals⟩ : SystemBus δ) sink =
      let o := t.run clock memory sink
      let elapsed := (t.calls memory).count .tick
      ⟨o.value, o.clock, ⟨o.bus, peripherals.map Peripheral.tick^[elapsed]⟩, o.sink⟩ := by
  -- A clock leaves other peripherals behind, which stand by as the first ones did.
  induction t generalizing clock memory peripherals sink with
  | done value => simp [run, calls]
  | read address next ih =>
      have howner := h.owner?_eq_none memory (List.mem_cons_self)
      have hread : Bus.read (⟨memory, peripherals⟩ : SystemBus δ) address =
          (memory.read address, ⟨memory, peripherals⟩) := SystemBus.read_of_unowned _ howner
      have hrest : SystemBus.StandBy peripherals ((next (memory.read address)).calls memory) :=
        h.of_subset (List.subset_cons_self _ _)
      simp only [run, hread]
      rw [ih _ _ _ _ _ hrest]
      simp [calls, Bus.read]
  | write address value next ih =>
      have howner := h.owner?_eq_none memory (List.mem_cons_self)
      have hwrite : Bus.write (⟨memory, peripherals⟩ : SystemBus δ) address value =
          ⟨memory.write address value, peripherals⟩ :=
        SystemBus.write_of_unowned _ value howner
      have hrest : SystemBus.StandBy peripherals (next.calls (memory.write address value)) :=
        h.of_subset (List.subset_cons_self _ _)
      simp only [run, hwrite]
      rw [ih _ _ _ _ hrest]
      simp [calls, Bus.write]
  | mark m next ih =>
      cases m with
      | tick =>
          have hrest : SystemBus.StandBy peripherals (next.calls memory) := h
          have htick : Bus.tick (⟨memory, peripherals⟩ : SystemBus δ) =
              ⟨memory, peripherals.map Peripheral.tick⟩ := SystemBus.tick_eq _
          simp only [run, htick]
          rw [ih _ _ _ _ hrest.tick]
          simp only [SystemBus.map_tick_iterate_succ]
          simp [calls, Bus.tick]
      | _ => exact ih _ _ _ _ h

end Traffic

namespace Cpu

variable {δ σ : Type} [Peripheral δ] [Sink σ]

theorem performAll_of_standBy
    (cpu : Cpu) (requests : List Request) (memory : Memory) (peripherals : Array δ) (sink : σ)
    (h : SystemBus.StandBy peripherals (cpu.watched requests memory ()).bus.calls) :
    cpu.performAll requests (⟨memory, peripherals⟩ : SystemBus δ) sink =
      let r := cpu.performAll requests memory sink
      let elapsed := (cpu.watched requests memory ()).bus.ticks
      ⟨r.value, r.cpu, ⟨r.bus, peripherals.map Peripheral.tick^[elapsed]⟩, r.sink⟩ := by
  rw [watched_calls] at h
  simp only [Probe.ticks, watched_calls, performAll_eq_drive, drive,
    Traffic.run_of_standBy _ _ _ _ _ h]

/-- If no peripheral claims an address that the session accesses over plain memory, then the session
goes the same way with the peripherals attached, call by call, and leaves the same memory.  Every
peripheral is left as so many clocks have made it, and nothing else has ever reached it. -/
theorem bystanders_are_only_clocked
    (cpu : Cpu) (requests : List Request) (memory : Memory) (peripherals : Array δ) (sink : σ)
    (hkeeps : ∀ device ∈ peripherals, Peripheral.KeepsClaims device)
    (hfree : ∀ transfer ∈ transfers (cpu.watched requests memory ()).bus.calls,
      ∀ device ∈ peripherals, Peripheral.claims device transfer.address = false) :
    ∀ before, before <+: requests →
      let plain := cpu.performAll before memory sink
      let elapsed := (cpu.watched before memory ()).bus.ticks
      plain.cpu.totalCycles = cpu.totalCycles + UInt64.ofNat elapsed ∧
      cpu.performAll before (⟨memory, peripherals⟩ : SystemBus δ) sink =
        ⟨plain.value, plain.cpu, ⟨plain.bus, peripherals.map Peripheral.tick^[elapsed]⟩,
          plain.sink⟩ ∧
      cpu.performAll before (⟨memory, peripherals.map Journaled.fresh⟩ : SystemBus (Journaled δ))
          sink =
        ⟨plain.value, plain.cpu,
          ⟨plain.bus, peripherals.map fun device =>
            ⟨Peripheral.tick^[elapsed] device, List.replicate elapsed .tick⟩⟩,
          plain.sink⟩ := by
  intro before hprefix plain elapsed
  rcases hprefix with ⟨after, rfl⟩
  have hwhole := SystemBus.standBy_of_keepsClaims hkeeps hfree
  have hbefore : SystemBus.StandBy peripherals (cpu.watched before memory ()).bus.calls := by
    apply hwhole.of_subset
    rw [watched_append_calls, transfers_append]
    exact List.subset_append_left _ _
  refine ⟨?_, cpu.performAll_of_standBy before memory peripherals sink hbefore, ?_⟩
  · have hcpu : (cpu.performAll before memory ()).cpu = plain.cpu :=
      congrArg Report.cpu (cpu.performAll_unobserved before memory sink)
    rw [← hcpu]
    exact cpu.performAll_total before memory ()
  · rw [cpu.performAll_of_standBy before memory _ sink hbefore.journaled]
    simp only [SystemBus.map_tick_iterate_fresh]
    rfl

end Cpu

/-- A peripheral in the console window that counts clocks.  Reading it takes the count out. -/
structure Stopwatch where
  count : Nat
deriving DecidableEq

instance : Peripheral Stopwatch where
  claims _ address := consoleBase ≤ address && address ≤ Region.io.last
  read watch _ := (UInt8.ofNat watch.count, ⟨0⟩)
  write _ _ value := ⟨value.toNat⟩
  tick watch := ⟨watch.count + 1⟩
  reset _ := ⟨0⟩

theorem stopwatch_stands_by :
    let increment : Opcode.Entry := ⟨0xE6, "INC", some .inc, .zeroPage, 2, 5, by decide, by decide⟩
    let cpu := Cpu.readyAt 0x400 (Opcode.Table.empty.insert increment)
    let memory := Memory.zeroed.load 0x400 [0xE6, 0x20]
    let plain := cpu.performAll [.execute] memory ()
    cpu.performAll [.execute] (⟨memory, #[⟨7⟩]⟩ : SystemBus Stopwatch) () =
      ⟨plain.value, plain.cpu, ⟨plain.bus, #[⟨12⟩]⟩, ()⟩ := by
  intro increment cpu memory plain
  have hmoved : transfers (cpu.watched [.execute] memory ()).bus.calls =
      [⟨.read, 0x400, 0xE6⟩, ⟨.read, 0x401, 0x20⟩, ⟨.read, 0x20, 0⟩, ⟨.write, 0x20, 1⟩] := by
    decide +kernel
  have hticks : (cpu.watched [.execute] memory ()).bus.ticks = 5 := by decide +kernel
  have hfree : ∀ transfer ∈ transfers (cpu.watched [.execute] memory ()).bus.calls,
      ∀ watch ∈ #[(⟨7⟩ : Stopwatch)], Peripheral.claims watch transfer.address = false := by
    rw [hmoved]
    decide
  have hwatch : #[(⟨7⟩ : Stopwatch)].map Peripheral.tick^[5] = #[⟨12⟩] := by
    simp [Peripheral.tick]
  have hkeeps : ∀ watch ∈ #[(⟨7⟩ : Stopwatch)], Peripheral.KeepsClaims watch := by
    intro watch hmem n
    rfl
  rcases cpu.bystanders_are_only_clocked [.execute] memory _ () hkeeps hfree [.execute]
    (List.prefix_refl _) with ⟨-, hrun, -⟩
  rw [hrun, hticks, hwatch]

end Nmos6502
