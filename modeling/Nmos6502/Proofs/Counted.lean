import Nmos6502.Proofs.Deliveries
import Nmos6502.Proofs.Invariance

/-!
# Peripherals that count

Any peripheral can be made to count the clocks that reach it, and no processor can tell.  In front
of a system of such peripherals a probe sees as many clocks as each of them has counted.
-/

namespace Nmos6502

/-- The clocks that the probe has seen. -/
def Probe.ticks {β : Type} (probe : Probe β) : Nat := probe.calls.count .tick

/-- A peripheral with the number of clocks that have reached it. -/
structure Counted (δ : Type) where
  device : δ
  clocks : Nat

instance {δ : Type} [Peripheral δ] : Peripheral (Counted δ) where
  claims counted := Peripheral.claims counted.device
  read counted address :=
    let (value, device) := Peripheral.read counted.device address
    (value, ⟨device, counted.clocks⟩)
  write counted address value := ⟨Peripheral.write counted.device address value, counted.clocks⟩
  tick counted := ⟨Peripheral.tick counted.device, counted.clocks + 1⟩
  reset counted := ⟨Peripheral.reset counted.device, counted.clocks⟩

namespace SystemBus

variable {δ : Type}

/-- The system with a count from zero for each of its peripherals. -/
def counted (bus : SystemBus δ) : SystemBus (Counted δ) :=
  ⟨bus.memory, bus.peripherals.map fun device => ⟨device, 0⟩⟩

def uncounted (bus : SystemBus (Counted δ)) : SystemBus δ :=
  ⟨bus.memory, bus.peripherals.map Counted.device⟩

theorem size_uncounted (bus : SystemBus (Counted δ)) :
    bus.uncounted.peripherals.size = bus.peripherals.size := by
  simp [uncounted]

theorem uncounted_counted (bus : SystemBus δ) : bus.counted.uncounted = bus := by
  simp [counted, uncounted, Function.comp_def]

/-- Each count is the number of clocks that the probe in front of the system has seen. -/
def AllCount (probe : Probe (SystemBus (Counted δ))) : Prop :=
  ∀ counted ∈ probe.bus.peripherals, counted.clocks = probe.ticks

theorem allCount_fresh (bus : SystemBus δ) : AllCount (Probe.fresh bus.counted) := by
  intro device hmem
  simp only [Probe.fresh, counted, Array.mem_map] at hmem
  rcases hmem with ⟨original, -, rfl⟩
  rfl

theorem clocks_of_mem_set
    {peripherals : Array (Counted δ)} {n i : Nat} {hi : i < peripherals.size} {device : Counted δ}
    (hall : ∀ counted ∈ peripherals, counted.clocks = n)
    (hdevice : device.clocks = peripherals[i].clocks) :
    ∀ counted ∈ peripherals.set i device, counted.clocks = n := by
  intro other hmem
  rcases Array.mem_or_eq_of_mem_set hmem with hold | rfl
  · exact hall other hold
  · rw [hdevice]
    exact hall _ (Array.getElem_mem _)

variable [Peripheral δ]

theorem uncounted_unowned
    (bus : SystemBus (Counted δ)) {address : UInt16} (howner : bus.owner? address = none) :
    bus.uncounted.owner? address = none := by
  rw [owner?, Array.findFinIdx?_eq_none_iff] at howner ⊢
  simpa [uncounted, Peripheral.claims] using howner

theorem uncounted_owner
    (bus : SystemBus (Counted δ)) {address : UInt16} {i : Nat} {hi : i < bus.peripherals.size}
    (howner : bus.owner? address = some ⟨i, hi⟩) :
    bus.uncounted.owner? address = some ⟨i, Nat.lt_of_lt_of_eq hi bus.size_uncounted.symm⟩ := by
  rw [owner?, Array.findFinIdx?_eq_some_iff] at howner ⊢
  rcases howner with ⟨hclaims, hfirst⟩
  constructor
  · simpa [uncounted, Peripheral.claims] using hclaims
  · intro j hlt
    have hj := hfirst (j.cast bus.size_uncounted) hlt
    have hdevice : bus.uncounted.peripherals[j] =
        bus.peripherals[j.cast bus.size_uncounted].device :=
      Array.getElem_map Counted.device j.isLt
    rw [hdevice]
    exact hj

theorem shows_uncounted :
    Bus.Shows (uncounted : SystemBus (Counted δ) → SystemBus δ) where
  read bus address := by
    cases howner : bus.owner? address with
    | none =>
        rw [bus.read_of_unowned howner,
          bus.uncounted.read_of_unowned (bus.uncounted_unowned howner)]
        rfl
    | some i =>
        rw [bus.read_of_owner howner, bus.uncounted.read_of_owner (bus.uncounted_owner howner)]
        simp [uncounted, Peripheral.read]
  write bus address value := by
    cases howner : bus.owner? address with
    | none =>
        rw [bus.write_of_unowned value howner,
          bus.uncounted.write_of_unowned value (bus.uncounted_unowned howner)]
        rfl
    | some i =>
        rw [bus.write_of_owner value howner,
          bus.uncounted.write_of_owner value (bus.uncounted_owner howner)]
        simp [uncounted, Peripheral.write]
  tick bus := by
    simp [tick_eq, uncounted, Function.comp_def, Peripheral.tick]

theorem keeps_allCount : Bus.Keeps (AllCount : Probe (SystemBus (Counted δ)) → Prop) where
  read probe address hall := by
    have hticks : (Bus.read probe address).2.ticks = probe.ticks := by simp [Probe.ticks]
    unfold AllCount
    rw [hticks]
    cases howner : probe.bus.owner? address with
    | none =>
        rw [Probe.read_eq, probe.bus.read_of_unowned howner]
        exact hall
    | some i =>
        rw [Probe.read_eq, probe.bus.read_of_owner howner]
        exact clocks_of_mem_set hall rfl
  write probe address value hall := by
    have hticks : (Bus.write probe address value).ticks = probe.ticks := by simp [Probe.ticks]
    unfold AllCount
    rw [hticks]
    cases howner : probe.bus.owner? address with
    | none =>
        rw [Probe.write_eq, probe.bus.write_of_unowned value howner]
        exact hall
    | some i =>
        rw [Probe.write_eq, probe.bus.write_of_owner value howner]
        exact clocks_of_mem_set hall rfl

theorem allCount_tick (probe : Probe (SystemBus (Counted δ))) (hall : AllCount probe) :
    AllCount (Bus.tick probe) := by
  have hticks : (Bus.tick probe).ticks = probe.ticks + 1 := by simp [Probe.ticks]
  intro device hmem
  have hmap : device ∈ probe.bus.peripherals.map Peripheral.tick := by
    rwa [Probe.tick_eq, tick_eq] at hmem
  rcases Array.mem_map.mp hmap with ⟨before, hbefore, rfl⟩
  rw [hticks, ← hall before hbefore]
  rfl

end SystemBus

namespace Cpu

/-- Counting goes unnoticed, and every peripheral counts what a probe in front of the system
sees. -/
theorem performAll_counted
    {δ σ : Type} [Peripheral δ] [Sink σ] (cpu : Cpu) (requests : List Request)
    (system : SystemBus δ) (sink : σ) :
    let r := cpu.performAll requests system.counted sink
    cpu.performAll requests system sink = ⟨r.value, r.cpu, r.bus.uncounted, r.sink⟩ ∧
      ∀ counted ∈ r.bus.peripherals,
        counted.clocks = (cpu.performAll requests (Probe.fresh system) sink).bus.ticks := by
  intro r
  have huncounted := system.uncounted_counted
  have hplain := cpu.performAll_shows SystemBus.shows_uncounted requests system.counted sink
  rw [huncounted] at hplain
  have hbare : r = _ :=
    cpu.performAll_shows Probe.shows_bus requests (Probe.fresh system.counted) sink
  have hprobe := cpu.performAll_shows SystemBus.shows_uncounted.probe requests
    (Probe.fresh system.counted) sink
  have hfresh : (Probe.fresh system.counted).map SystemBus.uncounted = Probe.fresh system :=
    congrArg Probe.fresh huncounted
  rw [hfresh] at hprobe
  refine ⟨hplain, ?_⟩
  have hall := cpu.performAll_keeps SystemBus.keeps_allCount SystemBus.allCount_tick requests
    (Probe.fresh system.counted) sink system.allCount_fresh
  intro counted hmem
  rw [hbare] at hmem
  rw [hprobe]
  exact hall counted hmem

end Cpu

end Nmos6502
