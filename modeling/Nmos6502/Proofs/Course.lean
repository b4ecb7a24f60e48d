import Nmos6502.Cpu.Session
import Nmos6502.Proofs.Step

/-!
# Courses of steps

Requests are carried out one after the other, and `Cpu.steps` asks for nothing but clocks.  As long
as an instruction is in flight a step only lets time pass.  What fetches after that is the one step
that makes a difference, and as many steps as it leaves pending see its instruction out.
-/

namespace Nmos6502

theorem Byte.toNat_countdown (a : UInt8) : (Byte.countdown a).toNat = a.toNat - 1 := by
  by_cases hzero : a = 0
  · simp [countdown, hzero]
  · have hpos : 0 < a.toNat := UInt8.lt_iff_toNat_lt.mp (UInt8.pos_iff_ne_zero.mpr hzero)
    rw [countdown, if_neg hzero]
    exact UInt8.toNat_sub_of_le a 1 (UInt8.le_iff_toNat_le.mpr hpos)

namespace Traffic

variable {α γ β σ : Type} [Bus β] [Sink σ]

theorem run_map (f : α → γ) (t : Traffic Mark α) (clock : UInt64) (bus : β) (sink : σ) :
    (f <$> t).run clock bus sink =
      let o := t.run clock bus sink
      ⟨f o.value, o.clock, o.bus, o.sink⟩ := by
  rw [map_eq_pure_bind, run_bind]
  rfl

end Traffic

namespace Cpu

variable {β σ : Type} [Bus β] [Sink σ]

theorem perform_reset (cpu : Cpu) (kind : ResetKind) (bus : β) (sink : σ) :
    cpu.perform (.reset kind) bus sink =
      let r := cpu.reset kind bus sink
      ⟨.done, r.cpu, r.bus, r.sink⟩ := by
  simp only [perform, drive, Request.task, Traffic.run_map]
  rfl

theorem perform_step (cpu : Cpu) (bus : β) (sink : σ) :
    cpu.perform .step bus sink =
      let r := cpu.step bus sink
      ⟨.phase r.value, r.cpu, r.bus, r.sink⟩ := by
  simp only [perform, drive, Request.task, Traffic.run_map]
  rfl

theorem perform_execute (cpu : Cpu) (bus : β) (sink : σ) :
    cpu.perform .execute bus sink =
      let r := cpu.execute bus sink
      ⟨.clocks r.value, r.cpu, r.bus, r.sink⟩ := by
  simp only [perform, drive, Request.task, Traffic.run_map]
  rfl

theorem performAll_append
    (cpu : Cpu) (first second : List Request) (bus : β) (sink : σ) :
    cpu.performAll (first ++ second) bus sink =
      let a := cpu.performAll first bus sink
      let b := a.cpu.performAll second a.bus a.sink
      ⟨a.value ++ b.value, b.cpu, b.bus, b.sink⟩ := by
  induction first generalizing cpu bus sink with
  | nil => rfl
  | cons request rest ih =>
      simp only [List.cons_append, performAll]
      rw [ih]

theorem performAll_unobserved (cpu : Cpu) (requests : List Request) (bus : β) (sink : σ) :
    cpu.performAll requests bus () =
      let r := cpu.performAll requests bus sink
      ⟨r.value, r.cpu, r.bus, ()⟩ := by
  simp only [performAll_eq_drive]
  exact cpu.drive_unobserved (Request.tasks cpu.setup requests) bus sink

/-- Who looks on makes no difference to a session. -/
theorem performAll_any_sink
    {τ : Type} [Sink τ] (cpu : Cpu) (requests : List Request) (bus : β) (sink : σ) (other : τ) :
    let r := cpu.performAll requests bus sink
    let s := cpu.performAll requests bus other
    r.value = s.value ∧ r.cpu = s.cpu ∧ r.bus = s.bus := by
  have hsink := cpu.performAll_unobserved requests bus sink
  have hother := cpu.performAll_unobserved requests bus other
  have hsame := hsink.symm.trans hother
  simp only [Report.mk.injEq, and_true] at hsame
  exact hsame

def steps (cpu : Cpu) (n : Nat) (bus : β) (sink : σ) : Report (List Reply) β σ :=
  cpu.performAll (List.replicate n .step) bus sink

theorem steps_zero (cpu : Cpu) (bus : β) (sink : σ) :
    cpu.steps 0 bus sink = ⟨[], cpu, bus, sink⟩ := rfl

theorem steps_succ (cpu : Cpu) (n : Nat) (bus : β) (sink : σ) :
    cpu.steps (n + 1) bus sink =
      let s := cpu.step bus sink
      let r := s.cpu.steps n s.bus s.sink
      ⟨.phase s.value :: r.value, r.cpu, r.bus, r.sink⟩ := by
  simp only [steps, List.replicate_succ, performAll, perform_step]

theorem steps_add (cpu : Cpu) (m n : Nat) (bus : β) (sink : σ) :
    cpu.steps (m + n) bus sink =
      let a := cpu.steps m bus sink
      let b := a.cpu.steps n a.bus a.sink
      ⟨a.value ++ b.value, b.cpu, b.bus, b.sink⟩ := by
  unfold steps
  rw [← List.replicate_append_replicate, performAll_append]

/-! ## Letting time pass -/

/-- The processor after `n` clocks in which only time has passed. -/
def idledBy (cpu : Cpu) (n : Nat) : Cpu :=
  { cpu with
    pendingCycles := cpu.pendingCycles - UInt8.ofNat n
    totalCycles := cpu.totalCycles + UInt64.ofNat n }

def idleReplies (n : Nat) : List Reply := List.replicate n (.phase (.ok .idle))

theorem idledBy_zero (cpu : Cpu) : cpu.idledBy 0 = cpu := by
  simp [idledBy]

theorem idledBy_succ (cpu : Cpu) (n : Nat) (hpending : cpu.pendingCycles ≠ 0) :
    cpu.idled.idledBy n = cpu.idledBy (n + 1) := by
  have hcountdown : Byte.countdown cpu.pendingCycles - UInt8.ofNat n =
      cpu.pendingCycles - UInt8.ofNat (n + 1) := by
    rw [Byte.countdown, if_neg hpending, UInt8.ofNat_add]
    grind
  have htotal : cpu.totalCycles + 1 + UInt64.ofNat n = cpu.totalCycles + UInt64.ofNat (n + 1) := by
    rw [UInt64.ofNat_add]
    grind
  simp only [idledBy, idled, hcountdown, htotal]

theorem idled_pendingCycles_toNat (cpu : Cpu) :
    cpu.idled.pendingCycles.toNat = cpu.pendingCycles.toNat - 1 :=
  Byte.toNat_countdown cpu.pendingCycles

theorem pendingCycles_ne_zero
    (cpu : Cpu) {n : Nat} (hn : n + 1 ≤ cpu.pendingCycles.toNat) : cpu.pendingCycles ≠ 0 := by
  intro hzero
  rw [hzero] at hn
  contradiction

theorem toNat_pendingCycles_idledBy
    (cpu : Cpu) {n : Nat} (hn : n ≤ cpu.pendingCycles.toNat) :
    (cpu.idledBy n).pendingCycles.toNat = cpu.pendingCycles.toNat - n := by
  have hlt : n < 2 ^ 8 := Nat.lt_of_le_of_lt hn cpu.pendingCycles.toNat_lt
  have hnat : (UInt8.ofNat n).toNat = n := by
    rw [UInt8.toNat_ofNat', Nat.mod_eq_of_lt hlt]
  have hle : UInt8.ofNat n ≤ cpu.pendingCycles := by
    apply UInt8.le_iff_toNat_le.mpr
    rw [hnat]
    exact hn
  change (cpu.pendingCycles - UInt8.ofNat n).toNat = _
  rw [UInt8.toNat_sub_of_le _ _ hle, hnat]

theorem steps_of_idle
    (cpu : Cpu) (n : Nat) (bus : β) (sink : σ)
    (hreset : cpu.resetDone = true) (hn : n ≤ cpu.pendingCycles.toNat) :
    cpu.steps n bus sink = ⟨idleReplies n, cpu.idledBy n, Bus.tick^[n] bus, sink⟩ := by
  induction n generalizing cpu bus with
  | zero =>
      rw [steps_zero, idledBy_zero]
      rfl
  | succ n ih =>
      have hpending := cpu.pendingCycles_ne_zero hn
      have hrest : n ≤ cpu.idled.pendingCycles.toNat := by
        rw [idled_pendingCycles_toNat]
        omega
      rw [steps_succ, cpu.step_of_pending bus sink hreset hpending]
      simp only
      rw [ih cpu.idled (Bus.tick bus) hreset hrest, cpu.idledBy_succ n hpending]
      rfl

/-! ## Past the instruction in flight -/

/-- The processor after the clocks of the instruction in flight. -/
def drained (cpu : Cpu) : Cpu :=
  { cpu with
    pendingCycles := 0
    totalCycles := cpu.totalCycles + UInt64.ofNat cpu.pendingCycles.toNat }

theorem idledBy_pendingCycles (cpu : Cpu) : cpu.idledBy cpu.pendingCycles.toNat = cpu.drained := by
  simp [idledBy, drained]

theorem drained_of_pendingCycles_zero (cpu : Cpu) (hpending : cpu.pendingCycles = 0) :
    cpu.drained = cpu := by
  rw [← idledBy_pendingCycles, hpending]
  exact cpu.idledBy_zero

theorem steps_drain
    (cpu : Cpu) (bus : β) (sink : σ) (hreset : cpu.resetDone = true) :
    cpu.steps cpu.pendingCycles.toNat bus sink =
      ⟨idleReplies cpu.pendingCycles.toNat, cpu.drained, Bus.tick^[cpu.pendingCycles.toNat] bus,
        sink⟩ := by
  rw [cpu.steps_of_idle _ bus sink hreset (Nat.le_refl _), idledBy_pendingCycles]

def fetchingStep (cpu : Cpu) (bus : β) (sink : σ) : Report (Except Fault Phase) β σ :=
  cpu.drained.step (Bus.tick^[cpu.pendingCycles.toNat] bus) sink

theorem fetchingStep_resetDone
    (cpu : Cpu) (bus : β) (sink : σ) (hreset : cpu.resetDone = true) :
    (cpu.fetchingStep bus sink).cpu.resetDone = true :=
  (cpu.drained.step_resetDone_setup _ sink).1.trans hreset

/-- As many steps as `execute` takes clocks see the instruction in flight out, fetch once, and see
the fetched instruction out as far as they go. -/
theorem steps_past_fetching
    (cpu : Cpu) (n : Nat) (bus : β) (sink : σ) (hreset : cpu.resetDone = true)
    (hn : n ≤ (cpu.fetchingStep bus sink).cpu.pendingCycles.toNat) :
    cpu.steps (cpu.pendingCycles.toNat + (n + 1)) bus sink =
      let s := cpu.fetchingStep bus sink
      ⟨idleReplies cpu.pendingCycles.toNat ++ .phase s.value :: idleReplies n, s.cpu.idledBy n,
        Bus.tick^[n] s.bus, s.sink⟩ := by
  have hafter := (cpu.fetchingStep bus sink).cpu.steps_of_idle n
    (cpu.fetchingStep bus sink).bus (cpu.fetchingStep bus sink).sink
    (cpu.fetchingStep_resetDone bus sink hreset) hn
  have hfetching :
      cpu.drained.steps (n + 1) (Bus.tick^[cpu.pendingCycles.toNat] bus) sink =
        let s := cpu.fetchingStep bus sink
        ⟨.phase s.value :: idleReplies n, s.cpu.idledBy n, Bus.tick^[n] s.bus, s.sink⟩ := by
    unfold fetchingStep at hafter ⊢
    simp only [steps_succ, hafter]
  simp only [steps_add, cpu.steps_drain bus sink hreset, hfetching]

end Cpu

end Nmos6502
