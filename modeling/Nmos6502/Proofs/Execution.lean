import Nmos6502.Proofs.Course

/-!
# The loop of whole instructions

`Cpu.execute` takes steps until one of them has fetched and nothing is pending any more.  The loop
remembers whether it has fetched, since nothing is pending before the fetch as well as after the
last clock, and the program counter may end where it began.  It comes to the clocks of the
instruction in flight, the step that fetches, and the clocks that this step leaves pending.
-/

namespace Nmos6502

namespace Cpu

variable {β σ : Type} [Bus β] [Sink σ]

/-- One more round of the loop. -/
theorem untilRetired_succ
    (cpu : Cpu) (bus : β) (sink : σ) (fetched : Bool) (clocks fuel : Nat) :
    cpu.untilRetired bus sink fetched clocks (fuel + 1) =
      let s := cpu.step bus sink
      match s.value with
      | .error fault => some ⟨.error fault, s.cpu, s.bus, s.sink⟩
      | .ok phase =>
        let fetched := fetched || phase == .fetch
        if fetched && s.cpu.pendingCycles == 0 then
          some ⟨.ok (clocks + 1), s.cpu, s.bus, s.sink⟩
        else s.cpu.untilRetired s.bus s.sink fetched (clocks + 1) fuel := by
  have hround : Engine.untilRetired cpu.setup fetched clocks (fuel + 1) cpu.toEngine =
      Engine.step cpu.setup cpu.toEngine >>= fun s =>
        match s.1 with
        | .error fault => pure (some (.error fault), s.2)
        | .ok phase =>
          let fetched := fetched || phase == .fetch
          if fetched && s.2.pendingCycles == 0 then pure (some (.ok (clocks + 1)), s.2)
          else Engine.untilRetired cpu.setup fetched (clocks + 1) fuel s.2 := rfl
  unfold untilRetired step drive
  rw [hround, Traffic.run_bind]
  generalize (Engine.step cpu.setup cpu.toEngine).run cpu.totalCycles bus sink = o
  rcases o with ⟨⟨result, e⟩, clock, bus', sink'⟩
  cases result with
  | error fault => rfl
  | ok phase =>
      simp only
      split <;> rfl

theorem untilRetired_succ_of_pending
    (cpu : Cpu) (bus : β) (sink : σ) (fetched : Bool) (clocks fuel : Nat)
    (hreset : cpu.resetDone = true) (hpending : cpu.pendingCycles ≠ 0) :
    cpu.untilRetired bus sink fetched clocks (fuel + 1) =
      if fetched && cpu.idled.pendingCycles == 0 then
        some ⟨.ok (clocks + 1), cpu.idled, Bus.tick bus, sink⟩
      else cpu.idled.untilRetired (Bus.tick bus) sink fetched (clocks + 1) fuel := by
  have hidle : (Phase.idle == .fetch) = false := rfl
  rw [untilRetired_succ]
  simp only [cpu.step_of_pending bus sink hreset hpending, hidle, Bool.or_false]

theorem untilRetired_idle
    (cpu : Cpu) (bus : β) (sink : σ) (clocks n fuel : Nat) (hreset : cpu.resetDone = true)
    (hn : n ≤ cpu.pendingCycles.toNat) :
    cpu.untilRetired bus sink false clocks (n + fuel) =
      (cpu.idledBy n).untilRetired (Bus.tick^[n] bus) sink false (clocks + n) fuel := by
  induction n generalizing cpu bus clocks with
  | zero => simp [idledBy_zero]
  | succ n ih =>
      have hpending := cpu.pendingCycles_ne_zero hn
      have hrest : n ≤ cpu.idled.pendingCycles.toNat := by
        rw [idled_pendingCycles_toNat]
        omega
      have hfuel : n + 1 + fuel = n + fuel + 1 := by omega
      have hclocks : clocks + 1 + n = clocks + (n + 1) := by omega
      rw [hfuel, cpu.untilRetired_succ_of_pending bus sink false clocks _ hreset hpending,
        Bool.false_and, if_neg Bool.false_ne_true,
        ih cpu.idled (Bus.tick bus) (clocks + 1) hreset hrest, cpu.idledBy_succ n hpending, hclocks]
      rfl

theorem untilRetired_fetched
    (cpu : Cpu) (bus : β) (sink : σ) (clocks n fuel : Nat) (hreset : cpu.resetDone = true)
    (hn : cpu.pendingCycles.toNat = n + 1) :
    cpu.untilRetired bus sink true clocks (n + 1 + fuel) =
      some ⟨.ok (clocks + (n + 1)), cpu.idledBy (n + 1), Bus.tick^[n + 1] bus, sink⟩ := by
  induction n generalizing cpu bus clocks with
  | zero =>
      have hpending := cpu.pendingCycles_ne_zero (Nat.le_of_eq hn.symm)
      have hidled : cpu.idled.pendingCycles.toNat = 0 := by
        rw [idled_pendingCycles_toNat, hn]
      have hdone : cpu.idled.pendingCycles = 0 := UInt8.toNat_inj.mp hidled
      rw [Nat.zero_add, Nat.add_comm,
        cpu.untilRetired_succ_of_pending bus sink true clocks fuel hreset hpending, hdone,
        ← cpu.idledBy_succ 0 hpending, idledBy_zero]
      rfl
  | succ n ih =>
      have hpending := cpu.pendingCycles_ne_zero (Nat.le_of_eq hn.symm)
      have hidled : cpu.idled.pendingCycles.toNat = n + 1 := by
        rw [idled_pendingCycles_toNat, hn]
        rfl
      have hmore : (cpu.idled.pendingCycles == 0) = false := by
        apply beq_false_of_ne
        exact cpu.idled.pendingCycles_ne_zero (Nat.le_of_eq hidled.symm)
      have hfuel : n + 1 + 1 + fuel = n + 1 + fuel + 1 := by omega
      have hclocks : clocks + 1 + (n + 1) = clocks + (n + 1 + 1) := by omega
      rw [hfuel, cpu.untilRetired_succ_of_pending bus sink true clocks _ hreset hpending, hmore,
        Bool.and_false, if_neg Bool.false_ne_true,
        ih cpu.idled (Bus.tick bus) (clocks + 1) hreset hidled, cpu.idledBy_succ (n + 1) hpending,
        hclocks]
      rfl

/-- What the loop comes to, if `s` is the step that fetches and `waited` steps came before it. -/
def retired (s : Report (Except Fault Phase) β σ) (waited : Nat) :
    Report (Except Fault Nat) β σ :=
  match s.value with
  | .error fault => ⟨.error fault, s.cpu, s.bus, s.sink⟩
  | .ok _ =>
    ⟨.ok (waited + 1 + s.cpu.pendingCycles.toNat), s.cpu.drained,
      Bus.tick^[s.cpu.pendingCycles.toNat] s.bus, s.sink⟩

theorem untilRetired_fetching
    (cpu : Cpu) (bus : β) (sink : σ) (spare : Nat) (hreset : cpu.resetDone = true) :
    cpu.drained.untilRetired (Bus.tick^[cpu.pendingCycles.toNat] bus) sink false
        cpu.pendingCycles.toNat (255 + spare + 1) =
      some (retired (cpu.fetchingStep bus sink) cpu.pendingCycles.toNat) := by
  rw [untilRetired_succ, ← fetchingStep]
  cases hvalue : (cpu.fetchingStep bus sink).value with
  | error fault => simp only [retired, hvalue]
  | ok phase =>
      obtain rfl : phase = .fetch := cpu.drained.phase_eq_fetch _ sink rfl hvalue
      have hfetched := cpu.fetchingStep_resetDone bus sink hreset
      simp only [retired, hvalue]
      generalize cpu.fetchingStep bus sink = s at hfetched
      simp only [beq_self_eq_true, Bool.or_true, Bool.true_and, beq_iff_eq]
      by_cases hdone : s.cpu.pendingCycles = 0
      · rw [if_pos hdone, s.cpu.drained_of_pendingCycles_zero hdone, hdone]
        rfl
      · rw [if_neg hdone]
        have hpos : 0 < s.cpu.pendingCycles.toNat :=
          UInt8.lt_iff_toNat_lt.mp (UInt8.pos_iff_ne_zero.mpr hdone)
        have hlt := s.cpu.pendingCycles.toNat_lt
        obtain ⟨n, hn⟩ : ∃ n, s.cpu.pendingCycles.toNat = n + 1 :=
          ⟨s.cpu.pendingCycles.toNat - 1, by omega⟩
        obtain ⟨rest, hrest⟩ : ∃ rest, 255 + spare = n + 1 + rest :=
          ⟨255 + spare - (n + 1), by omega⟩
        rw [hrest, s.cpu.untilRetired_fetched s.bus s.sink _ n rest hfetched hn, ← hn,
          idledBy_pendingCycles]

/-- The loop ends within the clocks of two instructions. -/
theorem untilRetired_eq
    (cpu : Cpu) (bus : β) (sink : σ) (hreset : cpu.resetDone = true) {fuel : Nat}
    (hfuel : cpu.pendingCycles.toNat + 256 ≤ fuel) :
    cpu.untilRetired bus sink false 0 fuel =
      some (retired (cpu.fetchingStep bus sink) cpu.pendingCycles.toNat) := by
  obtain ⟨spare, rfl⟩ : ∃ spare, fuel = cpu.pendingCycles.toNat + (255 + spare + 1) :=
    ⟨fuel - cpu.pendingCycles.toNat - 256, by omega⟩
  rw [cpu.untilRetired_idle bus sink 0 _ _ hreset (Nat.le_refl _), idledBy_pendingCycles,
    Nat.zero_add]
  exact cpu.untilRetired_fetching bus sink spare hreset

theorem untilRetired_of_not_reset
    (cpu : Cpu) (bus : β) (sink : σ) (fuel : Nat) (hreset : cpu.resetDone = false) :
    cpu.untilRetired bus sink false 0 (fuel + 1) =
      some ⟨.error .resetRequired, cpu, bus, sink⟩ := by
  rw [untilRetired_succ, cpu.step_of_not_reset bus sink hreset]

/-! ## One whole instruction -/

theorem execute_of_untilRetired
    (cpu : Cpu) (bus : β) (sink : σ) {x : Report (Except Fault Nat) β σ}
    (hloop : cpu.untilRetired bus sink false 0 (cpu.pendingCycles.toNat + 256) = some x) :
    cpu.execute bus sink = x := by
  simp only [untilRetired, drive, Option.map_eq_some_iff] at hloop
  rcases hloop with ⟨result, hresult, rfl⟩
  simp only [execute, drive, Engine.execute, Traffic.run_bind, hresult]
  rfl

theorem execute_of_not_reset
    (cpu : Cpu) (bus : β) (sink : σ) (hreset : cpu.resetDone = false) :
    cpu.execute bus sink = ⟨.error .resetRequired, cpu, bus, sink⟩ :=
  cpu.execute_of_untilRetired bus sink (cpu.untilRetired_of_not_reset bus sink _ hreset)

theorem execute_eq
    (cpu : Cpu) (bus : β) (sink : σ) (hreset : cpu.resetDone = true) :
    cpu.execute bus sink = retired (cpu.fetchingStep bus sink) cpu.pendingCycles.toNat :=
  cpu.execute_of_untilRetired bus sink (cpu.untilRetired_eq bus sink hreset (Nat.le_refl _))

/-- More fuel than `execute` gives to the loop makes no difference. -/
theorem untilRetired_eq_execute
    (cpu : Cpu) (bus : β) (sink : σ) {fuel : Nat}
    (hfuel : cpu.pendingCycles.toNat + 256 ≤ fuel) :
    cpu.untilRetired bus sink false 0 fuel = some (cpu.execute bus sink) := by
  by_cases hreset : cpu.resetDone = true
  · rw [cpu.untilRetired_eq bus sink hreset hfuel, cpu.execute_eq bus sink hreset]
  · have hunready := Bool.eq_false_iff.mpr hreset
    obtain ⟨more, rfl⟩ : ∃ more, fuel = more + 1 := ⟨fuel - 1, by omega⟩
    rw [cpu.untilRetired_of_not_reset bus sink more hunready,
      cpu.execute_of_not_reset bus sink hunready]

theorem execute_of_fault
    (cpu : Cpu) (bus : β) (sink : σ) (hreset : cpu.resetDone = true) {fault : Fault}
    (hfault : (cpu.fetchingStep bus sink).value = .error fault) :
    let s := cpu.fetchingStep bus sink
    cpu.execute bus sink = ⟨.error fault, s.cpu, s.bus, s.sink⟩ := by
  rw [cpu.execute_eq bus sink hreset]
  simp only [retired, hfault]

theorem execute_of_fetch
    (cpu : Cpu) (bus : β) (sink : σ) (hreset : cpu.resetDone = true) {phase : Phase}
    (hfetch : (cpu.fetchingStep bus sink).value = .ok phase) :
    let s := cpu.fetchingStep bus sink
    cpu.execute bus sink =
      ⟨.ok (cpu.pendingCycles.toNat + 1 + s.cpu.pendingCycles.toNat), s.cpu.drained,
        Bus.tick^[s.cpu.pendingCycles.toNat] s.bus, s.sink⟩ := by
  rw [cpu.execute_eq bus sink hreset]
  simp only [retired, hfetch]

theorem execute_sink (cpu : Cpu) (bus : β) (sink : σ) (hreset : cpu.resetDone = true) :
    (cpu.execute bus sink).sink = (cpu.fetchingStep bus sink).sink := by
  rw [cpu.execute_eq bus sink hreset]
  cases hvalue : (cpu.fetchingStep bus sink).value with
  | error fault => simp only [retired, hvalue]
  | ok phase => simp only [retired, hvalue]

theorem steps_of_fetch
    (cpu : Cpu) (bus : β) (sink : σ) (hreset : cpu.resetDone = true) {phase : Phase}
    (hfetch : (cpu.fetchingStep bus sink).value = .ok phase) :
    let x := cpu.execute bus sink
    let later := (cpu.fetchingStep bus sink).cpu.pendingCycles.toNat
    cpu.steps (cpu.pendingCycles.toNat + (later + 1)) bus sink =
      ⟨idleReplies cpu.pendingCycles.toNat ++ .phase (.ok phase) :: idleReplies later, x.cpu, x.bus,
        x.sink⟩ := by
  intro x later
  have hx : x = _ := cpu.execute_of_fetch bus sink hreset hfetch
  rw [cpu.steps_past_fetching later bus sink hreset (Nat.le_refl _), hx]
  simp only [hfetch, later, idledBy_pendingCycles]

theorem execute_eq_steps (cpu : Cpu) (bus : β) (sink : σ) :
    ∃ n, let s := cpu.steps n bus sink
      let x := cpu.execute bus sink
      s.cpu = x.cpu ∧ s.bus = x.bus ∧ s.sink = x.sink := by
  by_cases hreset : cpu.resetDone = true
  · cases hvalue : (cpu.fetchingStep bus sink).value with
    | error fault =>
        have hsteps := cpu.steps_past_fetching 0 bus sink hreset (Nat.zero_le _)
        simp only [idledBy_zero] at hsteps
        refine ⟨cpu.pendingCycles.toNat + (0 + 1), ?_⟩
        rw [hsteps, cpu.execute_of_fault bus sink hreset hvalue]
        exact ⟨rfl, rfl, rfl⟩
    | ok phase =>
        have hsteps := cpu.steps_of_fetch bus sink hreset hvalue
        let later := (cpu.fetchingStep bus sink).cpu.pendingCycles.toNat
        refine ⟨cpu.pendingCycles.toNat + (later + 1), ?_⟩
        rw [hsteps]
        exact ⟨rfl, rfl, rfl⟩
  · refine ⟨0, ?_⟩
    rw [cpu.execute_of_not_reset bus sink (Bool.eq_false_iff.mpr hreset)]
    exact ⟨rfl, rfl, rfl⟩

end Cpu

end Nmos6502
