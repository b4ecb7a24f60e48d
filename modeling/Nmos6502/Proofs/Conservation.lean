import Nmos6502.Bus.Tape
import Nmos6502.Proofs.Counted
import Nmos6502.Proofs.Log
import Nmos6502.Proofs.Pairing
import Nmos6502.Proofs.Refusal

/-!
# Conservation of clocks

The processor counts a clock exactly when the bus is clocked.  A retirement bills its cycles when
the instruction is fetched, one of them is paid in that clock and the others wait as pending cycles,
so that what has been billed is what has been clocked and what is pending.  Only a reset, which
clocks the bus on its own account and drops what is pending, moves this balance.
-/

namespace Nmos6502

def totalCost : List (UInt16 × UInt8) → Nat
  | [] => 0
  | retired :: rest => retired.2.toNat + totalCost rest

theorem totalCost_append (first second : List (UInt16 × UInt8)) :
    totalCost (first ++ second) = totalCost first + totalCost second := by
  induction first with
  | nil => simp [totalCost]
  | cons retired rest ih =>
      rw [List.cons_append, totalCost, totalCost, ih]
      omega

/-- The cycles that the retirements among the events report. -/
def bill (events : List Event) : Nat :=
  totalCost (events.filterMap Event.retirement?)

theorem bill_append (first second : List Event) :
    bill (first ++ second) = bill first + bill second := by
  rw [bill, List.filterMap_append, totalCost_append]
  rfl

theorem bill_log (log : Array Event) : bill log.toList = totalCost (retirements log) := rfl

/-! ## Clocks that are counted and clocks that are made -/

namespace Probe

variable {β : Type} [Bus β]

theorem keeps_ticks (n : Nat) : Bus.Keeps fun probe : Probe β => probe.ticks = n where
  read probe address h := by simpa [ticks] using h
  write probe address value h := by simpa [ticks] using h

theorem keeps_ticks_ge (n : Nat) : Bus.Keeps fun probe : Probe β => n ≤ probe.ticks where
  read probe address h := by simpa [ticks] using h
  write probe address value h := by simpa [ticks] using h

@[simp] theorem ticks_tick (probe : Probe β) : (Bus.tick probe).ticks = probe.ticks + 1 := by
  simp [ticks]

theorem ticks_tick_iterate (n : Nat) (probe : Probe β) :
    (Bus.tick^[n] probe).ticks = probe.ticks + n := by
  rcases probe with ⟨bus, seen⟩
  rw [tick_iterate]
  simp [ticks]

end Probe

namespace Traffic

variable {α β σ : Type} [Bus β] [Sink σ]

/-- Where a tree is paired, the count of the processor and that of a probe move together. -/
theorem Paired.run_clock
    {t : Traffic Mark α} {owing : Bool} (ht : t.Paired owing) (clock : UInt64) (probe : Probe β)
    (sink : σ) :
    let o := t.run clock probe sink
    let owed := if owing then 1 else 0
    o.clock - UInt64.ofNat o.bus.ticks = clock - UInt64.ofNat probe.ticks - owed := by
  induction t generalizing owing clock probe sink with
  | done value =>
      obtain rfl : owing = false := ht
      simp [run]
  | read address next ih =>
      rcases ht with ⟨rfl, hnext⟩
      have hticks := (Probe.keeps_ticks probe.ticks).read probe address rfl
      rw [← hticks]
      exact ih _ (hnext _) _ _ _
  | write address value next ih =>
      rcases ht with ⟨rfl, hnext⟩
      have hticks := (Probe.keeps_ticks probe.ticks).write probe address value rfl
      rw [← hticks]
      exact ih hnext _ _ _
  | mark m next ih =>
      cases m with
      | count =>
          rcases ht with ⟨rfl, hnext⟩
          have hrest := ih hnext (clock + 1) probe sink
          simp only [run, if_true, Bool.false_eq_true, if_false] at hrest ⊢
          rw [hrest]
          grind
      | tick =>
          rcases ht with ⟨rfl, hnext⟩
          have hrest := ih hnext clock (Bus.tick probe) sink
          simp only [run, if_true, Bool.false_eq_true, if_false] at hrest ⊢
          rw [hrest, Probe.ticks_tick, UInt64.ofNat_add]
          grind
      | _ =>
          rcases ht with ⟨rfl, hnext⟩
          exact ih hnext _ _ _

theorem run_log (t : Traffic Mark α) (clock : UInt64) (bus : β) (log : Array Event) :
    log.toList <+: (t.run clock bus log).sink.toList := by
  have hpush : ∀ (log : Array Event) e, log.toList <+: (Sink.event log e).toList := by
    intro log e
    change log.toList <+: (log.push e).toList
    rw [Array.toList_push]
    exact List.prefix_append _ _
  induction t generalizing clock bus log with
  | done value => exact List.prefix_rfl
  | read address next ih => exact ih _ _ _ _
  | write address value next ih => exact ih _ _ _
  | mark m next ih =>
      cases m with
      | access direction address data => exact (hpush log _).trans (ih _ _ _)
      | event e => exact (hpush log e).trans (ih _ _ _)
      | _ => exact ih _ _ _

end Traffic

namespace Cpu

variable {β σ : Type} [Bus β] [Sink σ]

theorem performAll_total_eq_ticks
    (cpu : Cpu) (requests : List Request) (probe : Probe β) (sink : σ) :
    let r := cpu.performAll requests probe sink
    r.cpu.totalCycles - UInt64.ofNat r.bus.ticks =
      cpu.totalCycles - UInt64.ofNat probe.ticks := by
  rw [performAll_eq_drive]
  have hpaired := Request.tasks_paired cpu.setup requests cpu.toEngine
  have hclock := hpaired.run_clock cpu.totalCycles probe sink
  simp only [Bool.false_eq_true, if_false, UInt64.sub_zero] at hclock
  exact hclock

theorem performAll_log
    (cpu : Cpu) (requests : List Request) (bus : β) (log : Array Event) :
    log.toList <+: (cpu.performAll requests bus log).sink.toList := by
  rw [performAll_eq_drive]
  exact Traffic.run_log _ cpu.totalCycles bus log

/-! ## What is billed is clocked or pending -/

/-- What has been clocked and what is pending, less what has been billed. -/
def balance (cpu : Cpu) (probe : Probe β) (log : Array Event) : Int :=
  probe.ticks + cpu.pendingCycles.toNat - bill log.toList

theorem step_balance (cpu : Cpu) (probe : Probe β) (log : Array Event) :
    let r := cpu.step probe log
    r.cpu.balance r.bus r.sink = cpu.balance probe log := by
  cases cpu.situation probe with
  | unready hreset =>
      rw [cpu.step_of_not_reset probe log hreset]
  | inFlight hreset hpending =>
      have hpos : 0 < cpu.pendingCycles.toNat :=
        UInt8.lt_iff_toNat_lt.mp (UInt8.pos_iff_ne_zero.mpr hpending)
      rw [cpu.step_of_pending probe log hreset hpending]
      simp only [balance, Probe.ticks_tick, idled_pendingCycles_toNat]
      omega
  | refused hreset hpending hrefusal =>
      have hticks : (cpu.busPastOpcode probe).ticks = probe.ticks :=
        (Probe.keeps_ticks probe.ticks).read probe _ rfl
      have hlog := cpu.retirements_of_refusal probe log hreset hpending hrefusal
      simp only [balance, bill_log, hlog]
      rw [cpu.step_of_refusal probe log hreset hpending hrefusal]
      simp only [hticks]
      rfl
  | @decoded hreset hpending entry mnemonic hdecodes =>
      obtain ⟨cycles, hpos, hlog, hbilled⟩ :=
        cpu.retirements_of_decodes probe log hreset hpending hdecodes
      have hcycles : 0 < cycles.toNat := UInt8.lt_iff_toNat_lt.mp hpos
      have hticks : (cpu.step probe log).bus.ticks = probe.ticks + 1 := by
        have hread : (cpu.busPastOpcode probe).ticks = probe.ticks :=
          (Probe.keeps_ticks probe.ticks).read probe _ rfl
        rw [cpu.step_of_decodes probe log hreset hpending hdecodes]
        simp only [Probe.ticks_tick]
        rw [Core.carriedOut, Traffic.run_traced_keeps (Probe.keeps_ticks probe.ticks) _ _ _ _ hread]
      have hbill : bill (cpu.step probe log).sink.toList = bill log.toList + cycles.toNat := by
        rw [bill_log, hlog, totalCost_append]
        rfl
      simp only [balance, hbill, hbilled, hticks, hpending, Byte.toNat_countdown, UInt8.toNat_zero]
      omega

theorem steps_balance (cpu : Cpu) (n : Nat) (probe : Probe β) (log : Array Event) :
    let r := cpu.steps n probe log
    r.cpu.balance r.bus r.sink = cpu.balance probe log := by
  induction n generalizing cpu probe log with
  | zero => rfl
  | succ n ih =>
      rw [steps_succ]
      exact (ih _ _ _).trans (cpu.step_balance probe log)

theorem execute_balance (cpu : Cpu) (probe : Probe β) (log : Array Event) :
    let r := cpu.execute probe log
    r.cpu.balance r.bus r.sink = cpu.balance probe log := by
  rcases cpu.execute_eq_steps probe log with ⟨n, hcpu, hbus, hsink⟩
  have hsteps := cpu.steps_balance n probe log
  simp only [hcpu, hbus, hsink] at hsteps
  exact hsteps

theorem performAll_balance
    (cpu : Cpu) (requests : List Request) (probe : Probe β) (log : Array Event)
    (hruns : ∀ request ∈ requests, request = .step ∨ request = .execute) :
    let r := cpu.performAll requests probe log
    r.cpu.balance r.bus r.sink = cpu.balance probe log := by
  induction requests generalizing cpu probe log with
  | nil => rfl
  | cons request rest ih =>
      have hfirst : (cpu.perform request probe log).cpu.balance (cpu.perform request probe log).bus
          (cpu.perform request probe log).sink = cpu.balance probe log := by
        rcases hruns request List.mem_cons_self with rfl | rfl
        · rw [perform_step]
          exact cpu.step_balance probe log
        · rw [perform_execute]
          exact cpu.execute_balance probe log
      have hrest := ih (cpu.perform request probe log).cpu (cpu.perform request probe log).bus
        (cpu.perform request probe log).sink fun other hmem =>
          hruns other (List.mem_cons_of_mem _ hmem)
      exact hrest.trans hfirst

/-! ## What resets and refusals contribute -/

theorem reset_ticks (cpu : Cpu) (kind : ResetKind) (probe : Probe β) (sink : σ) :
    let r := cpu.reset kind probe sink
    r.bus.ticks = probe.ticks + 7 ∧ r.cpu.pendingCycles = 0 := by
  refine ⟨?_, rfl⟩
  simp [reset, drive, Engine.reset, Engine.clockedRead, Traffic.fetch, Traffic.embed,
    Traffic.traced, Traffic.note, Traffic.run, Probe.ticks]

theorem step_error_ticks
    (cpu : Cpu) (probe : Probe β) (sink : σ) {fault : Fault}
    (hfault : (cpu.step probe sink).value = .error fault) :
    (cpu.step probe sink).bus.ticks = probe.ticks ∧
      (cpu.step probe sink).cpu.totalCycles = cpu.totalCycles := by
  cases cpu.situation probe with
  | unready hreset =>
      rw [cpu.step_of_not_reset probe sink hreset]
      exact ⟨rfl, rfl⟩
  | inFlight hreset hpending =>
      rw [cpu.step_of_pending probe sink hreset hpending] at hfault
      contradiction
  | refused hreset hpending hrefusal =>
      rw [cpu.step_of_refusal probe sink hreset hpending hrefusal]
      exact ⟨(Probe.keeps_ticks probe.ticks).read probe _ rfl, rfl⟩
  | decoded hreset hpending hdecodes =>
      rw [cpu.step_of_decodes probe sink hreset hpending hdecodes] at hfault
      contradiction

/-- A refused `execute` is as long as the instruction that it has seen out. -/
theorem execute_error_ticks
    (cpu : Cpu) (probe : Probe β) (sink : σ) {fault : Fault}
    (hfault : (cpu.execute probe sink).value = .error fault) :
    let seenOut := if cpu.resetDone then cpu.pendingCycles.toNat else 0
    (cpu.execute probe sink).bus.ticks = probe.ticks + seenOut := by
  by_cases hreset : cpu.resetDone = true
  · have hfetching := (cpu.execute_error_iff probe sink hreset).mp hfault
    rcases cpu.drained.step_error_ticks _ sink hfetching with ⟨hticks, -⟩
    rw [Probe.ticks_tick_iterate] at hticks
    rw [cpu.execute_of_fault probe sink hreset hfetching, if_pos hreset]
    exact hticks
  · rw [cpu.execute_of_not_reset probe sink (Bool.eq_false_iff.mpr hreset), if_neg hreset]
    rfl

/-! ## Whole sessions -/

def watched (cpu : Cpu) (requests : List Request) (bus : β) (sink : σ) :
    Report (List Reply) (Probe β) σ :=
  cpu.performAll requests (Probe.fresh bus) sink

theorem watched_append
    (cpu : Cpu) (before after : List Request) (bus : β) (sink : σ) :
    let s := cpu.watched before bus sink
    let e := s.cpu.performAll after s.bus s.sink
    cpu.watched (before ++ after) bus sink = { e with value := s.value ++ e.value } :=
  cpu.performAll_append before after (Probe.fresh bus) sink

/-- The count of clocks grows by what the probe sees of them, around its end too. -/
theorem watched_totalCycles
    (cpu : Cpu) (requests : List Request) (bus : β) (sink : σ) :
    let r := cpu.watched requests bus sink
    r.cpu.totalCycles = cpu.totalCycles + UInt64.ofNat r.bus.ticks := by
  intro r
  have hclock : r.cpu.totalCycles - UInt64.ofNat r.bus.ticks = cpu.totalCycles - 0 :=
    cpu.performAll_total_eq_ticks requests (Probe.fresh bus) sink
  grind

theorem watched_total
    (cpu : Cpu) (requests : List Request) (bus : β) (sink : σ)
    (hbound : cpu.totalCycles.toNat + (cpu.watched requests bus sink).bus.ticks < UInt64.size) :
    (cpu.watched requests bus sink).cpu.totalCycles.toNat =
      cpu.totalCycles.toNat + (cpu.watched requests bus sink).bus.ticks := by
  have hlt : (cpu.watched requests bus sink).bus.ticks < UInt64.size :=
    Nat.lt_of_le_of_lt (Nat.le_add_left _ _) hbound
  rw [cpu.watched_totalCycles requests bus sink, UInt64.toNat_add, UInt64.toNat_ofNat',
    Nat.mod_eq_of_lt hlt, Nat.mod_eq_of_lt hbound]

theorem watched_ticks_le
    (cpu : Cpu) (before after : List Request) (bus : β) (sink : σ) :
    (cpu.watched before bus sink).bus.ticks ≤
      (cpu.watched (before ++ after) bus sink).bus.ticks := by
  rw [watched_append]
  have htick : ∀ probe : Probe β, (cpu.watched before bus sink).bus.ticks ≤ probe.ticks →
      (cpu.watched before bus sink).bus.ticks ≤ (Bus.tick probe).ticks := by
    intro probe hle
    rw [Probe.ticks_tick]
    exact Nat.le_succ_of_le hle
  exact Cpu.performAll_keeps (Probe.keeps_ticks_ge _) htick _ after _ _ (Nat.le_refl _)

theorem part_total
    (cpu : Cpu) (before part after : List Request) (bus : β) (sink : σ)
    (hbound :
      cpu.totalCycles.toNat + (cpu.watched (before ++ part ++ after) bus sink).bus.ticks <
        UInt64.size) :
    let s := cpu.watched before bus sink
    let e := s.cpu.performAll part s.bus s.sink
    e.cpu.totalCycles.toNat + s.bus.ticks = s.cpu.totalCycles.toNat + e.bus.ticks := by
  intro s e
  have hmid := cpu.watched_ticks_le (before ++ part) after bus sink
  have hstart := cpu.watched_ticks_le before part bus sink
  have hs : s.cpu.totalCycles.toNat = cpu.totalCycles.toNat + s.bus.ticks :=
    cpu.watched_total before bus sink (by omega)
  have hend := cpu.watched_total (before ++ part) bus sink (by omega)
  rw [cpu.watched_append before part bus sink] at hend
  change e.cpu.totalCycles.toNat = _ + e.bus.ticks at hend
  omega

theorem part_bill
    (cpu : Cpu) (before part after : List Request) (bus : β) (log : Array Event)
    (hbound :
      cpu.totalCycles.toNat + (cpu.watched (before ++ part ++ after) bus log).bus.ticks <
        UInt64.size)
    (hruns : ∀ request ∈ part, request = .step ∨ request = .execute) :
    let s := cpu.watched before bus log
    let e := s.cpu.performAll part s.bus s.sink
    ∃ events, e.sink.toList = s.sink.toList ++ events ∧
      e.cpu.totalCycles.toNat + e.cpu.pendingCycles.toNat =
        s.cpu.totalCycles.toNat + s.cpu.pendingCycles.toNat + bill events := by
  intro s e
  rcases s.cpu.performAll_log part s.bus s.sink with ⟨events, hevents⟩
  have hlog : e.sink.toList = s.sink.toList ++ events := hevents.symm
  have htotal : e.cpu.totalCycles.toNat + s.bus.ticks = s.cpu.totalCycles.toNat + e.bus.ticks :=
    cpu.part_total before part after bus log hbound
  have hbalance : (e.bus.ticks : Int) + e.cpu.pendingCycles.toNat - bill e.sink.toList =
      s.bus.ticks + s.cpu.pendingCycles.toNat - bill s.sink.toList :=
    s.cpu.performAll_balance part s.bus s.sink hruns
  rw [hlog, bill_append] at hbalance
  refine ⟨events, hlog, ?_⟩
  omega

/-- Over a whole session, whoever looks on, the count of clocks grows by the clocks of the bus, and
every peripheral of a system is clocked as often.  In it each reset takes seven clocks and leaves
nothing pending, and a refused fetch takes none; and from one reset to the next, what is counted and
pending grows by the cycles of the instructions that retire. -/
theorem clocks_are_conserved
    (cpu : Cpu) (requests : List Request) (bus : β) (log : Array Event)
    (hbound : cpu.totalCycles.toNat + (cpu.watched requests bus log).bus.ticks < UInt64.size) :
    let whole := cpu.watched requests bus log
    cpu.performAll requests bus log = ⟨whole.value, whole.cpu, whole.bus.bus, whole.sink⟩ ∧
    (∀ {τ : Type} [Sink τ] (sink : τ),
      let r := cpu.performAll requests bus sink
      r.value = whole.value ∧ r.cpu = whole.cpu ∧ r.bus = whole.bus.bus) ∧
    whole.cpu.totalCycles.toNat = cpu.totalCycles.toNat + whole.bus.ticks ∧
    (∀ before request after, requests = before ++ [request] ++ after →
      let s := cpu.watched before bus log
      let e := s.cpu.perform request s.bus s.sink
      e.cpu.totalCycles.toNat + s.bus.ticks = s.cpu.totalCycles.toNat + e.bus.ticks ∧
      (∀ kind, request = .reset kind →
        e.bus.ticks = s.bus.ticks + 7 ∧
        e.cpu.totalCycles.toNat = s.cpu.totalCycles.toNat + 7 ∧ e.cpu.pendingCycles = 0) ∧
      (∀ fault, request = .step → e.value = .phase (.error fault) →
        e.bus.ticks = s.bus.ticks ∧ e.cpu.totalCycles = s.cpu.totalCycles) ∧
      (∀ fault, request = .execute → e.value = .clocks (.error fault) →
        e.bus.ticks =
          s.bus.ticks + if s.cpu.resetDone then s.cpu.pendingCycles.toNat else 0)) ∧
    (∀ before part after, requests = before ++ part ++ after →
      (∀ request ∈ part, request = .step ∨ request = .execute) →
      let s := cpu.watched before bus log
      let e := s.cpu.performAll part s.bus s.sink
      ∃ events, e.sink.toList = s.sink.toList ++ events ∧
        e.cpu.totalCycles.toNat + e.cpu.pendingCycles.toNat =
          s.cpu.totalCycles.toNat + s.cpu.pendingCycles.toNat + bill events) ∧
    ∀ {δ : Type} [Peripheral δ] (system : SystemBus δ),
      let r := cpu.performAll requests system.counted log
      cpu.performAll requests system log = ⟨r.value, r.cpu, r.bus.uncounted, r.sink⟩ ∧
      ∀ counted ∈ r.bus.peripherals,
        counted.clocks = (cpu.watched requests system log).bus.ticks ∧
        (cpu.totalCycles.toNat + counted.clocks < UInt64.size →
          r.cpu.totalCycles.toNat = cpu.totalCycles.toNat + counted.clocks) := by
  intro whole
  have hseen : cpu.performAll requests bus log =
      ⟨whole.value, whole.cpu, whole.bus.bus, whole.sink⟩ :=
    cpu.performAll_shows Probe.shows_bus requests (Probe.fresh bus) log
  refine ⟨hseen, ?_, cpu.watched_total requests bus log hbound, ?_, ?_, ?_⟩
  · intro τ _ sink
    have hsame := cpu.performAll_any_sink requests bus sink log
    rw [hseen] at hsame
    exact hsame
  · rintro before request after rfl s e
    have htotal : e.cpu.totalCycles.toNat + s.bus.ticks =
        s.cpu.totalCycles.toNat + e.bus.ticks :=
      cpu.part_total before [request] after bus log hbound
    refine ⟨htotal, ?_, ?_, ?_⟩
    · rintro kind rfl
      have he : e = _ := s.cpu.perform_reset kind s.bus s.sink
      have hticks : e.bus.ticks = s.bus.ticks + 7 := by
        rw [he]
        exact (s.cpu.reset_ticks kind s.bus s.sink).1
      have hpending : e.cpu.pendingCycles = 0 := by
        rw [he]
        exact (s.cpu.reset_ticks kind s.bus s.sink).2
      exact ⟨hticks, by omega, hpending⟩
    · rintro fault rfl hfault
      have he : e = _ := s.cpu.perform_step s.bus s.sink
      rw [he] at hfault ⊢
      exact s.cpu.step_error_ticks s.bus s.sink (Reply.phase.inj hfault)
    · rintro fault rfl hfault
      have he : e = _ := s.cpu.perform_execute s.bus s.sink
      rw [he] at hfault ⊢
      exact s.cpu.execute_error_ticks s.bus s.sink (Reply.clocks.inj hfault)
  · rintro before part after rfl hruns
    exact cpu.part_bill before part after bus log hbound hruns
  · intro δ _ system r
    rcases cpu.performAll_counted requests system log with ⟨hplain, hcount⟩
    refine ⟨hplain, fun counted hmem => ⟨hcount counted hmem, fun hfits => ?_⟩⟩
    have hclocks : counted.clocks = (cpu.watched requests system log).bus.ticks :=
      hcount counted hmem
    rw [hclocks] at hfits ⊢
    have htotal := cpu.watched_total requests system log hfits
    have hseen := cpu.performAll_shows Probe.shows_bus requests (Probe.fresh system) log
    have hsame : r.cpu = (cpu.watched requests system log).cpu :=
      congrArg Report.cpu (hplain.symm.trans hseen)
    rw [hsame]
    exact htotal

/-- A step, a reset in the middle of its instruction, and a whole instruction. -/
def resetMidway : List Request := [.step, .reset .deterministic, .execute]

def resetMidwayTape : Tape := ⟨[0xEA, 0, 0, 0, 0, 0, 0x00, 0x04, 0xEA]⟩

theorem clocks_of_resetMidway :
    let whole :=
      (readyAt 0x400 .documented).watched resetMidway resetMidwayTape (#[] : Array Event)
    whole.bus.ticks = 10 ∧ whole.cpu.totalCycles.toNat = 10 := by
  have hticks :
      ((readyAt 0x400 .documented).watched resetMidway resetMidwayTape
        (#[] : Array Event)).bus.ticks = 10 := by decide +kernel
  obtain ⟨-, -, htotal, -⟩ :=
    (readyAt 0x400 .documented).clocks_are_conserved resetMidway resetMidwayTape #[] (by
      rw [hticks]
      decide)
  rw [hticks] at htotal
  exact ⟨hticks, htotal⟩

end Cpu

end Nmos6502
