import Nmos6502.Proofs.Conservation
import Nmos6502.Proofs.Transfers

/-!
# Watched sessions

What a probe sees of a session, and what is logged of it, is put together from what its parts show:
the calls of the first requests come first, and the rest goes on where they have left the processor
and the bus.  Over plain memory the transfers that the probe sees account for the memory that is
left.
-/

namespace Nmos6502

namespace Cpu

variable {β : Type} [Bus β]

theorem performAll_cons_log
    (cpu : Cpu) (request : Request) (rest : List Request) (bus : β) :
    let r := cpu.perform request bus ()
    (cpu.performAll (request :: rest) bus (#[] : Array Event)).sink.toList =
      (cpu.perform request bus (#[] : Array Event)).sink.toList ++
        (r.cpu.performAll rest r.bus (#[] : Array Event)).sink.toList := by
  intro r
  have hr : r = _ := cpu.drive_unobserved (request.task cpu.setup) bus (#[] : Array Event)
  rw [hr]
  simp only [performAll, performAll_eq_drive]
  exact drive_log _ _ _ _

theorem performAll_probe
    {σ : Type} [Sink σ] (cpu : Cpu) (requests : List Request) (bus : β) (seen : List BusCall)
    (sink : σ) :
    cpu.performAll requests (⟨bus, seen⟩ : Probe β) sink =
      let r := cpu.performAll requests bus sink
      let calls := (cpu.performAll requests (Probe.fresh bus) sink).bus.calls
      ⟨r.value, r.cpu, ⟨r.bus, seen ++ calls⟩, r.sink⟩ := by
  simp only [performAll_eq_drive]
  exact cpu.drive_probe (Request.tasks cpu.setup requests) bus seen sink

theorem watched_append_calls
    (cpu : Cpu) (before after : List Request) (bus : β) :
    let r := cpu.performAll before bus ()
    (cpu.watched (before ++ after) bus ()).bus.calls =
      (cpu.watched before bus ()).bus.calls ++ (r.cpu.watched after r.bus ()).bus.calls := by
  intro r
  let first := (cpu.watched before bus ()).bus.calls
  have hfirst : cpu.watched before bus () = ⟨r.value, r.cpu, ⟨r.bus, first⟩, r.sink⟩ :=
    cpu.performAll_probe before bus [] ()
  rw [watched_append, hfirst]
  simp only [performAll_probe]
  rfl

theorem watched_cons_calls
    (cpu : Cpu) (request : Request) (rest : List Request) (bus : β) :
    let r := cpu.perform request bus ()
    (cpu.watched (request :: rest) bus ()).bus.calls =
      (cpu.perform request (Probe.fresh bus) ()).bus.calls ++
        (r.cpu.watched rest r.bus ()).bus.calls :=
  cpu.watched_append_calls [request] rest bus

theorem performAll_total
    {σ : Type} [Sink σ] (cpu : Cpu) (requests : List Request) (bus : β) (sink : σ) :
    (cpu.performAll requests bus sink).cpu.totalCycles =
      cpu.totalCycles + UInt64.ofNat (cpu.watched requests bus sink).bus.ticks := by
  have hprobe : (cpu.watched requests bus sink).cpu = (cpu.performAll requests bus sink).cpu :=
    congrArg Report.cpu (cpu.performAll_probe requests bus [] sink)
  rw [← hprobe]
  exact cpu.watched_totalCycles requests bus sink

theorem perform_total
    (cpu : Cpu) (request : Request) (bus : β) :
    (cpu.perform request bus ()).cpu.totalCycles =
      cpu.totalCycles +
        UInt64.ofNat (cpu.perform request (Probe.fresh bus) ()).bus.ticks :=
  cpu.performAll_total [request] bus ()

theorem watched_calls (cpu : Cpu) (requests : List Request) (bus : β) :
    (cpu.watched requests bus ()).bus.calls =
      (Request.tasks cpu.setup requests cpu.toEngine).calls bus := by
  have hprobe := (Request.tasks cpu.setup requests cpu.toEngine).run_probe cpu.totalCycles bus [] ()
  simp only [watched, performAll_eq_drive, drive, Probe.fresh, hprobe, List.nil_append]

theorem follows_performAll
    {σ : Type} [Sink σ] (cpu : Cpu) (requests : List Request) (memory : Memory) (sink : σ) :
    memory.Follows (transfers (cpu.watched requests memory ()).bus.calls)
      (cpu.performAll requests memory sink).bus := by
  rw [watched_calls, performAll_eq_drive]
  exact Traffic.follows_run _ cpu.totalCycles memory sink

end Cpu

end Nmos6502
