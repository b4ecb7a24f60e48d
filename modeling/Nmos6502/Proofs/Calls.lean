import Mathlib.Logic.Function.Iterate
import Nmos6502.Bus.Probe
import Nmos6502.Cpu.Session
import Nmos6502.Proofs.Play

/-!
# The calls of a play

`Traffic.calls` lists the calls that a tree makes on a bus, in order.  A probe in front of the bus
writes down exactly these and changes nothing else, so that what is proved of the calls of a tree
can be read off a probed run of the processor.  A whole session is one tree as well, so that what
holds of every tree need not be proved again for sessions.
-/

namespace Nmos6502

namespace Traffic

variable {α β γ σ : Type} [Bus β] [Sink σ]

def calls : Traffic Mark α → β → List BusCall
  | done _, _ => []
  | read address next, bus =>
    let (byte, bus) := Bus.read bus address
    .read address byte :: (next byte).calls bus
  | write address value next, bus =>
    .write address value :: next.calls (Bus.write bus address value)
  | mark .tick next, bus => .tick :: next.calls (Bus.tick bus)
  | mark _ next, bus => next.calls bus

@[simp] theorem calls_traced (t : Traffic Mark α) (bus : β) : t.traced.calls bus = t.calls bus := by
  induction t generalizing bus with
  | done value => rfl
  | read address next ih => exact congrArg (_ :: ·) (ih _ _)
  | write address value next ih => exact congrArg (_ :: ·) (ih _)
  | mark m next ih =>
      cases m with
      | tick => exact congrArg (_ :: ·) (ih _)
      | _ => exact ih _

theorem calls_bind
    (t : Traffic Mark α) (f : α → Traffic Mark γ) (clock : UInt64) (bus : β) (sink : σ) :
    (t >>= f).calls bus =
      let o := t.run clock bus sink
      t.calls bus ++ (f o.value).calls o.bus := by
  induction t generalizing clock bus sink with
  | done value => rfl
  | read address next ih =>
      simp only [read_bind, calls, run, List.cons_append]
      rw [ih]
  | write address value next ih =>
      simp only [write_bind, calls, run, List.cons_append]
      rw [ih]
  | mark m next ih =>
      cases m with
      | tick =>
          simp only [mark_bind, calls, run, List.cons_append]
          rw [ih]
      | _ => exact ih _ _ _

/-- A probe sees the calls of the tree and is otherwise not noticed. -/
theorem run_probe
    (t : Traffic Mark α) (clock : UInt64) (bus : β) (seen : List BusCall) (sink : σ) :
    t.run clock (⟨bus, seen⟩ : Probe β) sink =
      let o := t.run clock bus sink
      ⟨o.value, o.clock, ⟨o.bus, seen ++ t.calls bus⟩, o.sink⟩ := by
  induction t generalizing clock bus seen sink with
  | done value => simp [run, calls]
  | read address next ih =>
      simp only [run, calls, Probe.read_eq]
      rw [ih]
      simp
  | write address value next ih =>
      simp only [run, calls, Probe.write_eq]
      rw [ih]
      simp
  | mark m next ih =>
      cases m with
      | tick =>
          simp only [run, calls, Probe.tick_eq]
          rw [ih]
          simp
      | _ => exact ih _ _ _ _

theorem Ensures.write_mem_calls
    {W : UInt16 → UInt8 → Prop} {P : α → Prop} {t : Traffic Mark α} (ht : t.Ensures W P)
    {bus : β} {address : UInt16} {value : UInt8}
    (hmem : .write address value ∈ t.calls bus) :
    W address value := by
  induction t generalizing bus with
  | done result => simp [calls] at hmem
  | read other next ih =>
      have hrest :
          .write address value ∈ (next (Bus.read bus other).1).calls (Bus.read bus other).2 := by
        simpa [calls] using hmem
      exact ih _ (ht _) hrest
  | write other byte next ih =>
      simp only [calls, List.mem_cons, BusCall.write.injEq] at hmem
      rcases hmem with ⟨rfl, rfl⟩ | hrest
      · exact ht.1
      · exact ih ht.2 hrest
  | mark m next ih =>
      cases m with
      | tick =>
          have hrest : .write address value ∈ next.calls (Bus.tick bus) := by
            simpa [calls] using hmem
          exact ih ht hrest
      | _ => exact ih ht hmem

end Traffic

theorem Probe.tick_iterate {β : Type} [Bus β] (n : Nat) (bus : β) (seen : List BusCall) :
    Bus.tick^[n] (⟨bus, seen⟩ : Probe β) = ⟨Bus.tick^[n] bus, seen ++ List.replicate n .tick⟩ := by
  induction n generalizing bus seen with
  | zero => simp
  | succ n ih =>
      rw [Function.iterate_succ_apply, Probe.tick_eq, ih]
      simp [List.replicate_succ]

namespace Cpu

variable {α β σ : Type} [Bus β] [Sink σ]

theorem drive_unobserved
    (cpu : Cpu) (task : Engine → Traffic Mark (α × Engine)) (bus : β) (sink : σ) :
    cpu.drive task bus () =
      let r := cpu.drive task bus sink
      ⟨r.value, r.cpu, r.bus, ()⟩ := by
  have hrun := (task cpu.toEngine).run_unobserved cpu.totalCycles bus sink
  simp only at hrun
  simp only [drive, hrun]

theorem drive_probe
    (cpu : Cpu) (task : Engine → Traffic Mark (α × Engine)) (bus : β) (seen : List BusCall)
    (sink : σ) :
    cpu.drive task (⟨bus, seen⟩ : Probe β) sink =
      let r := cpu.drive task bus sink
      let calls := (cpu.drive task (Probe.fresh bus) sink).bus.calls
      ⟨r.value, r.cpu, ⟨r.bus, seen ++ calls⟩, r.sink⟩ := by
  simp only [drive, Probe.fresh, Traffic.run_probe, List.nil_append]

end Cpu

/-! ## Sessions -/

/-- The requests, one after the other, as a single computation. -/
def Request.tasks (setup : Setup) : List Request → Engine → Traffic Mark (List Reply × Engine)
  | [], e => pure ([], e)
  | request :: rest, e => do
    let (reply, e) ← request.task setup e
    let (replies, e) ← tasks setup rest e
    pure (reply :: replies, e)

theorem Cpu.performAll_eq_drive
    {β σ : Type} [Bus β] [Sink σ] (cpu : Cpu) (requests : List Request) (bus : β) (sink : σ) :
    cpu.performAll requests bus sink = cpu.drive (Request.tasks cpu.setup requests) bus sink := by
  induction requests generalizing cpu bus sink with
  | nil => rfl
  | cons request rest ih =>
      simp only [performAll, ih]
      simp only [perform, drive, Request.tasks, Traffic.run_bind]
      rfl

end Nmos6502
