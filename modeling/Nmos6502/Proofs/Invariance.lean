import Nmos6502.Cpu.Session
import Nmos6502.Proofs.Calls

/-!
# What the bus keeps

A property of the bus that no call of it breaks outlasts every session, and one that accesses alone
do not break outlasts the work inside one clock.  A view of the bus through which every call can be
made as well shows every session as it is: what the processor does cannot depend on what the view
leaves out.  More generally, no session tells apart two buses that answer alike and stay related.
-/

namespace Nmos6502

/-- No access breaks the property. -/
structure Bus.Keeps {β : Type} [Bus β] (I : β → Prop) : Prop where
  read : ∀ bus address, I bus → I (Bus.read bus address).2
  write : ∀ bus address value, I bus → I (Bus.write bus address value)

/-- Every call of the bus can be made through the view. -/
structure Bus.Shows {β γ : Type} [Bus β] [Bus γ] (view : β → γ) : Prop where
  read : ∀ bus address,
    Bus.read (view bus) address = ((Bus.read bus address).1, view (Bus.read bus address).2)
  write : ∀ bus address value,
    Bus.write (view bus) address value = view (Bus.write bus address value)
  tick : ∀ bus, Bus.tick (view bus) = view (Bus.tick bus)

/-- Related buses answer alike and stay related. -/
structure Bus.Simulates {β γ : Type} [Bus β] [Bus γ] (R : β → γ → Prop) : Prop where
  read : ∀ {bus other}, R bus other → ∀ address,
    (Bus.read other address).1 = (Bus.read bus address).1 ∧
      R (Bus.read bus address).2 (Bus.read other address).2
  write : ∀ {bus other}, R bus other → ∀ address value,
    R (Bus.write bus address value) (Bus.write other address value)
  tick : ∀ {bus other}, R bus other → R (Bus.tick bus) (Bus.tick other)

theorem Bus.Shows.simulates
    {β γ : Type} [Bus β] [Bus γ] {view : β → γ} (hview : Bus.Shows view) :
    Bus.Simulates fun bus other => other = view bus where
  read := by
    rintro bus _ rfl address
    simp only [hview.read, and_self]
  write := by
    rintro bus _ rfl address value
    exact hview.write bus address value
  tick := by
    rintro bus _ rfl
    exact hview.tick bus

namespace Probe

variable {β γ : Type}

def map (view : β → γ) (probe : Probe β) : Probe γ := ⟨view probe.bus, probe.calls⟩

theorem shows_bus [Bus β] : Bus.Shows (Probe.bus : Probe β → β) where
  read _ _ := rfl
  write _ _ _ := rfl
  tick _ := rfl

end Probe

theorem Bus.Shows.probe
    {β γ : Type} [Bus β] [Bus γ] {view : β → γ} (hview : Bus.Shows view) :
    Bus.Shows (Probe.map view) where
  read probe address := by simp [Probe.map, hview.read]
  write probe address value := by simp [Probe.map, hview.write]
  tick probe := by simp [Probe.map, hview.tick]

namespace Traffic

variable {α β γ σ : Type} [Bus β] [Bus γ] [Sink σ]

theorem run_traced_keeps
    {I : β → Prop} (hkeeps : Bus.Keeps I) (t : Work α) (clock : UInt64) (bus : β) (sink : σ)
    (hbus : I bus) :
    I ((t.embed : Traffic Mark α).traced.run clock bus sink).bus := by
  induction t generalizing bus sink with
  | done value => exact hbus
  | read address next ih => exact ih _ _ _ (hkeeps.read bus address hbus)
  | write address value next ih => exact ih _ _ (hkeeps.write bus address value hbus)
  | mark m next ih => exact m.elim

theorem run_keeps
    {I : β → Prop} (hkeeps : Bus.Keeps I) (htick : ∀ bus, I bus → I (Bus.tick bus))
    (t : Traffic Mark α) (clock : UInt64) (bus : β) (sink : σ) (hbus : I bus) :
    I (t.run clock bus sink).bus := by
  induction t generalizing clock bus sink with
  | done value => exact hbus
  | read address next ih => exact ih _ _ _ _ (hkeeps.read bus address hbus)
  | write address value next ih => exact ih _ _ _ (hkeeps.write bus address value hbus)
  | mark m next ih =>
      cases m with
      | tick => exact ih _ _ _ (htick bus hbus)
      | _ => exact ih _ _ _ hbus

theorem run_simulates
    {R : β → γ → Prop} (t : Traffic Mark α) (hR : Bus.Simulates R) (clock : UInt64) {bus : β}
    {other : γ} (sink : σ) (hrelated : R bus other) :
    ∃ left, R (t.run clock bus sink).bus left ∧
      t.run clock other sink =
        let o := t.run clock bus sink
        ⟨o.value, o.clock, left, o.sink⟩ := by
  induction t generalizing clock bus other sink with
  | done value => exact ⟨other, hrelated, rfl⟩
  | read address next ih =>
      rcases hR.read hrelated address with ⟨hanswer, hnext⟩
      simp only [run, hanswer]
      exact ih _ _ _ hnext
  | write address value next ih => exact ih _ _ (hR.write hrelated address value)
  | mark m next ih =>
      cases m with
      | tick => exact ih _ _ (hR.tick hrelated)
      | _ => exact ih _ _ hrelated

theorem run_shows
    {view : β → γ} (hview : Bus.Shows view) (t : Traffic Mark α) (clock : UInt64) (bus : β)
    (sink : σ) :
    t.run clock (view bus) sink =
      let o := t.run clock bus sink
      ⟨o.value, o.clock, view o.bus, o.sink⟩ := by
  rcases t.run_simulates hview.simulates clock sink rfl with ⟨_, rfl, hrun⟩
  exact hrun

end Traffic

namespace Cpu

variable {β γ σ : Type} [Bus β] [Bus γ] [Sink σ]

theorem performAll_keeps
    {I : β → Prop} (hkeeps : Bus.Keeps I) (htick : ∀ bus, I bus → I (Bus.tick bus))
    (cpu : Cpu) (requests : List Request) (bus : β) (sink : σ) (hbus : I bus) :
    I (cpu.performAll requests bus sink).bus := by
  rw [performAll_eq_drive]
  exact Traffic.run_keeps hkeeps htick _ _ _ _ hbus

theorem performAll_shows
    {view : β → γ} (hview : Bus.Shows view) (cpu : Cpu) (requests : List Request) (bus : β)
    (sink : σ) :
    cpu.performAll requests (view bus) sink =
      let r := cpu.performAll requests bus sink
      ⟨r.value, r.cpu, view r.bus, r.sink⟩ := by
  simp only [performAll_eq_drive, drive]
  rw [Traffic.run_shows hview]

theorem performAll_simulates
    {R : β → γ → Prop} (hR : Bus.Simulates R) (cpu : Cpu) (requests : List Request) {bus : β}
    {other : γ} (sink : σ) (hrelated : R bus other) :
    ∃ left, R (cpu.performAll requests bus sink).bus left ∧
      cpu.performAll requests other sink =
        let r := cpu.performAll requests bus sink
        ⟨r.value, r.cpu, left, r.sink⟩ := by
  rcases (Request.tasks cpu.setup requests cpu.toEngine).run_simulates hR cpu.totalCycles sink
    hrelated with ⟨left, hleft, hrun⟩
  simp only [performAll_eq_drive, drive, hrun]
  exact ⟨left, hleft, rfl⟩

end Cpu

end Nmos6502
