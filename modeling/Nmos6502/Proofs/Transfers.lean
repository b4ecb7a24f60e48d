import Nmos6502.Proofs.Calls

/-!
# Transfers

A transfer is one byte that crosses the bus, whatever the clock.  The calls that reach a bus and the
accesses that a log reports speak of the same transfers.  What a sink is told is a list of notes
that does not depend on the sink, and over plain memory the transfers say by themselves which bytes
are read and what is left behind.
-/

namespace Nmos6502

structure Transfer where
  direction : Direction
  address : UInt16
  data : UInt8
deriving DecidableEq, Repr

def Access.transfer (access : Access) : Transfer :=
  ⟨access.direction, access.address, access.data⟩

/-- The transfer as it is reported while the count of clocks is `cycle`. -/
def Transfer.stamped (transfer : Transfer) (cycle : UInt64) : Access :=
  ⟨cycle, transfer.address, transfer.data, transfer.direction⟩

theorem Transfer.transfer_stamped (transfer : Transfer) (cycle : UInt64) :
    (transfer.stamped cycle).transfer = transfer := rfl

def Event.access? : Event → Option Access
  | .accessed access => some access
  | _ => none

/-- The accesses that a stream of events reports. -/
def accesses (events : List Event) : List Access :=
  events.filterMap Event.access?

@[simp] theorem accesses_nil : accesses [] = [] := rfl

@[simp] theorem accesses_cons (e : Event) (events : List Event) :
    accesses (e :: events) = e.access?.toList ++ accesses events := by
  cases e <;> rfl

@[simp] theorem accesses_append (first second : List Event) :
    accesses (first ++ second) = accesses first ++ accesses second :=
  List.filterMap_append

@[simp] theorem accesses_map_accessed (list : List Access) :
    accesses (list.map Event.accessed) = list := by
  simp [accesses, List.filterMap_map, Function.comp_def, Event.access?]

def BusCall.transfer? : BusCall → Option Transfer
  | .read address value => some ⟨.read, address, value⟩
  | .write address value => some ⟨.write, address, value⟩
  | .tick => none

/-- The transfers among the calls of a bus. -/
def transfers (calls : List BusCall) : List Transfer :=
  calls.filterMap BusCall.transfer?

@[simp] theorem transfers_nil : transfers [] = [] := rfl

@[simp] theorem transfers_append (first second : List BusCall) :
    transfers (first ++ second) = transfers first ++ transfers second :=
  List.filterMap_append

@[simp] theorem transfers_read (address : UInt16) (value : UInt8) (calls : List BusCall) :
    transfers (.read address value :: calls) = ⟨.read, address, value⟩ :: transfers calls := rfl

@[simp] theorem transfers_write (address : UInt16) (value : UInt8) (calls : List BusCall) :
    transfers (.write address value :: calls) = ⟨.write, address, value⟩ :: transfers calls := rfl

@[simp] theorem transfers_tick (calls : List BusCall) :
    transfers (.tick :: calls) = transfers calls := rfl

@[simp] theorem transfers_ticks (n : Nat) :
    transfers (List.replicate n .tick) = [] := by
  simp [transfers, BusCall.transfer?]

/-! ## What a sink is told -/

inductive Note where
  | event (e : Event)
  | remark (entry : DiaryEntry)

def Note.event? : Note → Option Event
  | .event e => some e
  | .remark _ => none

def Sink.take {σ : Type} [Sink σ] (sink : σ) : Note → σ
  | .event e => Sink.event sink e
  | .remark entry => Sink.remark sink entry

namespace Traffic

variable {α β γ σ : Type} [Bus β] [Sink σ]

/-- What a play tells its sink, in order. -/
def notes : Traffic Mark α → UInt64 → β → List Note
  | done _, _, _ => []
  | read address next, clock, bus =>
    let (byte, bus) := Bus.read bus address
    (next byte).notes clock bus
  | write address value next, clock, bus => next.notes clock (Bus.write bus address value)
  | mark .count next, clock, bus => next.notes (clock + 1) bus
  | mark .tick next, clock, bus => next.notes clock (Bus.tick bus)
  | mark (.access direction address data) next, clock, bus =>
    .event (.accessed ⟨clock, address, data, direction⟩) :: next.notes clock bus
  | mark (.event e) next, clock, bus => .event e :: next.notes clock bus
  | mark (.remark entry) next, clock, bus => .remark entry :: next.notes clock bus

theorem run_sink (t : Traffic Mark α) (clock : UInt64) (bus : β) (sink : σ) :
    (t.run clock bus sink).sink = (t.notes clock bus).foldl Sink.take sink := by
  induction t generalizing clock bus sink with
  | done value => rfl
  | read address next ih => exact ih _ _ _ _
  | write address value next ih => exact ih _ _ _
  | mark m next ih => cases m <;> exact ih _ _ _

theorem foldl_take_log (notes : List Note) (log : Array Event) :
    (notes.foldl Sink.take log).toList = log.toList ++ notes.filterMap Note.event? := by
  induction notes generalizing log with
  | nil => simp
  | cons note rest ih =>
      rw [List.foldl_cons, ih]
      cases note with
      | event e =>
          change (log.push e).toList ++ _ = _
          simp [Note.event?]
      | remark entry => rfl

/-- Traced work inside one clock reports its transfers and nothing else, all under that clock. -/
theorem run_traced_log (t : Work α) (clock : UInt64) (bus : β) (log : Array Event) :
    ((t.embed : Traffic Mark α).traced.run clock bus log).sink.toList =
      log.toList ++
        ((transfers ((t.embed : Traffic Mark α).calls bus)).map fun transfer =>
          transfer.stamped clock).map .accessed := by
  induction t generalizing bus log with
  | done value => simp [embed, traced, run, calls]
  | read address next ih =>
      have hrest := ih (Bus.read bus address).1 (Bus.read bus address).2
        (log.push (.accessed ⟨clock, address, (Bus.read bus address).1, .read⟩))
      exact hrest.trans (by simp [embed, calls, Transfer.stamped])
  | write address value next ih =>
      have hrest := ih (Bus.write bus address value)
        (log.push (.accessed ⟨clock, address, value, .write⟩))
      exact hrest.trans (by simp [embed, calls, Transfer.stamped])
  | mark m next ih => exact m.elim

end Traffic

namespace Cpu

variable {α β σ : Type} [Bus β] [Sink σ]

theorem drive_sink
    (cpu : Cpu) (task : Engine → Traffic Mark (α × Engine)) (bus : β) (sink : σ) :
    (cpu.drive task bus sink).sink =
      ((task cpu.toEngine).notes cpu.totalCycles bus).foldl Sink.take sink :=
  (task cpu.toEngine).run_sink cpu.totalCycles bus sink

theorem drive_events
    (cpu : Cpu) (task : Engine → Traffic Mark (α × Engine)) (bus : β) :
    (cpu.drive task bus (#[] : Array Event)).sink.toList =
      ((task cpu.toEngine).notes cpu.totalCycles bus).filterMap Note.event? := by
  rw [drive_sink, Traffic.foldl_take_log]
  rfl

theorem drive_log
    (cpu : Cpu) (task : Engine → Traffic Mark (α × Engine)) (bus : β) (log : Array Event) :
    (cpu.drive task bus log).sink.toList =
      log.toList ++ (cpu.drive task bus (#[] : Array Event)).sink.toList := by
  rw [drive_events, drive_sink, Traffic.foldl_take_log]

end Cpu

/-! ## Transfers over plain memory -/

/-- The transfers lead from a memory to `final`: a byte that is read is the one that stands there, a
byte that is written replaces it. -/
def Memory.Follows : Memory → List Transfer → Memory → Prop
  | memory, [], final => final = memory
  | memory, ⟨.read, address, data⟩ :: rest, final =>
    memory.read address = data ∧ memory.Follows rest final
  | memory, ⟨.write, address, data⟩ :: rest, final => (memory.write address data).Follows rest final

theorem Traffic.follows_run
    {α σ : Type} [Sink σ] (t : Traffic Mark α) (clock : UInt64) (memory : Memory) (sink : σ) :
    memory.Follows (transfers (t.calls memory)) (t.run clock memory sink).bus := by
  induction t generalizing clock memory sink with
  | done value => rfl
  | read address next ih => exact ⟨rfl, ih _ _ _ _⟩
  | write address value next ih => exact ih _ _ _
  | mark m next ih => cases m <;> exact ih _ _ _

end Nmos6502
