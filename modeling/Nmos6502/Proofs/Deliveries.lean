import Nmos6502.Bus.System
import Nmos6502.Proofs.Calls

/-!
# Deliveries

What the calls of a system do to its peripherals is written down, delivery by delivery, in the order
in which it happens.  A read or a write makes one delivery or none; a clock and a reset make one for
each peripheral, the first one first.  The deliveries of any calls lead from the peripherals before
them to the peripherals after them.
-/

namespace Nmos6502

namespace Peripheral

variable {δ : Type} [Peripheral δ]

/-- The deliveries lead from some peripherals to others.  Each of them finds a device at its place,
as those before it have left it, and changes that device alone. -/
def Follows : Array δ → List (Delivery δ) → Array δ → Prop
  | now, [], later => later = now
  | now, ⟨index, call, device⟩ :: rest, later =>
    ∃ h : index < now.size,
      device = take now[index] call ∧ Follows (now.set index device) rest later

theorem Follows.snoc {now mid : Array δ} {made : List (Delivery δ)} (h : Follows now made mid)
    (i : Fin mid.size) (call : DeviceCall) :
    Follows now (made ++ [⟨i, call, take mid[i] call⟩]) (mid.set i (take mid[i] call)) := by
  induction made generalizing now with
  | nil =>
      obtain rfl : mid = now := h
      exact ⟨i.isLt, rfl, rfl⟩
  | cons delivery rest ih =>
      rcases h with ⟨hindex, hdevice, hrest⟩
      exact ⟨hindex, hdevice, ih hrest⟩

/-- One delivery for each of the devices, in their order, the first of which stands at `index`. -/
def oneEach (call : DeviceCall) : Nat → List δ → List (Delivery δ)
  | _, [] => []
  | index, device :: rest => ⟨index, call, take device call⟩ :: oneEach call (index + 1) rest

theorem oneEach_index (call : DeviceCall) (index : Nat) (devices : List δ) :
    (oneEach call index devices).map Delivery.index = List.range' index devices.length := by
  induction devices generalizing index with
  | nil => rfl
  | cons device rest ih => simp [oneEach, ih, List.range'_succ]

theorem call_of_mem_oneEach {call : DeviceCall} {index : Nat} {devices : List δ}
    {delivery : Delivery δ} (hmem : delivery ∈ oneEach call index devices) :
    delivery.call = call := by
  induction devices generalizing index with
  | nil => simp [oneEach] at hmem
  | cons device rest ih =>
      rcases List.mem_cons.mp hmem with rfl | hrest
      · rfl
      · exact ih hrest

end Peripheral

/-! ## What a switchboard puts through -/

namespace Switchboard

variable {δ : Type} [Peripheral δ]

theorem hand_append
    (call : DeviceCall) (memory : Memory) (done rest : List δ) (device : δ)
    (made : List (Delivery δ)) :
    hand call ⟨⟨memory, (done ++ device :: rest).toArray⟩, made⟩ done.length =
      let device := Peripheral.take device call
      ⟨⟨memory, (done ++ device :: rest).toArray⟩, made ++ [⟨done.length, call, device⟩]⟩ := by
  simp [hand, note]

theorem foldl_hand
    (call : DeviceCall) (memory : Memory) (done rest : List δ) (made : List (Delivery δ)) :
    (List.range' done.length rest.length).foldl (hand call)
        ⟨⟨memory, (done ++ rest).toArray⟩, made⟩ =
      ⟨⟨memory, (done ++ rest.map (Peripheral.take · call)).toArray⟩,
        made ++ Peripheral.oneEach call done.length rest⟩ := by
  induction rest generalizing done made with
  | nil => simp [Peripheral.oneEach]
  | cons device rest ih =>
      have hrest := ih (done ++ [Peripheral.take device call])
        (made ++ [⟨done.length, call, Peripheral.take device call⟩])
      simp only [List.append_assoc, List.singleton_append, List.length_append,
        List.length_singleton] at hrest
      rw [List.length_cons, List.range'_succ, List.foldl_cons, hand_append]
      exact hrest

theorem handAll_eq (board : Switchboard δ) (call : DeviceCall) :
    board.handAll call =
      ⟨{ board.system with
          peripherals := board.system.peripherals.map (Peripheral.take · call) },
        board.deliveries ++ Peripheral.oneEach call 0 board.system.peripherals.toList⟩ := by
  rcases board with ⟨⟨memory, ⟨devices⟩⟩, made⟩
  have hfold := foldl_hand call memory [] devices made
  simpa [handAll, List.range_eq_range'] using hfold

/-- The deliveries so far lead from `start` to the peripherals as they are. -/
def Records (start : Array δ) (board : Switchboard δ) : Prop :=
  Peripheral.Follows start board.deliveries board.system.peripherals

theorem records_fresh (system : SystemBus δ) : Records system.peripherals (fresh system) := rfl

section Records

variable {start : Array δ} {board : Switchboard δ}

theorem Records.note (h : Records start board) {i : Nat} (hi : i < board.system.peripherals.size)
    (call : DeviceCall) :
    Records start (board.note ⟨i, hi⟩ call (Peripheral.take board.system.peripherals[i] call)) :=
  Peripheral.Follows.snoc h ⟨i, hi⟩ call

theorem Records.hand (h : Records start board) (call : DeviceCall) (index : Nat) :
    Records start (board.hand call index) := by
  unfold Switchboard.hand
  split
  · exact h.note _ call
  · exact h

theorem Records.handAll (h : Records start board) (call : DeviceCall) :
    Records start (board.handAll call) := by
  unfold Switchboard.handAll
  generalize List.range board.system.peripherals.size = indices
  induction indices generalizing board with
  | nil => exact h
  | cons index rest ih => exact ih (h.hand call index)

theorem Records.read (h : Records start board) (address : UInt16) :
    Records start (board.read address).2 := by
  unfold Switchboard.read
  split
  · exact h
  · exact h.note _ (.read address _)

theorem Records.write (h : Records start board) (address : UInt16) (value : UInt8) :
    Records start (board.write address value) := by
  unfold Switchboard.write
  split
  · exact h
  · exact h.note _ (.write address value)

end Records

end Switchboard

/-! ## The calls of a system -/

inductive SystemCall where
  | read (address : UInt16)
  | write (address : UInt16) (value : UInt8)
  | tick
  | resetPeripherals
deriving DecidableEq, Repr

/-- The call as a system serves it. -/
def BusCall.served : BusCall → SystemCall
  | .read address _ => .read address
  | .write address value => .write address value
  | .tick => .tick

namespace Switchboard

variable {δ : Type} [Peripheral δ]

/-- What a read answers, and the switchboard after the call. -/
def serve (board : Switchboard δ) : SystemCall → Option UInt8 × Switchboard δ
  | .read address =>
    let answer := board.read address
    (some answer.1, answer.2)
  | .write address value => (none, board.write address value)
  | .tick => (none, board.tick)
  | .resetPeripherals => (none, board.resetPeripherals)

theorem Records.serve {start : Array δ} {board : Switchboard δ} (h : Records start board)
    (call : SystemCall) : Records start (board.serve call).2 := by
  cases call with
  | read address => exact h.read address
  | write address value => exact h.write address value
  | tick => exact h.handAll .tick
  | resetPeripherals => exact h.handAll .reset

end Switchboard

namespace SystemBus

variable {δ : Type} [Peripheral δ]

theorem read_of_unowned
    (bus : SystemBus δ) {address : UInt16} (howner : bus.owner? address = none) :
    Bus.read bus address = (bus.memory.read address, bus) := by
  change bus.read address = _
  simp only [read, Switchboard.read, Switchboard.fresh, howner]

theorem read_of_owner
    (bus : SystemBus δ) {address : UInt16} {i : Nat} {hi : i < bus.peripherals.size}
    (howner : bus.owner? address = some ⟨i, hi⟩) :
    Bus.read bus address =
      let r := Peripheral.read bus.peripherals[i] address
      (r.1, { bus with peripherals := bus.peripherals.set i r.2 }) := by
  change bus.read address = _
  simp only [read, Switchboard.read, Switchboard.fresh, howner]
  rfl

theorem write_of_unowned
    (bus : SystemBus δ) {address : UInt16} (value : UInt8) (howner : bus.owner? address = none) :
    Bus.write bus address value = { bus with memory := bus.memory.write address value } := by
  change bus.write address value = _
  simp only [write, Switchboard.write, Switchboard.fresh, howner]

theorem write_of_owner
    (bus : SystemBus δ) {address : UInt16} (value : UInt8) {i : Nat}
    {hi : i < bus.peripherals.size} (howner : bus.owner? address = some ⟨i, hi⟩) :
    Bus.write bus address value =
      let device := Peripheral.write bus.peripherals[i] address value
      { bus with peripherals := bus.peripherals.set i device } := by
  change bus.write address value = _
  simp only [write, Switchboard.write, Switchboard.fresh, howner]
  rfl

theorem tick_eq (bus : SystemBus δ) :
    Bus.tick bus = { bus with peripherals := bus.peripherals.map Peripheral.tick } :=
  congrArg Switchboard.system ((Switchboard.fresh bus).handAll_eq .tick)

theorem resetPeripherals_eq (bus : SystemBus δ) :
    bus.resetPeripherals = { bus with peripherals := bus.peripherals.map Peripheral.reset } :=
  congrArg Switchboard.system ((Switchboard.fresh bus).handAll_eq .reset)

/-- What a read answers, and the system after the call. -/
def serve (bus : SystemBus δ) : SystemCall → Option UInt8 × SystemBus δ
  | .read address =>
    let answer := Bus.read bus address
    (some answer.1, answer.2)
  | .write address value => (none, Bus.write bus address value)
  | .tick => (none, Bus.tick bus)
  | .resetPeripherals => (none, bus.resetPeripherals)

/-- The deliveries that one call makes, in order. -/
def deliveries (bus : SystemBus δ) (call : SystemCall) : List (Delivery δ) :=
  ((Switchboard.fresh bus).serve call).2.deliveries

def after (bus : SystemBus δ) (calls : List SystemCall) : SystemBus δ :=
  calls.foldl (fun bus call => (bus.serve call).2) bus

def answers : SystemBus δ → List SystemCall → List (Option UInt8)
  | _, [] => []
  | bus, call :: rest => (bus.serve call).1 :: (bus.serve call).2.answers rest

/-- The deliveries that the calls make, one call after the other. -/
def trail : SystemBus δ → List SystemCall → List (Delivery δ)
  | _, [] => []
  | bus, call :: rest => bus.deliveries call ++ (bus.serve call).2.trail rest

section Board

variable (bus : SystemBus δ) (made : List (Delivery δ)) (address : UInt16) (value : UInt8)

theorem read_board :
    Bus.read (⟨bus, made⟩ : Switchboard δ) address =
      ((Bus.read bus address).1,
        ⟨(Bus.read bus address).2, made ++ bus.deliveries (.read address)⟩) := by
  change Switchboard.read _ _ = ((bus.read address).1, ⟨(bus.read address).2, _⟩)
  cases howner : bus.owner? address <;>
    simp [read, deliveries, Switchboard.serve, Switchboard.read, Switchboard.fresh,
      Switchboard.note, howner]

theorem write_board :
    Bus.write (⟨bus, made⟩ : Switchboard δ) address value =
      ⟨Bus.write bus address value, made ++ bus.deliveries (.write address value)⟩ := by
  change Switchboard.write _ _ _ = ⟨bus.write address value, _⟩
  cases howner : bus.owner? address <;>
    simp [write, deliveries, Switchboard.serve, Switchboard.write, Switchboard.fresh,
      Switchboard.note, howner]

theorem tick_board :
    Bus.tick (⟨bus, made⟩ : Switchboard δ) = ⟨Bus.tick bus, made ++ bus.deliveries .tick⟩ := by
  change Switchboard.tick _ = ⟨bus.tick, _⟩
  simp [tick, deliveries, Switchboard.serve, Switchboard.tick, Switchboard.handAll_eq,
    Switchboard.fresh]

theorem resetPeripherals_board :
    (⟨bus, made⟩ : Switchboard δ).resetPeripherals =
      ⟨bus.resetPeripherals, made ++ bus.deliveries .resetPeripherals⟩ := by
  simp [resetPeripherals, deliveries, Switchboard.serve, Switchboard.resetPeripherals,
    Switchboard.handAll_eq, Switchboard.fresh]

/-- Beside what the call does to the system, its deliveries are put behind the earlier ones. -/
theorem serve_board (call : SystemCall) :
    Switchboard.serve ⟨bus, made⟩ call =
      ((bus.serve call).1, ⟨(bus.serve call).2, made ++ bus.deliveries call⟩) := by
  cases call with
  | read address =>
      have hread := bus.read_board made address
      exact congrArg (fun answer => (some answer.1, answer.2)) hread
  | write address value => exact congrArg (Prod.mk none) (bus.write_board made address value)
  | tick => exact congrArg (Prod.mk none) (bus.tick_board made)
  | resetPeripherals => exact congrArg (Prod.mk none) (bus.resetPeripherals_board made)

end Board

theorem records_after
    {start : Array δ} (bus : SystemBus δ) (made : List (Delivery δ))
    (h : Switchboard.Records start ⟨bus, made⟩) (calls : List SystemCall) :
    Switchboard.Records start ⟨bus.after calls, made ++ bus.trail calls⟩ := by
  induction calls generalizing bus made with
  | nil => simpa [trail, after] using h
  | cons call rest ih =>
      have hserve := h.serve call
      rw [serve_board] at hserve
      simpa [trail, after] using ih _ _ hserve

/-- What the calls do to the peripherals is what their deliveries do, in this order. -/
theorem follows_trail (bus : SystemBus δ) (calls : List SystemCall) :
    Peripheral.Follows bus.peripherals (bus.trail calls) (bus.after calls).peripherals :=
  bus.records_after [] (Switchboard.records_fresh bus) calls

/-- The deliveries of `calls` are written down at the switchboard, and nothing else is different. -/
theorem run_board
    {α σ : Type} [Sink σ] (t : Traffic Mark α) (clock : UInt64) (bus : SystemBus δ)
    (made : List (Delivery δ)) (sink : σ) :
    t.run clock (⟨bus, made⟩ : Switchboard δ) sink =
      let o := t.run clock bus sink
      ⟨o.value, o.clock, ⟨o.bus, made ++ bus.trail ((t.calls bus).map BusCall.served)⟩,
        o.sink⟩ := by
  induction t generalizing clock bus made sink with
  | done value => simp [Traffic.run, Traffic.calls, trail]
  | read address next ih =>
      simp only [Traffic.run, read_board, ih]
      simp [Traffic.calls, trail, BusCall.served, serve]
  | write address value next ih =>
      simp only [Traffic.run, write_board, ih]
      simp [Traffic.calls, trail, BusCall.served, serve]
  | mark m next ih =>
      cases m with
      | tick =>
          simp only [Traffic.run, tick_board, ih]
          simp [Traffic.calls, trail, BusCall.served, serve]
      | _ => exact ih _ _ _ _

end SystemBus

end Nmos6502
