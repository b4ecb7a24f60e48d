import Nmos6502.Bus
import Nmos6502.Trace.Sink

/-!
# Bus traffic

A computation on the bus is a tree: a node is a read, whose branches are the bytes that may come
back, or a write, and a leaf holds the result.  Between them stand marks.  The work inside one
clock has no marks (`Traffic Empty`); whole clocks mark where a clock is counted, where the bus is
clocked and what is reported.  An access by itself is not reported: `Traffic.traced` puts a report
behind every access of a tree.

A tree says all that its computation can do to a bus and learn from it.  `Traffic.run` plays a
tree on an actual bus: it hands the accesses to the bus and the reports to the sink, and stamps
accesses with the count of clocks.
-/

namespace Nmos6502

inductive Traffic (ε α : Type) where
  | done (value : α)
  | read (address : UInt16) (next : UInt8 → Traffic ε α)
  | write (address : UInt16) (value : UInt8) (next : Traffic ε α)
  | mark (m : ε) (next : Traffic ε α)

/-- The work that fits between two marks. -/
abbrev Work (α : Type) := Traffic Empty α

inductive Mark where
  /-- A clock is counted. -/
  | count
  /-- The bus is clocked: attached devices advance. -/
  | tick
  /-- An access is reported, under the count of clocks as it stands. -/
  | access (direction : Direction) (address : UInt16) (data : UInt8)
  | event (e : Event)
  | remark (entry : DiaryEntry)

namespace Traffic

variable {ε α γ : Type}

def bind : Traffic ε α → (α → Traffic ε γ) → Traffic ε γ
  | done value, f => f value
  | read address next, f => read address fun byte => (next byte).bind f
  | write address value next, f => write address value (next.bind f)
  | mark m next, f => mark m (next.bind f)

instance : Monad (Traffic ε) where
  pure := done
  bind := bind

@[simp] theorem pure_eq_done (value : α) : (pure value : Traffic ε α) = done value := rfl

@[simp] theorem done_bind (value : α) (f : α → Traffic ε γ) : done value >>= f = f value := rfl

@[simp] theorem read_bind
    (address : UInt16) (next : UInt8 → Traffic ε α) (f : α → Traffic ε γ) :
    read address next >>= f = read address fun byte => next byte >>= f := rfl

@[simp] theorem write_bind
    (address : UInt16) (value : UInt8) (next : Traffic ε α) (f : α → Traffic ε γ) :
    write address value next >>= f = write address value (next >>= f) := rfl

@[simp] theorem mark_bind (m : ε) (next : Traffic ε α) (f : α → Traffic ε γ) :
    mark m next >>= f = mark m (next >>= f) := rfl

theorem bind_done (t : Traffic ε α) : t.bind done = t := by
  induction t with
  | done value => rfl
  | read address next ih => simp [bind, ih]
  | write address value next ih => simp [bind, ih]
  | mark m next ih => simp [bind, ih]

theorem bind_assoc {κ : Type} (t : Traffic ε α) (f : α → Traffic ε γ) (g : γ → Traffic ε κ) :
    (t.bind f).bind g = t.bind fun value => (f value).bind g := by
  induction t with
  | done value => rfl
  | read address next ih => simp [bind, ih]
  | write address value next ih => simp [bind, ih]
  | mark m next ih => simp [bind, ih]

instance : LawfulMonad (Traffic ε) :=
  LawfulMonad.mk' (Traffic ε) bind_done (fun _ _ => rfl) bind_assoc

/-- Reads one byte. -/
def fetch (address : UInt16) : Work UInt8 :=
  read address done

/-- Writes one byte. -/
def store (address : UInt16) (value : UInt8) : Work Unit :=
  write address value (done ())

/-- The work as part of a computation that also has marks. -/
def embed : Work α → Traffic ε α
  | done value => done value
  | read address next => read address fun byte => (next byte).embed
  | write address value next => write address value next.embed

/-- The computation with a report of every access, once the access is done. -/
def traced : Traffic Mark α → Traffic Mark α
  | done value => done value
  | read address next =>
    read address fun byte => mark (.access .read address byte) (next byte).traced
  | write address value next =>
    write address value (mark (.access .write address value) next.traced)
  | mark m next => mark m next.traced

/-- One mark and nothing else. -/
def note (m : Mark) : Traffic Mark Unit :=
  mark m (done ())

structure Outcome (α β σ : Type) where
  value : α
  clock : UInt64
  bus : β
  sink : σ

def run {β σ : Type} [Bus β] [Sink σ] :
    Traffic Mark α → UInt64 → β → σ → Outcome α β σ
  | done value, clock, bus, sink => ⟨value, clock, bus, sink⟩
  | read address next, clock, bus, sink =>
    let (byte, bus) := Bus.read bus address
    (next byte).run clock bus sink
  | write address value next, clock, bus, sink => next.run clock (Bus.write bus address value) sink
  | mark .count next, clock, bus, sink => next.run (clock + 1) bus sink
  | mark .tick next, clock, bus, sink => next.run clock (Bus.tick bus) sink
  | mark (.access direction address data) next, clock, bus, sink =>
    next.run clock bus (Sink.event sink (.accessed ⟨clock, address, data, direction⟩))
  | mark (.event e) next, clock, bus, sink => next.run clock bus (Sink.event sink e)
  | mark (.remark entry) next, clock, bus, sink => next.run clock bus (Sink.remark sink entry)

theorem run_bind {β σ : Type} [Bus β] [Sink σ]
    (t : Traffic Mark α) (f : α → Traffic Mark γ) (clock : UInt64) (bus : β) (sink : σ) :
    (t >>= f).run clock bus sink =
      let o := t.run clock bus sink
      (f o.value).run o.clock o.bus o.sink := by
  induction t generalizing clock bus sink with
  | done value => rfl
  | read address next ih => simp only [read_bind, run, ih]
  | write address value next ih => simp only [write_bind, run, ih]
  | mark m next ih => cases m <;> simp only [mark_bind, run, ih]

end Traffic

end Nmos6502
