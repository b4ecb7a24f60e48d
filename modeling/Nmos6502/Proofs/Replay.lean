import Nmos6502.Proofs.Stream

/-!
# Record and replay

The bytes that a session reads are all that it learns from its bus.  On a tape of these bytes it
goes the same way again, and two memories that agree wherever a session reads before it writes
cannot be told apart by it.
-/

namespace Nmos6502

def Transfer.answer? : Transfer → Option UInt8
  | ⟨.read, _, data⟩ => some data
  | ⟨.write, _, _⟩ => none

/-- The bytes that come back from the bus. -/
def answers (transfers : List Transfer) : List UInt8 :=
  transfers.filterMap Transfer.answer?

theorem answers_append (first second : List Transfer) :
    answers (first ++ second) = answers first ++ answers second :=
  List.filterMap_append

/-- The bytes of the reads that a stream of events reports. -/
def recording (events : List Event) : List UInt8 :=
  answers ((accesses events).map Access.transfer)

def Writes (transfers : List Transfer) (address : UInt16) : Prop :=
  ∃ value, ⟨.write, address, value⟩ ∈ transfers

/-- There is a read of the address with no write to it before. -/
def ReadsFirst (transfers : List Transfer) (address : UInt16) : Prop :=
  ∃ before data after,
    transfers = before ++ ⟨.read, address, data⟩ :: after ∧ ¬ Writes before address

@[simp] theorem not_readsFirst_nil (address : UInt16) : ¬ ReadsFirst [] address := by
  rintro ⟨before, data, after, heq, -⟩
  simp at heq

@[simp] theorem readsFirst_read_iff
    {other : UInt16} {byte : UInt8} {rest : List Transfer} {address : UInt16} :
    ReadsFirst (⟨.read, other, byte⟩ :: rest) address ↔
      address = other ∨ ReadsFirst rest address := by
  constructor
  · rintro ⟨before, data, after, heq, hbefore⟩
    cases before with
    | nil =>
        simp only [List.nil_append, List.cons.injEq, Transfer.mk.injEq] at heq
        exact .inl heq.1.2.1.symm
    | cons first before =>
        rw [List.cons_append, List.cons.injEq] at heq
        refine .inr ⟨before, data, after, heq.2, ?_⟩
        rintro ⟨value, hmem⟩
        exact hbefore ⟨value, List.mem_cons_of_mem _ hmem⟩
  · rintro (rfl | ⟨before, data, after, rfl, hbefore⟩)
    · exact ⟨[], byte, rest, rfl, by simp [Writes]⟩
    · refine ⟨⟨.read, other, byte⟩ :: before, data, after, rfl, ?_⟩
      rintro ⟨value, hmem⟩
      exact hbefore ⟨value, by simpa using hmem⟩

@[simp] theorem readsFirst_write_iff
    {other : UInt16} {byte : UInt8} {rest : List Transfer} {address : UInt16} :
    ReadsFirst (⟨.write, other, byte⟩ :: rest) address ↔
      address ≠ other ∧ ReadsFirst rest address := by
  constructor
  · rintro ⟨before, data, after, heq, hbefore⟩
    cases before with
    | nil => simp at heq
    | cons first before =>
        rw [List.cons_append, List.cons.injEq] at heq
        rcases heq with ⟨rfl, hrest⟩
        refine ⟨?_, before, data, after, hrest, ?_⟩
        · rintro rfl
          exact hbefore ⟨byte, List.mem_cons_self⟩
        · rintro ⟨value, hmem⟩
          exact hbefore ⟨value, List.mem_cons_of_mem _ hmem⟩
  · rintro ⟨hne, before, data, after, rfl, hbefore⟩
    refine ⟨⟨.write, other, byte⟩ :: before, data, after, rfl, ?_⟩
    rintro ⟨value, hmem⟩
    exact hbefore ⟨value, by simpa [hne] using hmem⟩

theorem ReadsFirst.append
    {transfers : List Transfer} {address : UInt16} (h : ReadsFirst transfers address)
    (later : List Transfer) :
    ReadsFirst (transfers ++ later) address := by
  rcases h with ⟨before, data, after, rfl, hbefore⟩
  exact ⟨before, data, after ++ later, by simp, hbefore⟩

/-! ## What a memory holds in the end -/

theorem Memory.Follows.read_of_not_writes
    {memory final : Memory} {transfers : List Transfer} (h : memory.Follows transfers final)
    {address : UInt16} (hwrites : ¬ Writes transfers address) :
    final.read address = memory.read address := by
  induction transfers generalizing memory with
  | nil => rw [show final = memory from h]
  | cons transfer rest ih =>
      have hrest : ¬ Writes rest address := fun ⟨value, hmem⟩ =>
        hwrites ⟨value, List.mem_cons_of_mem _ hmem⟩
      rcases transfer with ⟨direction, other, data⟩
      cases direction with
      | read => exact ih h.2 hrest
      | write =>
          have hne : address ≠ other := by
            rintro rfl
            exact hwrites ⟨data, List.mem_cons_self⟩
          rw [ih h hrest, memory.read_write_of_ne data hne]

theorem Memory.Follows.read_eq
    {memory final other otherFinal : Memory} {transfers : List Transfer}
    (h : memory.Follows transfers final) (hother : other.Follows transfers otherFinal)
    {address : UInt16}
    (hread : Writes transfers address ∨ other.read address = memory.read address) :
    otherFinal.read address = final.read address := by
  induction transfers generalizing memory other with
  | nil =>
      rw [show final = memory from h, show otherFinal = other from hother]
      exact hread.resolve_left (by simp [Writes])
  | cons transfer rest ih =>
      rcases transfer with ⟨direction, target, data⟩
      cases direction with
      | read =>
          refine ih h.2 hother.2 (hread.imp_left ?_)
          rintro ⟨value, hmem⟩
          exact ⟨value, by simpa using hmem⟩
      | write =>
          refine ih h hother ?_
          by_cases htarget : address = target
          · subst htarget
            exact .inr (by simp)
          · rw [memory.read_write_of_ne data htarget, other.read_write_of_ne data htarget]
            refine hread.imp_left ?_
            rintro ⟨value, hmem⟩
            exact ⟨value, by simpa [htarget] using hmem⟩

/-! ## Computations -/

namespace Traffic

variable {α β σ : Type} [Bus β] [Sink σ]

/-- A tape of the answers stands in for the bus, and is used up. -/
theorem run_tape
    (t : Traffic Mark α) (clock : UInt64) (bus : β) (sink : σ) (rest : List UInt8) :
    t.run clock (⟨answers (transfers (t.calls bus)) ++ rest⟩ : Tape) sink =
      let o := t.run clock bus sink
      ⟨o.value, o.clock, ⟨rest⟩, o.sink⟩ := by
  induction t generalizing clock bus sink with
  | done value => rfl
  | read address next ih => exact ih _ _ _ _
  | write address value next ih => exact ih _ _ _
  | mark m next ih => cases m <;> exact ih _ _ _

/-- Memories that hold the same wherever the computation reads first get the same calls. -/
theorem calls_of_readsFirst
    (t : Traffic Mark α) {memory other : Memory}
    (hagree : ∀ address, ReadsFirst (transfers (t.calls memory)) address →
      other.read address = memory.read address) :
    t.calls other = t.calls memory := by
  induction t generalizing memory other with
  | done value => rfl
  | read address next ih =>
      have hread : other.read address = memory.read address :=
        hagree address (readsFirst_read_iff.mpr (.inl rfl))
      have hrest := @ih (memory.read address) memory other
        fun cell hcell => hagree cell (readsFirst_read_iff.mpr (.inr hcell))
      change
        BusCall.read address (other.read address) :: (next (other.read address)).calls other = _
      rw [hread, hrest]
      rfl
  | write address value next ih =>
      have hrest := @ih (memory.write address value) (other.write address value) ?_
      · exact congrArg (BusCall.write address value :: ·) hrest
      intro cell hcell
      -- A written cell agrees from here on, whatever it held before.
      by_cases hsame : cell = address
      · subst hsame
        simp
      · rw [memory.read_write_of_ne value hsame, other.read_write_of_ne value hsame]
        exact hagree cell (readsFirst_write_iff.mpr ⟨hsame, hcell⟩)
  | mark m next ih =>
      cases m with
      | tick => exact congrArg (BusCall.tick :: ·) (ih hagree)
      | _ => exact ih hagree

end Traffic

/-! ## Sessions -/

namespace Cpu

variable {β σ : Type} [Bus β] [Sink σ]

theorem performAll_tape
    (cpu : Cpu) (requests : List Request) (bus : β) (sink : σ) (rest : List UInt8) :
    cpu.performAll requests
        (⟨answers (transfers (cpu.watched requests bus ()).bus.calls) ++ rest⟩ : Tape) sink =
      let r := cpu.performAll requests bus sink
      ⟨r.value, r.cpu, ⟨rest⟩, r.sink⟩ := by
  rw [watched_calls]
  simp only [performAll_eq_drive, drive, Traffic.run_tape]

/-- On the tape every call ends as it did, with the answers of the later ones still ahead. -/
theorem performAll_tape_before
    (cpu : Cpu) (before after : List Request) (bus : β) (sink : σ) (rest : List UInt8) :
    let r := cpu.performAll before bus sink
    let ahead := answers (transfers (r.cpu.watched after r.bus ()).bus.calls)
    cpu.performAll before
        (⟨answers (transfers (cpu.watched (before ++ after) bus ()).bus.calls) ++ rest⟩ : Tape)
        sink =
      ⟨r.value, r.cpu, ⟨ahead ++ rest⟩, r.sink⟩ := by
  intro r ahead
  have hunobserved : cpu.performAll before bus () = ⟨r.value, r.cpu, r.bus, ()⟩ :=
    cpu.performAll_unobserved before bus sink
  have hcalls := cpu.watched_append_calls before after bus
  simp only [hunobserved] at hcalls
  rw [hcalls, transfers_append, answers_append, List.append_assoc]
  exact cpu.performAll_tape before bus sink (ahead ++ rest)

/-- What two buses answer in the same way goes the same way on both. -/
theorem performAll_of_calls_eq
    {γ : Type} [Bus γ] (cpu : Cpu) (requests : List Request) (bus : β) (other : γ) (sink : σ)
    (hcalls : (cpu.watched requests other ()).bus.calls = (cpu.watched requests bus ()).bus.calls) :
    let r := cpu.performAll requests bus sink
    let s := cpu.performAll requests other sink
    s.value = r.value ∧ s.cpu = r.cpu ∧ s.sink = r.sink := by
  intro r s
  have hbus := cpu.performAll_tape requests bus sink []
  have hother := cpu.performAll_tape requests other sink []
  rw [hcalls, hbus] at hother
  simp only [Report.mk.injEq, true_and] at hother
  exact ⟨hother.1.symm, hother.2.1.symm, hother.2.2.symm⟩

theorem watched_calls_of_readsFirst
    (cpu : Cpu) (before after : List Request) {memory other : Memory}
    (hagree : ∀ address,
      ReadsFirst (transfers (cpu.watched (before ++ after) memory ()).bus.calls) address →
        other.read address = memory.read address) :
    (cpu.watched before other ()).bus.calls = (cpu.watched before memory ()).bus.calls := by
  rw [watched_calls, watched_calls]
  refine Traffic.calls_of_readsFirst _ fun address hreads => hagree address ?_
  rw [← watched_calls] at hreads
  rw [watched_append_calls, transfers_append]
  exact hreads.append _

/-- On a tape of the bytes that were read, a session gives the same replies, processors and events,
call after call, and the tape is used up to its last byte.  So does a session on any memory that
agrees with the first one on the cells that are read before they are written; there each cell that
is not written keeps its own byte, and the others end up the same. -/
theorem sessions_replay
    (cpu : Cpu) (requests : List Request) (bus : β)
    (hclocked : ∀ request ∈ requests, request.Clocked) :
    let recorded := recording (cpu.performAll requests bus (#[] : Array Event)).sink.toList
    (∀ {σ : Type} [Sink σ] (sink : σ) (rest : List UInt8),
      (∀ before after, requests = before ++ after →
        let r := cpu.performAll before bus sink
        let s := cpu.performAll before (⟨recorded ++ rest⟩ : Tape) sink
        s.value = r.value ∧ s.cpu = r.cpu ∧ s.sink = r.sink) ∧
      (cpu.performAll requests (⟨recorded ++ rest⟩ : Tape) sink).bus = ⟨rest⟩) ∧
    (∀ memory other : Memory,
      let log := (cpu.performAll requests memory (#[] : Array Event)).sink.toList
      let moved := (accesses log).map Access.transfer
      (∀ address, ReadsFirst moved address → other.read address = memory.read address) →
        (∀ {σ : Type} [Sink σ] (sink : σ) before after, requests = before ++ after →
          let r := cpu.performAll before memory sink
          let s := cpu.performAll before other sink
          s.value = r.value ∧ s.cpu = r.cpu ∧ s.sink = r.sink) ∧
        (cpu.watched requests other ()).bus.calls = (cpu.watched requests memory ()).bus.calls ∧
        ∀ address,
          let left := (cpu.performAll requests memory ()).bus.read address
          let otherLeft := (cpu.performAll requests other ()).bus.read address
          (Writes moved address → otherLeft = left) ∧
          (¬ Writes moved address →
            left = memory.read address ∧ otherLeft = other.read address)) := by
  intro recorded
  have hrecorded : recorded = answers (transfers (cpu.watched requests bus ()).bus.calls) :=
    congrArg answers (cpu.transfers_of_performAll requests bus hclocked)
  refine ⟨?_, ?_⟩
  · intro σ _ sink rest
    rw [hrecorded]
    refine ⟨?_, by rw [cpu.performAll_tape requests bus sink rest]⟩
    rintro before after rfl
    simp only [cpu.performAll_tape_before before after bus sink rest, and_self]
  · intro memory other log moved hagree
    have hmoved : moved = transfers (cpu.watched requests memory ()).bus.calls :=
      cpu.transfers_of_performAll requests memory hclocked
    rw [hmoved] at hagree ⊢
    have hcalls : (cpu.watched requests other ()).bus.calls =
        (cpu.watched requests memory ()).bus.calls :=
      cpu.watched_calls_of_readsFirst requests [] (by simpa using hagree)
    refine ⟨?_, hcalls, fun address => ⟨fun hwrites => ?_, fun hwrites => ⟨?_, ?_⟩⟩⟩
    · rintro σ _ sink before after rfl
      exact cpu.performAll_of_calls_eq before memory other sink
        (cpu.watched_calls_of_readsFirst before after hagree)
    all_goals
      have hfollows := cpu.follows_performAll requests memory ()
      have hother := cpu.follows_performAll requests other ()
      rw [hcalls] at hother
    · exact hfollows.read_eq hother (.inl hwrites)
    · exact hfollows.read_of_not_writes hwrites
    · exact hother.read_of_not_writes hwrites

def storeAndLoad : Memory := Memory.zeroed.load 0x10 [0x85, 0x20, 0xA5, 0x20]

theorem replay_of_storeAndLoad :
    let cpu := readyAt 0x10 .documented
    let other := storeAndLoad.write 0x20 9
    (cpu.performAll [.execute, .execute] other ()).value =
        (cpu.performAll [.execute, .execute] storeAndLoad ()).value ∧
      (cpu.performAll [.execute, .execute] other ()).bus.read 0x20 =
        (cpu.performAll [.execute, .execute] storeAndLoad ()).bus.read 0x20 := by
  intro cpu other
  have hclocked : ∀ request ∈ [Request.execute, .execute], request.Clocked := by
    simp [Request.Clocked.execute]
  obtain ⟨-, hmemory⟩ := cpu.sessions_replay [.execute, .execute] storeAndLoad hclocked
  have hmoved : (accesses (cpu.performAll [.execute, .execute] storeAndLoad
      (#[] : Array Event)).sink.toList).map Access.transfer =
        [⟨.read, 0x10, 0x85⟩, ⟨.read, 0x11, 0x20⟩, ⟨.write, 0x20, 0⟩, ⟨.read, 0x12, 0xA5⟩,
          ⟨.read, 0x13, 0x20⟩, ⟨.read, 0x20, 0⟩] := by
    decide +kernel
  obtain ⟨hsame, -, hleft⟩ := hmemory storeAndLoad other (by
    rw [hmoved]
    intro address hreads
    refine storeAndLoad.read_write_of_ne 9 ?_
    rintro rfl
    simp at hreads)
  rw [hmoved] at hleft
  exact ⟨(hsame () [.execute, .execute] [] rfl).1, (hleft 0x20).1 ⟨0, by simp⟩⟩

end Cpu

end Nmos6502
