import Nmos6502.Proofs.Transfers

/-!
# Blocks of the stream of events

What a session reports falls into blocks: one for each reset, one for each instruction that retires
and one for each fetch that is refused.  A block begins at some count of clocks, and all that it
says of the bus carries this count, but for a reset, whose reads carry one count after the other.
When blocks begin in good order, so do the accesses that they report.
-/

namespace Nmos6502

theorem UInt64.toNat_add_ofNat {a : UInt64} {n : Nat} (hfits : a.toNat + n < UInt64.size) :
    (a + UInt64.ofNat n).toNat = a.toNat + n := by
  have hn : n < UInt64.size := Nat.lt_of_le_of_lt (Nat.le_add_left _ _) hfits
  rw [UInt64.toNat_add, UInt64.toNat_ofNat', Nat.mod_eq_of_lt hn, Nat.mod_eq_of_lt hfits]

/-- A stretch of the stream, with the count of clocks at which it begins. -/
inductive Block where
  | reset (clock : UInt64) (kind : ResetKind) (reads : List (UInt16 × UInt8)) (pc : UInt16)
  | retired (clock : UInt64) (pc : UInt16) (opcode : UInt8) (transfers : List Transfer)
      (cycles : UInt8)
  | refused (clock : UInt64) (pc : UInt16) (opcode : UInt8)

namespace Block

def clock : Block → UInt64
  | reset clock .. => clock
  | retired clock .. => clock
  | refused clock .. => clock

/-- The clocks that have passed for certain before another block can begin. -/
def width : Block → Nat
  | reset _ _ reads _ => reads.length
  | retired .. => 1
  | refused .. => 0

def Completes : Block → Prop
  | refused .. => False
  | _ => True

/-- Each read with a count of its own, from `clock` upwards. -/
def resetReads : UInt64 → List (UInt16 × UInt8) → List Access
  | _, [] => []
  | clock, (address, data) :: rest => ⟨clock, address, data, .read⟩ :: resetReads (clock + 1) rest

def events : Block → List Event
  | reset clock kind reads pc =>
    .resetStarted kind :: (resetReads clock reads).map .accessed ++ [.resetCompleted pc]
  | retired clock pc opcode transfers cycles =>
    .accessed ⟨clock, pc, opcode, .read⟩ :: .started pc opcode ::
      (transfers.map fun transfer => transfer.stamped clock).map .accessed ++ [.retired pc cycles]
  | refused clock pc opcode =>
    [.accessed ⟨clock, pc, opcode, .read⟩, .started pc opcode, .faulted pc opcode]

def accesses (block : Block) : List Access :=
  Nmos6502.accesses block.events

@[simp] theorem accesses_reset
    (clock : UInt64) (kind : ResetKind) (reads : List (UInt16 × UInt8)) (pc : UInt16) :
    (reset clock kind reads pc).accesses = resetReads clock reads := by
  simp [accesses, events, Event.access?]

@[simp] theorem accesses_retired
    (clock : UInt64) (pc : UInt16) (opcode : UInt8) (transfers : List Transfer) (cycles : UInt8) :
    (retired clock pc opcode transfers cycles).accesses =
      ⟨clock, pc, opcode, .read⟩ :: transfers.map fun transfer => transfer.stamped clock := by
  simp only [accesses, events, accesses_cons, accesses_append, accesses_map_accessed, accesses_nil]
  simp [Event.access?]

@[simp] theorem accesses_refused (clock : UInt64) (pc : UInt16) (opcode : UInt8) :
    (refused clock pc opcode).accesses = [⟨clock, pc, opcode, .read⟩] := rfl

theorem accesses_flatMap_events (blocks : List Block) :
    Nmos6502.accesses (blocks.flatMap events) = blocks.flatMap accesses :=
  List.filterMap_flatMap ..

def moved (block : Block) : List Transfer :=
  block.accesses.map Access.transfer

theorem moved_reset
    (clock : UInt64) (kind : ResetKind) (reads : List (UInt16 × UInt8)) (pc : UInt16) :
    (reset clock kind reads pc).moved = reads.map fun r => ⟨.read, r.1, r.2⟩ := by
  rw [moved, accesses_reset]
  induction reads generalizing clock with
  | nil => rfl
  | cons r rest ih => simp [resetReads, ih, Access.transfer]

theorem moved_retired
    (clock : UInt64) (pc : UInt16) (opcode : UInt8) (transfers : List Transfer) (cycles : UInt8) :
    (retired clock pc opcode transfers cycles).moved = ⟨.read, pc, opcode⟩ :: transfers := by
  have hback : (transfers.map fun transfer => transfer.stamped clock).map Access.transfer =
      transfers := by
    simp [Function.comp_def, Transfer.transfer_stamped]
  rw [moved, accesses_retired, List.map_cons, hback]
  rfl

/-! ## Stamps inside a block -/

theorem toNat_succ {clock : UInt64} (hfits : clock.toNat + 1 < UInt64.size) :
    (clock + 1).toNat = clock.toNat + 1 :=
  UInt64.toNat_add_ofNat (n := 1) hfits

theorem resetReads_bounds
    {clock : UInt64} {reads : List (UInt16 × UInt8)}
    (hfits : clock.toNat + reads.length < UInt64.size) :
    ∀ access ∈ resetReads clock reads,
      clock.toNat ≤ access.cycle.toNat ∧ access.cycle.toNat < clock.toNat + reads.length := by
  induction reads generalizing clock with
  | nil => simp [resetReads]
  | cons r rest ih =>
      rw [List.length_cons] at hfits ⊢
      have hnext : (clock + 1).toNat = clock.toNat + 1 := toNat_succ (by omega)
      intro access hmem
      rcases List.mem_cons.mp hmem with rfl | hrest
      · exact ⟨Nat.le_refl _, Nat.lt_add_of_pos_right (Nat.succ_pos _)⟩
      · have hbounds := ih (by omega) access hrest
        omega

theorem resetReads_sorted
    {clock : UInt64} {reads : List (UInt16 × UInt8)}
    (hfits : clock.toNat + reads.length < UInt64.size) :
    (resetReads clock reads).Pairwise fun first second => first.cycle ≤ second.cycle := by
  induction reads generalizing clock with
  | nil => exact .nil
  | cons r rest ih =>
      rw [List.length_cons] at hfits
      have hnext : (clock + 1).toNat = clock.toNat + 1 := toNat_succ (by omega)
      refine .cons (fun access hmem => ?_) (ih (by omega))
      have hbounds := resetReads_bounds (by omega) access hmem
      rw [UInt64.le_iff_toNat_le]
      change clock.toNat ≤ _
      omega

theorem cycle_eq_clock
    {block : Block} (hblock : ∀ clock kind reads pc, block ≠ reset clock kind reads pc) :
    ∀ access ∈ block.accesses, access.cycle = block.clock := by
  cases block with
  | reset clock kind reads pc => exact (hblock clock kind reads pc rfl).elim
  | retired clock pc opcode transfers cycles =>
      simp only [accesses_retired, List.mem_cons, List.mem_map]
      rintro access (rfl | ⟨transfer, -, rfl⟩) <;> rfl
  | refused clock pc opcode => simp [Block.clock]

theorem bounds
    {block : Block} (hfits : block.clock.toNat + block.width < UInt64.size) :
    ∀ access ∈ block.accesses, block.clock.toNat ≤ access.cycle.toNat ∧
      access.cycle.toNat ≤ block.clock.toNat + block.width ∧
      (block.Completes → access.cycle.toNat < block.clock.toNat + block.width) := by
  intro access hmem
  cases block with
  | reset clock kind reads pc =>
      rw [accesses_reset] at hmem
      have hbounds := resetReads_bounds hfits access hmem
      exact ⟨hbounds.1, Nat.le_of_lt hbounds.2, fun _ => hbounds.2⟩
  | retired clock pc opcode transfers cycles =>
      rw [cycle_eq_clock (by simp) access hmem]
      exact ⟨Nat.le_refl _, Nat.le_succ _, fun _ => Nat.lt_succ_self _⟩
  | refused clock pc opcode =>
      rw [cycle_eq_clock (by simp) access hmem]
      exact ⟨Nat.le_refl _, Nat.le_refl _, False.elim⟩

theorem sorted
    {block : Block} (hfits : block.clock.toNat + block.width < UInt64.size) :
    block.accesses.Pairwise fun first second => first.cycle ≤ second.cycle := by
  cases block with
  | reset clock kind reads pc =>
      rw [accesses_reset]
      exact resetReads_sorted hfits
  | retired clock pc opcode transfers cycles =>
      have hclock := @cycle_eq_clock (.retired clock pc opcode transfers cycles) (by simp)
      refine List.pairwise_of_forall_mem_list fun first hfirst second hsecond => ?_
      rw [hclock first hfirst, hclock second hsecond]
      exact UInt64.le_refl _
  | refused clock pc opcode => simp

/-! ## The order of blocks -/

/-- The count has gone past the first block when the second begins. -/
def Precedes (first second : Block) : Prop :=
  first.clock.toNat + first.width ≤ second.clock.toNat

/-- The blocks follow one another between two counts of clocks. -/
structure InOrder (start finish : Nat) (blocks : List Block) : Prop where
  le : start ≤ finish
  pairwise : blocks.Pairwise Precedes
  within : ∀ block ∈ blocks,
    start ≤ block.clock.toNat ∧ block.clock.toNat + block.width ≤ finish

theorem InOrder.nil {start finish : Nat} (hle : start ≤ finish) : InOrder start finish [] :=
  ⟨hle, .nil, by simp⟩

theorem InOrder.append
    {start middle finish : Nat} {blocks later : List Block}
    (hblocks : InOrder start middle blocks) (hlater : InOrder middle finish later) :
    InOrder start finish (blocks ++ later) where
  le := Nat.le_trans hblocks.le hlater.le
  pairwise := by
    rw [List.pairwise_append]
    refine ⟨hblocks.pairwise, hlater.pairwise, fun block hblock other hother => ?_⟩
    exact Nat.le_trans (hblocks.within block hblock).2 (hlater.within other hother).1
  within block hmem := by
    rcases List.mem_append.mp hmem with hfirst | hsecond
    · have hbounds := hblocks.within block hfirst
      exact ⟨hbounds.1, Nat.le_trans hbounds.2 hlater.le⟩
    · have hbounds := hlater.within block hsecond
      exact ⟨Nat.le_trans hblocks.le hbounds.1, hbounds.2⟩

theorem Precedes.cycle_le
    {first second : Block} (h : Precedes first second)
    (hfits : second.clock.toNat + second.width < UInt64.size)
    {a b : Access} (ha : a ∈ first.accesses) (hb : b ∈ second.accesses) :
    a.cycle ≤ b.cycle ∧ (first.Completes → a.cycle < b.cycle) := by
  have hle : first.clock.toNat + first.width ≤ second.clock.toNat := h
  have hfirst := bounds (by omega) a ha
  have hsecond := bounds hfits b hb
  rw [UInt64.le_iff_toNat_le, UInt64.lt_iff_toNat_lt]
  refine ⟨by omega, fun hcompletes => ?_⟩
  have hlt := hfirst.2.2 hcompletes
  omega

theorem InOrder.cycles_sorted
    {start finish : Nat} {blocks : List Block} (h : InOrder start finish blocks)
    (hfits : finish < UInt64.size) :
    (Nmos6502.accesses (blocks.flatMap events)).Pairwise
      fun first second => first.cycle ≤ second.cycle := by
  have hwidth : ∀ block ∈ blocks, block.clock.toNat + block.width < UInt64.size :=
    fun block hmem => Nat.lt_of_le_of_lt (h.within block hmem).2 hfits
  rw [accesses_flatMap_events, List.pairwise_flatMap]
  refine ⟨fun block hmem => sorted (hwidth block hmem), ?_⟩
  refine h.pairwise.imp_of_mem fun _ hother hprecedes a ha b hb => ?_
  exact (hprecedes.cycle_le (hwidth _ hother) ha hb).1

theorem InOrder.cycles_increase
    {start finish : Nat} {blocks : List Block} (h : InOrder start finish blocks)
    (hfits : finish < UInt64.size) :
    blocks.Pairwise fun first second =>
      first.Completes → ∀ a ∈ first.accesses, ∀ b ∈ second.accesses, a.cycle < b.cycle := by
  refine h.pairwise.imp_of_mem fun _ hother hprecedes hcompletes a ha b hb => ?_
  have hwidth := Nat.lt_of_le_of_lt (h.within _ hother).2 hfits
  exact (hprecedes.cycle_le hwidth ha hb).2 hcompletes

end Block

end Nmos6502
