import Nmos6502.Proofs.Bystanders

/-!
# Routing

Every access on a system goes to one place: to the first peripheral that claims its address, or to
one cell of the memory.  Clocks and resets reach all peripherals, one after the other and the first
one first.  Where no call changes what a peripheral claims, the memory behind a claimed address is
out of reach, and so is a peripheral that claims nothing but what others before it claim.
-/

namespace Nmos6502

/-! ## Steady peripherals -/

namespace Peripheral

variable {δ : Type} [Peripheral δ] {device : δ}

/-- No calls change what `device` claims. -/
def Steady (device : δ) : Prop :=
  ∀ received : List DeviceCall, claims (received.foldl take device) = claims device

theorem Steady.foldl (h : Steady device) (received : List DeviceCall) :
    Steady (received.foldl take device) := by
  intro more
  rw [← List.foldl_append, h, h]

end Peripheral

namespace SystemBus

variable {δ : Type}

/-! ## Where a call can go -/

/-- `later` is `now` but for the peripheral at `index`, which is `device`. -/
structure OnlyAt (now later : SystemBus δ) (index : Nat) (device : δ) : Prop where
  memory : later.memory = now.memory
  there : later.peripherals[index]? = some device
  elsewhere : ∀ other, other ≠ index → later.peripherals[other]? = now.peripherals[other]?

/-- `later` is `now` but for the memory cell at `address`, which holds `value`. -/
structure OnlyIn (now later : SystemBus δ) (address : UInt16) (value : UInt8) : Prop where
  peripherals : later.peripherals = now.peripherals
  there : later.memory.read address = value
  elsewhere : ∀ other, other ≠ address → later.memory.read other = now.memory.read other

theorem onlyAt_set (now : SystemBus δ) {i : Nat} (hi : i < now.peripherals.size) (device : δ) :
    now.OnlyAt { now with peripherals := now.peripherals.set i device } i device where
  memory := rfl
  there := by simp
  elsewhere other hne := by simp [hne.symm]

theorem size_le_attach (now : SystemBus δ) (extra : δ) :
    now.peripherals.size ≤ (now.attach extra).peripherals.size := by
  simp [attach]

variable [Peripheral δ]

/-- The deliveries that have been `made` are one `call` for each peripheral, the first one first,
and they are all that has happened to the system. -/
structure EachOnce
    (call : DeviceCall) (now : SystemBus δ) (made : List (Delivery δ)) (later : SystemBus δ) :
    Prop where
  memory : later.memory = now.memory
  order : made.map Delivery.index = List.range now.peripherals.size
  call_eq : ∀ delivery ∈ made, delivery.call = call
  follows : Peripheral.Follows now.peripherals made later.peripherals
  once : ∀ index : Nat,
    later.peripherals[index]? = now.peripherals[index]?.map (Peripheral.take · call)

theorem eachOnce_handAll (now : SystemBus δ) (call : DeviceCall) :
    let board := (Switchboard.fresh now).handAll call
    EachOnce call now board.deliveries board.system where
  memory := by rw [Switchboard.handAll_eq]; rfl
  order := by
    rw [Switchboard.handAll_eq, List.range_eq_range']
    exact Peripheral.oneEach_index call 0 now.peripherals.toList
  call_eq delivery hmem := by
    rw [Switchboard.handAll_eq] at hmem
    exact Peripheral.call_of_mem_oneEach hmem
  follows := (Switchboard.records_fresh now).handAll call
  once index := by
    rw [Switchboard.handAll_eq]
    exact Array.getElem?_map

theorem run_bus {α σ : Type} [Sink σ] (t : Traffic Mark α) (clock : UInt64) (bus : SystemBus δ)
    (sink : σ) :
    (t.run clock bus sink).bus = bus.after ((t.calls bus).map BusCall.served) := by
  induction t generalizing clock bus sink with
  | done value => rfl
  | read address next ih => exact ih _ _ _ _
  | write address value next ih => exact ih _ _ _
  | mark m next ih => cases m <;> exact ih _ _ _

/-- A session is a sequence of calls. -/
theorem performAll_bus {σ : Type} [Sink σ] (bus : SystemBus δ) (cpu : Cpu)
    (requests : List Request) (sink : σ) :
    (cpu.performAll requests bus sink).bus =
      bus.after ((cpu.watched requests bus ()).bus.calls.map BusCall.served) := by
  rw [Cpu.watched_calls, Cpu.performAll_eq_drive]
  exact run_bus _ _ bus sink

/-- At a switchboard a session goes the same way and its deliveries are written down. -/
theorem performAll_board {σ : Type} [Sink σ] (bus : SystemBus δ) (cpu : Cpu)
    (requests : List Request) (sink : σ) :
    let r := cpu.performAll requests bus sink
    let calls := (cpu.watched requests bus ()).bus.calls.map BusCall.served
    cpu.performAll requests (Switchboard.fresh bus) sink =
      ⟨r.value, r.cpu, ⟨r.bus, bus.trail calls⟩, r.sink⟩ := by
  intro r calls
  simp only [r, calls, Cpu.watched_calls, Cpu.performAll_eq_drive, Cpu.drive, Switchboard.fresh,
    run_board, List.nil_append]

/-! ## Where a call goes -/

/-- Every call on `now` goes to one place; clocks and resets go to every peripheral, in their
order. -/
structure Routes (now : SystemBus δ) : Prop where
  owner : ∀ address i hi, now.owner? address = some ⟨i, hi⟩ ↔
    Peripheral.claims now.peripherals[i] address = true ∧
      ∀ j device, j < i → now.peripherals[j]? = some device →
        Peripheral.claims device address = false
  ownerless : ∀ address, now.owner? address = none ↔
    ∀ device ∈ now.peripherals, Peripheral.claims device address = false
  claimant : ∀ address,
    now.peripherals.find? (Peripheral.claims · address) =
      (now.owner? address).bind fun i => now.peripherals[i.val]?
  owned : ∀ address i hi, now.owner? address = some ⟨i, hi⟩ →
    let device := now.peripherals[i]
    let answer := Peripheral.read device address
    (Bus.read now address).1 = answer.1 ∧ now.OnlyAt (Bus.read now address).2 i answer.2 ∧
      now.deliveries (.read address) = [⟨i, .read address answer.1, answer.2⟩] ∧
      ∀ value,
        let written := Peripheral.write device address value
        now.OnlyAt (Bus.write now address value) i written ∧
          now.deliveries (.write address value) = [⟨i, .write address value, written⟩]
  unowned : ∀ address, now.owner? address = none →
    Bus.read now address = (now.memory.read address, now) ∧
      now.deliveries (.read address) = [] ∧
      ∀ value, now.OnlyIn (Bus.write now address value) address value ∧
        now.deliveries (.write address value) = []
  tick : EachOnce .tick now (now.deliveries .tick) (Bus.tick now)
  reset : EachOnce .reset now (now.deliveries .resetPeripherals) now.resetPeripherals

section Deliveries

variable {now : SystemBus δ} {address : UInt16} (value : UInt8)

theorem deliveries_of_owner {i : Nat} {hi : i < now.peripherals.size}
    (howner : now.owner? address = some ⟨i, hi⟩) :
    let answer := Peripheral.read now.peripherals[i] address
    let written := Peripheral.write now.peripherals[i] address value
    now.deliveries (.read address) = [⟨i, .read address answer.1, answer.2⟩] ∧
      now.deliveries (.write address value) = [⟨i, .write address value, written⟩] := by
  simp [deliveries, Switchboard.serve, Switchboard.read, Switchboard.write, Switchboard.fresh,
    Switchboard.note, howner]

theorem deliveries_of_unowned (howner : now.owner? address = none) :
    now.deliveries (.read address) = [] ∧ now.deliveries (.write address value) = [] := by
  simp [deliveries, Switchboard.serve, Switchboard.read, Switchboard.write, Switchboard.fresh,
    howner]

end Deliveries

theorem routes (now : SystemBus δ) : now.Routes where
  owner address i hi := by
    rw [owner?, Array.findFinIdx?_eq_some_iff]
    refine and_congr_right fun _ => ⟨fun hfirst j device hj hdevice => ?_, fun hfirst j hj => ?_⟩
    · rcases Array.getElem?_eq_some_iff.mp hdevice with ⟨hlt, rfl⟩
      exact Bool.eq_false_iff.mpr (hfirst ⟨j, hlt⟩ hj)
    · exact Bool.eq_false_iff.mp (hfirst j _ hj (Array.getElem?_eq_getElem j.isLt))
  ownerless address := by simp only [owner?, Array.findFinIdx?_eq_none_iff, Bool.not_eq_true]
  claimant address := by
    cases howner : now.owner? address with
    | none =>
        rw [Option.bind_none, Array.find?_eq_none]
        exact Array.findFinIdx?_eq_none_iff.mp howner
    | some i =>
        rcases Array.findFinIdx?_eq_some_iff.mp howner with ⟨hclaims, hfirst⟩
        rw [Option.bind_some, Array.getElem?_eq_getElem i.isLt, Array.find?_eq_some_iff_getElem]
        refine ⟨hclaims, i, i.isLt, rfl, fun j hj => ?_⟩
        simpa using hfirst ⟨j, Nat.lt_trans hj i.isLt⟩ hj
  owned address i hi howner := by
    rw [now.read_of_owner howner]
    refine ⟨rfl, now.onlyAt_set hi _, (deliveries_of_owner 0 howner).1, fun value => ?_⟩
    rw [now.write_of_owner value howner]
    exact ⟨now.onlyAt_set hi _, (deliveries_of_owner value howner).2⟩
  unowned address howner := by
    refine ⟨now.read_of_unowned howner, (deliveries_of_unowned 0 howner).1, fun value => ?_⟩
    rw [now.write_of_unowned value howner]
    refine ⟨⟨rfl, Memory.read_write_self _ _ _, fun other hne => ?_⟩,
      (deliveries_of_unowned value howner).2⟩
    exact Memory.read_write_of_ne _ _ hne
  tick := now.eachOnce_handAll .tick
  reset := now.eachOnce_handAll .reset

/-- All that a call can do: nothing, one call of one peripheral, one write to a memory cell that is
not claimed, or one call of every peripheral. -/
theorem serve_cases (now : SystemBus δ) (call : SystemCall) :
    let later := (now.serve call).2
    later = now ∨
      (∃ (i : Nat) (hi : i < now.peripherals.size) (received : DeviceCall),
        now.OnlyAt later i (Peripheral.take now.peripherals[i] received)) ∨
      (∃ address value, now.owner? address = none ∧ now.OnlyIn later address value) ∨
      ∃ received, EachOnce received now (now.deliveries call) later := by
  cases call with
  | read address =>
      cases howner : now.owner? address with
      | none => exact .inl (congrArg Prod.snd (now.routes.unowned address howner).1)
      | some i =>
          have hread := (now.routes.owned address i.val i.isLt howner).2.1
          exact .inr (.inl ⟨i.val, i.isLt, .read address 0, hread⟩)
  | write address value =>
      cases howner : now.owner? address with
      | none =>
          have hwrite := ((now.routes.unowned address howner).2.2 value).1
          exact .inr (.inr (.inl ⟨address, value, howner, hwrite⟩))
      | some i =>
          have hwrite := ((now.routes.owned address i.val i.isLt howner).2.2.2 value).1
          exact .inr (.inl ⟨i.val, i.isLt, .write address value, hwrite⟩)
  | tick => exact .inr (.inr (.inr ⟨.tick, now.routes.tick⟩))
  | resetPeripherals => exact .inr (.inr (.inr ⟨.reset, now.routes.reset⟩))

/-! ## Claims that stay -/

/-- Every peripheral of `later` is the one of `now` after the calls that it has received. -/
def Evolves (now later : SystemBus δ) : Prop :=
  ∃ received : Nat → List DeviceCall, ∀ index : Nat,
    later.peripherals[index]? =
      now.peripherals[index]?.map fun device => (received index).foldl Peripheral.take device

theorem Evolves.refl (now : SystemBus δ) : now.Evolves now :=
  ⟨fun _ => [], fun _ => Option.map_id'.symm⟩

variable {now later : SystemBus δ}

theorem OnlyAt.evolves {i : Nat} {hi : i < now.peripherals.size}
    (call : DeviceCall) (h : now.OnlyAt later i (Peripheral.take now.peripherals[i] call)) :
    now.Evolves later := by
  refine ⟨fun index => if index = i then [call] else [], fun index => ?_⟩
  by_cases heq : index = i
  · subst heq
    simp [h.there, hi]
  · simp [h.elsewhere index heq, heq]

theorem EachOnce.evolves {call : DeviceCall} {made : List (Delivery δ)}
    (h : EachOnce call now made later) : now.Evolves later :=
  ⟨fun _ => [call], h.once⟩

theorem OnlyIn.evolves {address : UInt16} {value : UInt8}
    (h : now.OnlyIn later address value) : now.Evolves later :=
  ⟨fun _ => [], fun _ => by simp [h.peripherals]⟩

theorem evolves_serve (now : SystemBus δ) (call : SystemCall) :
    now.Evolves (now.serve call).2 := by
  rcases now.serve_cases call with
    hsame | ⟨_, _, received, honly⟩ | ⟨_, _, -, honly⟩ | ⟨_, honce⟩
  · rw [hsame]
    exact .refl now
  · exact honly.evolves received
  · exact honly.evolves
  · exact honce.evolves

/-- No calls change what the peripherals of `bus` claim. -/
def Steady (bus : SystemBus δ) : Prop :=
  ∀ device ∈ bus.peripherals, Peripheral.Steady device

def Claimed (bus : SystemBus δ) (address : UInt16) : Prop :=
  ∃ device ∈ bus.peripherals, Peripheral.claims device address = true

theorem Evolves.exists_of_mem (h : now.Evolves later) {device : δ}
    (hmem : device ∈ later.peripherals) :
    ∃ earlier ∈ now.peripherals, ∃ received : List DeviceCall,
      device = received.foldl Peripheral.take earlier := by
  rcases h with ⟨received, hreceived⟩
  rcases Array.mem_iff_getElem?.mp hmem with ⟨index, hindex⟩
  rw [hreceived, Option.map_eq_some_iff] at hindex
  rcases hindex with ⟨earlier, hearlier, rfl⟩
  exact ⟨earlier, Array.mem_of_getElem? hearlier, received index, rfl⟩

theorem Steady.evolves (hsteady : now.Steady) (h : now.Evolves later) : later.Steady := by
  intro device hmem
  rcases h.exists_of_mem hmem with ⟨earlier, hearlier, received, rfl⟩
  exact (hsteady earlier hearlier).foldl received

theorem Claimed.evolves {address : UInt16} (hclaimed : now.Claimed address)
    (hsteady : now.Steady) (h : now.Evolves later) : later.Claimed address := by
  rcases hclaimed with ⟨device, hmem, hclaims⟩
  rcases h with ⟨received, hreceived⟩
  rcases Array.mem_iff_getElem?.mp hmem with ⟨index, hindex⟩
  have hlater := hreceived index
  rw [hindex, Option.map_some] at hlater
  refine ⟨_, Array.mem_of_getElem? hlater, ?_⟩
  rw [hsteady device hmem]
  exact hclaims

theorem Claimed.exists_owner {address : UInt16} (hclaimed : now.Claimed address) :
    ∃ i, now.owner? address = some i := by
  apply Option.ne_none_iff_exists'.mp
  intro hnone
  rcases hclaimed with ⟨device, hmem, hclaims⟩
  rw [(now.routes.ownerless address).mp hnone device hmem] at hclaims
  contradiction

/-! ## Memory behind a claim -/

theorem memory_serve {address : UInt16} (hclaimed : now.Claimed address) (call : SystemCall) :
    (now.serve call).2.memory.read address = now.memory.read address := by
  rcases now.serve_cases call with
    hsame | ⟨_, _, _, honly⟩ | ⟨other, _, howner, honly⟩ | ⟨_, honce⟩
  · rw [hsame]
  · exact congrArg (Memory.read · address) honly.memory
  · -- An address that a peripheral claims is not the one written.
    have hne : address ≠ other := by
      rintro rfl
      rcases hclaimed.exists_owner with ⟨i, hi⟩
      rw [hi] at howner
      contradiction
    exact honly.elsewhere address hne
  · exact congrArg (Memory.read · address) honce.memory

/-- The memory holds `value` behind an address that a peripheral claims. -/
structure Hides (address : UInt16) (value : UInt8) (bus : SystemBus δ) : Prop where
  steady : bus.Steady
  claimed : bus.Claimed address
  hidden : bus.memory.read address = value

theorem Hides.serve {address : UInt16} {value : UInt8} (h : now.Hides address value)
    (call : SystemCall) : (now.serve call).2.Hides address value where
  steady := h.steady.evolves (now.evolves_serve call)
  claimed := h.claimed.evolves h.steady (now.evolves_serve call)
  hidden := (memory_serve h.claimed call).trans h.hidden

theorem Hides.after {address : UInt16} {value : UInt8} (h : now.Hides address value)
    (calls : List SystemCall) : (now.after calls).Hides address value := by
  induction calls generalizing now with
  | nil => exact h
  | cons call rest ih => exact ih (h.serve call)

/-! ## A peripheral behind all claims -/

/-- `wide` has one more peripheral than `bus`, which claims only what others claim. -/
def Shadows (bus wide : SystemBus δ) : Prop :=
  bus.Steady ∧ ∃ extra, Peripheral.Steady extra ∧
    (∀ address, Peripheral.claims extra address = true → bus.Claimed address) ∧
    wide = bus.attach extra

theorem owner?_attach {address : UInt16} {extra : δ}
    (hcovered : Peripheral.claims extra address = true → now.Claimed address) :
    (now.attach extra).owner? address =
      (now.owner? address).map (Fin.castLE (now.size_le_attach extra)) := by
  change (now.peripherals.push extra).findFinIdx? (Peripheral.claims · address) = _
  rw [Array.findFinIdx?_push]
  by_cases hclaims : Peripheral.claims extra address = true
  · rcases (hcovered hclaims).exists_owner with ⟨i, hi⟩
    rw [owner?] at hi
    simp [owner?, hi]
    rfl
  · simp [owner?, hclaims]
    rfl

theorem serve_attach {extra : δ}
    (hcovered : ∀ address, Peripheral.claims extra address = true → now.Claimed address)
    (call : SystemCall) :
    ∃ received : List DeviceCall,
      (now.attach extra).serve call =
        ((now.serve call).1,
          (now.serve call).2.attach (received.foldl Peripheral.take extra)) := by
  cases call with
  | read address =>
      refine ⟨[], ?_⟩
      have howner := owner?_attach (hcovered address)
      cases hnow : now.owner? address with
      | none =>
          rw [hnow] at howner
          simp only [serve, (now.attach extra).read_of_unowned howner, now.read_of_unowned hnow]
          rfl
      | some i =>
          rw [hnow] at howner
          simp only [serve, (now.attach extra).read_of_owner howner, now.read_of_owner hnow]
          simp [attach, Array.set_push, Array.getElem_push_lt]
  | write address value =>
      refine ⟨[], ?_⟩
      have howner := owner?_attach (hcovered address)
      cases hnow : now.owner? address with
      | none =>
          rw [hnow] at howner
          simp only [serve, (now.attach extra).write_of_unowned value howner,
            now.write_of_unowned value hnow]
          rfl
      | some i =>
          rw [hnow] at howner
          simp only [serve, (now.attach extra).write_of_owner value howner,
            now.write_of_owner value hnow]
          simp [attach, Array.set_push, Array.getElem_push_lt]
  | tick => exact ⟨[.tick], by simp [serve, tick_eq, attach, Peripheral.take]⟩
  | resetPeripherals =>
      exact ⟨[.reset], by simp [serve, resetPeripherals_eq, attach, Peripheral.take]⟩

theorem Shadows.serve {bus wide : SystemBus δ} (h : bus.Shadows wide) (call : SystemCall) :
    (wide.serve call).1 = (bus.serve call).1 ∧ (bus.serve call).2.Shadows (wide.serve call).2 := by
  rcases h with ⟨hsteady, extra, hextra, hcovered, rfl⟩
  rcases serve_attach hcovered call with ⟨received, hserve⟩
  have hevolves := bus.evolves_serve call
  rw [hserve]
  refine ⟨rfl, hsteady.evolves hevolves, _, hextra.foldl received, fun address hclaims => ?_, rfl⟩
  rw [hextra received] at hclaims
  exact (hcovered address hclaims).evolves hsteady hevolves

theorem Shadows.answers {bus wide : SystemBus δ} (h : bus.Shadows wide)
    (calls : List SystemCall) : wide.answers calls = bus.answers calls := by
  induction calls generalizing bus wide with
  | nil => rfl
  | cons call rest ih =>
      rcases h.serve call with ⟨hanswer, hrest⟩
      exact congrArg₂ List.cons hanswer (ih hrest)

theorem Shadows.after {bus wide : SystemBus δ} (h : bus.Shadows wide)
    (calls : List SystemCall) : (bus.after calls).Shadows (wide.after calls) := by
  induction calls generalizing bus wide with
  | nil => exact h
  | cons call rest ih => exact ih (h.serve call).2

theorem simulates_shadows : Bus.Simulates (Shadows : SystemBus δ → SystemBus δ → Prop) where
  read h address :=
    let hserve := h.serve (.read address)
    ⟨Option.some.inj hserve.1, hserve.2⟩
  write h address value := (h.serve (.write address value)).2
  tick h := (h.serve .tick).2

/-- After any calls, those of a session among them, the next one goes to one place only, or to all
peripherals in their order, and the deliveries are all that the peripherals go through.  Where
claims stay as they are, no calls reach the memory behind a claimed address, and none tell whether
there is one more peripheral, which claims only what others claim. -/
theorem calls_reach_one_place {σ : Type} [Sink σ] (bus : SystemBus δ) :
    (∀ calls, (bus.after calls).Routes ∧
      Peripheral.Follows bus.peripherals (bus.trail calls) (bus.after calls).peripherals) ∧
      (∀ (cpu : Cpu) requests (sink : σ),
        let r := cpu.performAll requests bus sink
        let calls := (cpu.watched requests bus ()).bus.calls.map BusCall.served
        r.bus = bus.after calls ∧
          cpu.performAll requests (Switchboard.fresh bus) sink =
            ⟨r.value, r.cpu, ⟨r.bus, bus.trail calls⟩, r.sink⟩) ∧
      (bus.Steady →
        (∀ address, bus.Claimed address →
          (∀ calls, (bus.after calls).memory.read address = bus.memory.read address) ∧
          ∀ (cpu : Cpu) requests (sink : σ),
            (cpu.performAll requests bus sink).bus.memory.read address =
              bus.memory.read address) ∧
        ∀ extra, Peripheral.Steady extra →
          (∀ address, Peripheral.claims extra address = true → bus.Claimed address) →
          (∀ calls, (bus.attach extra).answers calls = bus.answers calls ∧
            ∃ left, (bus.attach extra).after calls = (bus.after calls).attach left) ∧
          ∀ (cpu : Cpu) requests (sink : σ),
            let plain := cpu.performAll requests bus sink
            ∃ left, cpu.performAll requests (bus.attach extra) sink =
              ⟨plain.value, plain.cpu, plain.bus.attach left, plain.sink⟩) := by
  refine ⟨fun calls => ⟨(bus.after calls).routes, bus.follows_trail calls⟩, ?_,
    fun hsteady => ⟨?_, ?_⟩⟩
  · intro cpu requests sink
    exact ⟨bus.performAll_bus cpu requests sink, bus.performAll_board cpu requests sink⟩
  · intro address hclaimed
    have hhides : bus.Hides address (bus.memory.read address) := ⟨hsteady, hclaimed, rfl⟩
    refine ⟨fun calls => (hhides.after calls).hidden, fun cpu requests sink => ?_⟩
    rw [bus.performAll_bus cpu requests sink]
    exact (hhides.after _).hidden
  · intro extra hextra hcovered
    have hshadows : bus.Shadows (bus.attach extra) := ⟨hsteady, extra, hextra, hcovered, rfl⟩
    refine ⟨fun calls => ⟨hshadows.answers calls, ?_⟩, fun cpu requests sink => ?_⟩
    · rcases hshadows.after calls with ⟨-, left, -, -, hleft⟩
      exact ⟨left, hleft⟩
    · rcases cpu.performAll_simulates simulates_shadows requests sink hshadows with
        ⟨_, ⟨-, left, -, -, rfl⟩, hrun⟩
      exact ⟨left, hrun⟩

end SystemBus

/-- A register that answers throughout its window. -/
structure Latch where
  first : UInt16
  last : UInt16
  value : UInt8
deriving DecidableEq

instance : Peripheral Latch where
  claims latch address := latch.first ≤ address && address ≤ latch.last
  read latch _ := (latch.value, latch)
  write latch _ value := { latch with value := value }
  reset latch := { latch with value := 0 }

theorem Latch.steady (latch : Latch) : Peripheral.Steady latch := by
  intro received
  induction received generalizing latch with
  | nil => rfl
  | cons call rest ih => cases call <;> exact ih _

/-- Two latches that overlap lie over the whole stack, and a third one behind them lies over parts
of both. -/
theorem stack_behind_latches :
    let bus : SystemBus Latch := ⟨Memory.zeroed, #[⟨0x100, 0x17F, 0⟩, ⟨0x140, 0x1FF, 0⟩]⟩
    let requests : List Request := [.pushWord 0x1234]
    let r := (Cpu.ofSetup default).performAll requests bus ()
    r.bus.peripherals = #[⟨0x100, 0x17F, 0x12⟩, ⟨0x140, 0x1FF, 0x34⟩] ∧
      r.bus.memory.read 0x1FF = 0 ∧
      ∃ left, (Cpu.ofSetup default).performAll requests (bus.attach ⟨0x120, 0x190, 7⟩) () =
        ⟨r.value, r.cpu, r.bus.attach left, ()⟩ := by
  intro bus requests r
  have hsteady : bus.Steady := fun latch _ => latch.steady
  have hclaimed : bus.Claimed 0x1FF := ⟨⟨0x140, 0x1FF, 0⟩, by simp [bus], rfl⟩
  have hcovered : ∀ address, Peripheral.claims (⟨0x120, 0x190, 7⟩ : Latch) address = true →
      bus.Claimed address := by
    intro address hclaims
    have hwindow : 0x120 ≤ address ∧ address ≤ 0x190 := by
      simpa [Peripheral.claims] using hclaims
    by_cases hfirst : address ≤ 0x17F
    · refine ⟨⟨0x100, 0x17F, 0⟩, by simp [bus], ?_⟩
      have hlow : 0x100 ≤ address := by grind
      simp [Peripheral.claims, hlow, hfirst]
    · refine ⟨⟨0x140, 0x1FF, 0⟩, by simp [bus], ?_⟩
      have hlow : 0x140 ≤ address := by grind
      have hhigh : address ≤ 0x1FF := by grind
      simp [Peripheral.claims, hlow, hhigh]
  rcases (bus.calls_reach_one_place (σ := Unit)).2.2 hsteady with ⟨hmemory, hshadowed⟩
  refine ⟨by decide +kernel, ?_, ?_⟩
  · exact ((hmemory 0x1FF hclaimed).2 _ requests ()).trans (Memory.read_zeroed 0x1FF)
  · exact (hshadowed _ (Latch.steady _) hcovered).2 _ requests ()

/-- The clock goes round in the order in which the peripherals stand. -/
example :
    let bus : SystemBus Latch := ⟨Memory.zeroed, #[⟨0, 0, 5⟩, ⟨0, 0, 6⟩, ⟨0, 0, 7⟩]⟩
    (bus.trail [.tick, .tick]).map Delivery.index = [0, 1, 2, 0, 1, 2] := by
  decide

end Nmos6502
