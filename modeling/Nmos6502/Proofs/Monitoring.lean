import Mathlib.Data.List.DropRight
import Nmos6502.Proofs.Rendering
import Nmos6502.Trace.Monitor

/-!
# What a monitor keeps

However events and clearings follow each other, a monitor holds the accesses since it was last
cleared, in order and as they were reported.  Its reads and its writes are what this list consists
of.  The line that the log has for an access is the line of no other access.
-/

namespace Nmos6502

/-! ## Feeding a monitor -/

namespace Monitor

/-- What can be done to a monitor. -/
inductive Command where
  | event (e : Event)
  | clear

namespace Command

def isClear : Command → Bool
  | clear => true
  | event _ => false

/-- The access that is reported, if one is. -/
def access? : Command → Option Access
  | event (.accessed access) => some access
  | _ => none

/-- The commands after the last clearing, or all if there is none. -/
def sinceClear (commands : List Command) : List Command :=
  commands.rtakeWhile fun command => !command.isClear

end Command

def obey (m : Monitor) : Command → Monitor
  | .event e => Sink.event m e
  | .clear => m.clear

def after (m : Monitor) (commands : List Command) : Monitor :=
  commands.foldl obey m

theorem after_concat (m : Monitor) (commands : List Command) (command : Command) :
    m.after (commands ++ [command]) = (m.after commands).obey command := by
  rw [after, List.foldl_append, after, List.foldl_cons, List.foldl_nil]

theorem accesses_event (m : Monitor) (e : Event) :
    (m.obey (.event e)).accesses.toList =
      m.accesses.toList ++ (Command.access? (.event e)).toList := by
  cases e with
  | accessed access => exact Array.toList_push
  | _ => exact (List.append_nil _).symm

theorem accesses_after (commands : List Command) :
    (empty.after commands).accesses.toList =
      (Command.sinceClear commands).filterMap Command.access? := by
  induction commands using List.reverseRecOn with
  | nil => rfl
  | append_singleton commands command ih =>
      rw [after_concat, Command.sinceClear, List.rtakeWhile_concat]
      cases command with
      | event e =>
          rw [accesses_event, ih, Command.isClear, Bool.not_false, if_pos rfl,
            List.filterMap_append, Command.sinceClear]
          cases hreported : Command.access? (.event e) <;> simp [hreported]
      | clear => rfl

/-! ## Reads and writes -/

section Parts

variable (m : Monitor)

theorem toList_reads :
    m.reads.toList = m.accesses.toList.filter fun access => access.direction == .read :=
  Array.toList_filter

theorem toList_writes :
    m.writes.toList = m.accesses.toList.filter fun access => !(access.direction == .read) := by
  have hother : ∀ d : Direction, (d == .write) = !(d == .read) := fun d => by
    cases d <;> rfl
  simp only [writes, Array.toList_filter, hother]

theorem reads_append_writes_perm :
    (m.reads.toList ++ m.writes.toList).Perm m.accesses.toList := by
  rw [toList_reads, toList_writes]
  exact List.filter_append_perm _ _

theorem size_eq_reads_add_writes : m.size = m.reads.size + m.writes.size := by
  have hlength := m.reads_append_writes_perm.length_eq
  rw [List.length_append] at hlength
  exact hlength.symm

theorem direction_of_mem_reads {access : Access} (hmem : access ∈ m.reads) :
    access.direction = .read := by
  simpa using (Array.mem_filter.mp hmem).2

theorem direction_of_mem_writes {access : Access} (hmem : access ∈ m.writes) :
    access.direction = .write := by
  simpa using (Array.mem_filter.mp hmem).2

end Parts

end Monitor

/-! ## Lines of the log -/

theorem Direction.tag_injective : Function.Injective tag := by
  intro d other htag
  cases d <;> cases other
  case read.read | write.write => rfl
  case read.write | write.read => exact absurd htag (by decide)

theorem Access.line_injective : Function.Injective line := by
  intro a b hline
  -- All that follows the cycle has a fixed width, so the line is taken apart from its end.
  rcases Text.append_inj_of_length_right (by simp) hline with ⟨hline, hdata⟩
  rw [String.append_left_inj] at hline
  rcases Text.append_inj_of_length_right (by simp) hline with ⟨hline, haddress⟩
  rw [String.append_left_inj] at hline
  rcases Text.append_inj_of_length_right (by simp) hline with ⟨hline, htag⟩
  rw [String.append_left_inj] at hline
  have hcycle := UInt64.toNat_inj.mp (Text.alignRight_toString_inj hline)
  have hdirection := Direction.tag_injective (String.singleton_inj.mp htag)
  rcases a with ⟨cycle, address, data, direction⟩
  rcases b with ⟨_, _, _, _⟩
  simp only [Access.mk.injEq]
  exact ⟨hcycle, Text.hexWord_injective haddress, Text.hexByte_injective hdata, hdirection⟩

example : Access.line ⟨7, 0xFFFD, 0x80, .read⟩ = "     7 R $FFFD $80" := by
  decide

/-- Whatever a monitor is fed, it holds the accesses since it was last cleared, as they were
reported; reads and writes make up this list, each in its order.  An access can be told from its
line. -/
theorem monitors_lose_nothing :
    (∀ commands : List Monitor.Command,
      let m := Monitor.empty.after commands
      let recent := Monitor.Command.sinceClear commands
      let seen := recent.filterMap Monitor.Command.access?
      m.accesses.toList = seen ∧
        m.reads.toList.Sublist seen ∧ (∀ access ∈ m.reads, access.direction = .read) ∧
        m.writes.toList.Sublist seen ∧ (∀ access ∈ m.writes, access.direction = .write) ∧
        (m.reads.toList ++ m.writes.toList).Perm seen ∧
        m.size = seen.length ∧ m.size = m.reads.size + m.writes.size ∧
        (m.isEmpty = true ↔ ∀ command ∈ recent, command.access? = none) ∧
        m.last? = seen.getLast?) ∧
      ∀ a b : Access, a.line = b.line ↔ a = b := by
  refine ⟨fun commands => ?_, fun a b => Access.line_injective.eq_iff⟩
  intro m recent seen
  have hseen : m.accesses.toList = seen := Monitor.accesses_after commands
  have hempty : m.isEmpty = true ↔ ∀ command ∈ recent, command.access? = none := by
    rw [Monitor.isEmpty, ← Array.isEmpty_toList, hseen, List.isEmpty_iff, List.filterMap_eq_nil_iff]
  have hlast : m.last? = seen.getLast? := by
    rw [Monitor.last?, ← Array.getLast?_toList, hseen]
  rw [← hseen] at hlast ⊢
  refine ⟨rfl, ?_, fun access => m.direction_of_mem_reads, ?_,
    fun access => m.direction_of_mem_writes, m.reads_append_writes_perm, rfl,
    m.size_eq_reads_add_writes, hempty, hlast⟩
  · rw [m.toList_reads]
    exact List.filter_sublist
  · rw [m.toList_writes]
    exact List.filter_sublist

end Nmos6502
