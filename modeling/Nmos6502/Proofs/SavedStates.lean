import Nmos6502.Proofs.Forms

/-!
# What is saved and what is read back

The written forms of the states and records that can be saved.  Each is exact: numbers have their
full width, no field may be missing, others are passed over, and a word stands for one case only.  A
processor that is restored from what was written holds what was saved.
-/

namespace Nmos6502.Serial

/-! ## The forms -/

namespace Form

def byte : Form := number UInt8.size

def address : Form := number UInt16.size

def clocks : Form := number UInt64.size

def mnemonic : Form := word (Mnemonic.all.map Mnemonic.identifier)

def addressingMode : Form := word (AddressingMode.all.map AddressingMode.identifier)

def resetKind : Form := word (ResetKind.all.map ResetKind.identifier)

def direction : Form := word (Direction.all.map Direction.identifier)

def status : Form := record [("bits", byte)]

def registers : Form :=
  record [("a", byte), ("x", byte), ("y", byte), ("sp", byte), ("pc", address)]

def snapshot : Form :=
  record
    [("registers", registers), ("status", status), ("pending_cycles", byte),
      ("total_cycles", clocks), ("reset_done", flag)]

def config : Form := record [("page_cross_penalty", flag), ("power_on_sp", byte)]

def opcodeRecord : Form :=
  record
    [("opcode", byte), ("mnemonic", text), ("addressing mode", text), ("bytes", byte),
      ("cycles", byte)]

def access : Form :=
  record [("cycle", clocks), ("address", address), ("data", byte), ("operation", direction)]

end Form

/-! ## Words -/

theorem exact_mnemonic : Exact Mnemonic .mnemonic :=
  exact_word Mnemonic.mem_all (by decide) (fun _ => rfl) (fun _ => rfl)

theorem exact_addressingMode : Exact AddressingMode .addressingMode :=
  exact_word AddressingMode.mem_all (by decide) (fun _ => rfl) (fun _ => rfl)

theorem exact_resetKind : Exact ResetKind .resetKind :=
  exact_word (fun kind => by cases kind <;> decide) (by decide) (fun _ => rfl) (fun _ => rfl)

theorem exact_direction : Exact Direction .direction :=
  exact_word (fun d => by cases d <;> decide) (by decide) (fun _ => rfl) (fun _ => rfl)

/-! ## Objects -/

open Fields (Lists)

def statusLayout : Layout Status :=
  Lists.layout (.of (.single exact_uint8) (fun _ => rfl) fun _ => rfl) (by decide)

def registersLayout : Layout Registers :=
  Lists.layout
    (.of (.cons exact_uint8 <| .cons exact_uint8 <| .cons exact_uint8 <| .cons exact_uint8 <|
        .single exact_uint16)
      (fun _ => rfl) fun _ => rfl)
    (by decide)

def snapshotLayout : Layout Snapshot :=
  Lists.layout
    (.of (.cons registersLayout.exact <| .cons statusLayout.exact <| .cons exact_uint8 <|
        .cons exact_uint64 <| .single exact_bool)
      (fun _ => rfl) fun _ => rfl)
    (by decide)

def configLayout : Layout Config :=
  Lists.layout (.of (.cons exact_bool <| .single exact_uint8) (fun _ => rfl) fun _ => rfl)
    (by decide)

def opcodeRecordLayout : Layout Opcode.Record :=
  Lists.layout
    (.of (.cons exact_uint8 <| .cons exact_string <| .cons exact_string <| .cons exact_uint8 <|
        .single exact_uint8)
      (fun _ => rfl) fun _ => rfl)
    (by decide)

def accessLayout : Layout Access :=
  Lists.layout
    (.of (.cons exact_uint64 <| .cons exact_uint16 <| .cons exact_uint8 <| .single exact_direction)
      (fun _ => rfl) fun _ => rfl)
    (by decide)

/-- Whatever can be saved is written in its form and read back as it was, nothing but its form is
read, and what is read is what stood in the fields of the form.  So a processor restored from a
written snapshot is the one restored from the snapshot. -/
theorem saved_forms_are_exact :
    (Exact Status .status ∧ Exact Registers .registers ∧ Exact Snapshot .snapshot ∧
        Exact Config .config ∧ Exact Opcode.Record .opcodeRecord ∧ Exact Access .access) ∧
      (Exact Mnemonic .mnemonic ∧ Exact AddressingMode .addressingMode ∧
        Exact ResetKind .resetKind ∧ Exact Direction .direction) ∧
      ∀ (cpu : Cpu) (saved : Snapshot),
        (decode? (encode saved)).map cpu.restore = some (cpu.restore saved) := by
  refine ⟨⟨statusLayout.exact, registersLayout.exact, snapshotLayout.exact, configLayout.exact,
    opcodeRecordLayout.exact, accessLayout.exact⟩,
    ⟨exact_mnemonic, exact_addressingMode, exact_resetKind, exact_direction⟩, fun cpu saved => ?_⟩
  rw [snapshotLayout.exact.decode_encode, Option.map_some]

/-- Fields may stand in any order and among others. -/
example :
    (decode? (.object
      [("operation", .text "Write"), ("note", .list []), ("data", .integer 255),
        ("address", .integer 0xFFFC), ("cycle", .integer 0xFFFFFFFFFFFFFFFF)]) : Option Access) =
      some ⟨0xFFFFFFFFFFFFFFFF, 0xFFFC, 255, .write⟩ := by
  rfl

end Nmos6502.Serial
