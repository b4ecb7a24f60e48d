import Nmos6502.Fault
import Nmos6502.Opcode.Defect
import Nmos6502.Proofs.Quoting
import Nmos6502.Proofs.Rendering

/-!
# What a message says

No two faults have one message, and no two defects of a table.  The kind is told by the wording, and
what a message is about stands in it in full: bytes and addresses in fixed width, counts up to the
next blank, a mode between quotes.  The name of an instruction stands as it is, whatever it holds,
but nothing of variable length follows it.
-/

namespace Nmos6502

/-! ## Faults -/

namespace Fault

def initial : Fault → Char
  | unimplementedOpcode .. => 'u'
  | instructionNotImplemented .. => 'i'
  | resetRequired => 'c'

theorem head?_message (f : Fault) : f.message.toList.head? = some f.initial := by
  unfold message
  cases f <;> simp [initial]

theorem message_injective : Function.Injective message := by
  intro f g h
  have hinitial : f.initial = g.initial := by
    rw [← Option.some_inj, ← head?_message, h, head?_message]
  unfold message at h
  cases f with
  | unimplementedOpcode opcode pc =>
      cases g with
      | unimplementedOpcode =>
          rcases Text.append_inj_of_length_right (by simp) h with ⟨hfront, hpc⟩
          rw [String.append_left_inj, String.append_right_inj] at hfront
          rw [Text.hexByte_injective hfront, Text.hexWord_injective hpc]
      | _ => simp [initial] at hinitial
  | instructionNotImplemented name opcode pc =>
      cases g with
      | instructionNotImplemented =>
          -- The name may itself look like what follows it, so the message is taken apart from its
          -- end.
          dsimp only at h
          rw [String.append_left_inj] at h
          rcases Text.append_inj_of_length_right (by simp) h with ⟨hfront, hpc⟩
          rw [String.append_left_inj] at hfront
          rcases Text.append_inj_of_length_right (by simp) hfront with ⟨hname, hopcode⟩
          rw [String.append_left_inj, String.append_right_inj] at hname
          rw [hname, Text.hexByte_injective hopcode, Text.hexWord_injective hpc]
      | _ => simp [initial] at hinitial
  | resetRequired =>
      cases g with
      | resetRequired => rfl
      | _ => simp [initial] at hinitial

end Fault

/-! ## Defects of tables -/

namespace Opcode.Defect

/-- The message without the opcode that all begin with. -/
def remark : Defect → String
  | duplicateOpcode _ => " is defined more than once"
  | unknownMode _ mode => " uses unknown addressing mode " ++ Text.quote mode
  | lengthMismatch _ bytes expected =>
    " declares " ++ toString bytes.toNat ++ " bytes but its mode needs " ++ toString expected.toNat
  | zeroCycles _ => " declares a zero cycle cost"
  | excessiveCycles _ cycles limit =>
    " declares " ++ toString cycles.toNat ++ " cycles, at most " ++ toString limit.toNat ++
      " allowed"

theorem message_eq (d : Defect) : d.message = "opcode $" ++ Text.hexByte d.opcode ++ d.remark := by
  cases d <;> rfl

/-- The first twelve characters of a remark, not counting digits. -/
def opening : Defect → String
  | duplicateOpcode _ => " is defined "
  | unknownMode _ _ => " uses unknow"
  | lengthMismatch _ _ _ => " declares  b"
  | zeroCycles _ => " declares a "
  | excessiveCycles _ _ _ => " declares  c"

theorem filter_not_isDigit_toString (n : Nat) :
    (toString n).toList.filter (fun c => !c.isDigit) = [] := by
  rw [Text.toList_toString, List.filter_eq_nil_iff]
  intro c hmem
  simp [Text.isDigit_of_mem_toDigits hmem]

theorem take_remark (d : Defect) :
    (d.remark.toList.filter fun c => !c.isDigit).take 12 = d.opening.toList := by
  unfold remark opening
  cases d with
  | duplicateOpcode opcode =>
      dsimp only
      rfl
  | unknownMode opcode mode =>
      simp only [String.toList_append, List.filter_append]
      rfl
  | lengthMismatch opcode bytes expected =>
      simp only [String.toList_append, List.filter_append, filter_not_isDigit_toString]
      rfl
  | zeroCycles opcode =>
      dsimp only
      rfl
  | excessiveCycles opcode cycles limit =>
      simp only [String.toList_append, List.filter_append, filter_not_isDigit_toString]
      rfl

theorem opening_eq_of_remark {d e : Defect} (h : d.remark = e.remark) : d.opening = e.opening := by
  rw [← String.toList_inj, ← take_remark, h, take_remark]

theorem eq_of_remark {d e : Defect} (hopcode : d.opcode = e.opcode) (h : d.remark = e.remark) :
    d = e := by
  have hopening := opening_eq_of_remark h
  unfold remark at h
  cases d with
  | duplicateOpcode opcode =>
      cases e with
      | duplicateOpcode => exact congrArg duplicateOpcode hopcode
      | _ => simp [opening] at hopening
  | unknownMode opcode mode =>
      cases e with
      | unknownMode =>
          dsimp only at h
          rw [String.append_right_inj] at h
          exact congrArg₂ unknownMode hopcode (Text.quote_injective h)
      | _ => simp [opening] at hopening
  | lengthMismatch opcode bytes expected =>
      cases e with
      | lengthMismatch opcode' bytes' expected' =>
          obtain rfl : opcode = opcode' := hopcode
          simp only [String.append_assoc, String.append_right_inj] at h
          rcases Text.toString_append_inj (by simp [Text.EndsNumber]) (by simp [Text.EndsNumber])
            h with
            ⟨hbytes, h⟩
          rw [String.append_right_inj] at h
          have hexpected := UInt8.toNat_inj.mp (Text.toString_injective h)
          rw [UInt8.toNat_inj.mp hbytes, hexpected]
      | _ => simp [opening] at hopening
  | zeroCycles opcode =>
      cases e with
      | zeroCycles => exact congrArg zeroCycles hopcode
      | _ => simp [opening] at hopening
  | excessiveCycles opcode cycles limit =>
      cases e with
      | excessiveCycles opcode' cycles' limit' =>
          obtain rfl : opcode = opcode' := hopcode
          simp only [String.append_assoc, String.append_right_inj] at h
          rcases Text.toString_append_inj (by simp [Text.EndsNumber]) (by simp [Text.EndsNumber])
            h with
            ⟨hcycles, h⟩
          rw [String.append_right_inj, String.append_left_inj] at h
          have hlimit := UInt8.toNat_inj.mp (Text.toString_injective h)
          rw [UInt8.toNat_inj.mp hcycles, hlimit]
      | _ => simp [opening] at hopening

theorem message_injective : Function.Injective message := by
  intro d e h
  rw [message_eq, message_eq, String.append_assoc, String.append_assoc,
    String.append_right_inj] at h
  rcases Text.append_inj_of_length_left (by simp) h with ⟨hopcode, hremark⟩
  exact eq_of_remark (Text.hexByte_injective hopcode) hremark

end Opcode.Defect

/-- Every message names one fault or one defect of a table.  In the messages that quote a mode, the
quoted text is any text at all, in one line, with no quotes that count but the two around it, and
can be read back; the last holds whichever characters are taken to be printable. -/
theorem messages_are_unambiguous :
    (∀ f g : Fault, f.message = g.message ↔ f = g) ∧
      (∀ d e : Opcode.Defect, d.message = e.message ↔ d = e) ∧
      (∀ (opcode : UInt8) (mode : String),
        (Opcode.Defect.unknownMode opcode mode).message =
          "opcode $" ++ Text.hexByte opcode ++
            (" uses unknown addressing mode " ++ Text.quote mode)) ∧
      (∀ s : String, ∃ body,
        (Text.quote s).toList = '"' :: (body ++ ['"']) ∧ Text.Spelled s.toList body ∧
          Text.unescape? body = some s.toList ∧
          Text.bareQuotes (Text.quote s).toList = [0, (Text.quote s).length - 1] ∧
          ∀ c ∈ Text.lineBreaks, c ∉ (Text.quote s).toList) ∧
      ∀ cs body, Text.Spelled cs body →
        Text.unescape? body = some cs ∧ Text.bareQuotes body = [] ∧ '\n' ∉ body ∧ '\r' ∉ body := by
  refine ⟨fun f g => Fault.message_injective.eq_iff,
    fun d e => Opcode.Defect.message_injective.eq_iff, fun opcode mode => rfl, fun s => ?_,
    fun cs body hspelled => ?_⟩
  · have hspelled := Text.spelled_escape s.toList
    exact ⟨Text.escape s.toList, Text.toList_quote s, hspelled, hspelled.unescape?,
      Text.bareQuotes_quote s, fun c hbreak => Text.not_mem_quote_of_break hbreak s⟩
  · have hbare := hspelled.bareQuotes_append []
    rw [List.append_nil] at hbare
    exact ⟨hspelled.unescape?, hbare, hspelled.not_mem_of_short⟩

end Nmos6502
