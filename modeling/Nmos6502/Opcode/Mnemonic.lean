import Nmos6502.Text.Blank

/-!
# Mnemonics

The 56 documented instructions.  A mnemonic is read whatever the case of its letters, and only if
nothing else stands around it.
-/

namespace Nmos6502

inductive Mnemonic where
  | adc | and | asl | bcc | bcs | beq | bit | bmi | bne | bpl | brk | bvc | bvs | clc | cld
  | cli | clv | cmp | cpx | cpy | dec | dex | dey | eor | inc | inx | iny | jmp | jsr | lda
  | ldx | ldy | lsr | nop | ora | pha | php | pla | plp | rol | ror | rti | rts | sbc | sec
  | sed | sei | sta | stx | sty | tax | tay | tsx | txa | txs | tya
deriving DecidableEq, Repr

namespace Mnemonic

/-- The mnemonics in alphabetical order. -/
def all : List Mnemonic :=
  [ adc, and, asl, bcc, bcs, beq, bit, bmi, bne, bpl, brk, bvc, bvs, clc, cld, cli, clv, cmp,
    cpx, cpy, dec, dex, dey, eor, inc, inx, iny, jmp, jsr, lda, ldx, ldy, lsr, nop, ora, pha,
    php, pla, plp, rol, ror, rti, rts, sbc, sec, sed, sei, sta, stx, sty, tax, tay, tsx, txa,
    txs, tya ]

/-- The spelling in listings. -/
def spelling : Mnemonic → String
  | adc => "ADC" | and => "AND" | asl => "ASL" | bcc => "BCC"
  | bcs => "BCS" | beq => "BEQ" | bit => "BIT" | bmi => "BMI"
  | bne => "BNE" | bpl => "BPL" | brk => "BRK" | bvc => "BVC"
  | bvs => "BVS" | clc => "CLC" | cld => "CLD" | cli => "CLI"
  | clv => "CLV" | cmp => "CMP" | cpx => "CPX" | cpy => "CPY"
  | dec => "DEC" | dex => "DEX" | dey => "DEY" | eor => "EOR"
  | inc => "INC" | inx => "INX" | iny => "INY" | jmp => "JMP"
  | jsr => "JSR" | lda => "LDA" | ldx => "LDX" | ldy => "LDY"
  | lsr => "LSR" | nop => "NOP" | ora => "ORA" | pha => "PHA"
  | php => "PHP" | pla => "PLA" | plp => "PLP" | rol => "ROL"
  | ror => "ROR" | rti => "RTI" | rts => "RTS" | sbc => "SBC"
  | sec => "SEC" | sed => "SED" | sei => "SEI" | sta => "STA"
  | stx => "STX" | sty => "STY" | tax => "TAX" | tay => "TAY"
  | tsx => "TSX" | txa => "TXA" | txs => "TXS" | tya => "TYA"

/-- The spelling in saved states. -/
def identifier : Mnemonic → String
  | adc => "Adc" | and => "And" | asl => "Asl" | bcc => "Bcc"
  | bcs => "Bcs" | beq => "Beq" | bit => "Bit" | bmi => "Bmi"
  | bne => "Bne" | bpl => "Bpl" | brk => "Brk" | bvc => "Bvc"
  | bvs => "Bvs" | clc => "Clc" | cld => "Cld" | cli => "Cli"
  | clv => "Clv" | cmp => "Cmp" | cpx => "Cpx" | cpy => "Cpy"
  | dec => "Dec" | dex => "Dex" | dey => "Dey" | eor => "Eor"
  | inc => "Inc" | inx => "Inx" | iny => "Iny" | jmp => "Jmp"
  | jsr => "Jsr" | lda => "Lda" | ldx => "Ldx" | ldy => "Ldy"
  | lsr => "Lsr" | nop => "Nop" | ora => "Ora" | pha => "Pha"
  | php => "Php" | pla => "Pla" | plp => "Plp" | rol => "Rol"
  | ror => "Ror" | rti => "Rti" | rts => "Rts" | sbc => "Sbc"
  | sec => "Sec" | sed => "Sed" | sei => "Sei" | sta => "Sta"
  | stx => "Stx" | sty => "Sty" | tax => "Tax" | tay => "Tay"
  | tsx => "Tsx" | txa => "Txa" | txs => "Txs" | tya => "Tya"

def parse? (s : String) : Option Mnemonic :=
  all.find? fun m => Text.sameLetters s m.spelling

theorem mem_all (m : Mnemonic) : m ∈ all := by
  cases m <;> decide

end Mnemonic

end Nmos6502
