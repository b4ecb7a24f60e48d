import Nmos6502.Opcode.Table

/-!
# The documented opcodes

The 151 documented opcodes of the NMOS 6502 with their lengths and base costs.  The surcharges for
page crossings and taken branches come on top.
-/

namespace Nmos6502.Opcode

/-- An entry under its mnemonic's own spelling. -/
def Entry.documented
    (opcode : UInt8) (mnemonic : Mnemonic) (mode : AddressingMode) (bytes cycles : UInt8)
    (hpos : 0 < cycles := by decide) (hle : cycles ≤ maxBaseCycles := by decide) : Entry :=
  ⟨opcode, mnemonic.spelling, some mnemonic, mode, bytes, cycles, hpos, hle⟩

open Entry in
def documentedEntries : List Entry :=
  [ documented 0x69 .adc .immediate 2 2,
    documented 0x65 .adc .zeroPage 2 3,
    documented 0x75 .adc .zeroPageX 2 4,
    documented 0x6D .adc .absolute 3 4,
    documented 0x7D .adc .absoluteX 3 4,
    documented 0x79 .adc .absoluteY 3 4,
    documented 0x61 .adc .indexedIndirect 2 6,
    documented 0x71 .adc .indirectIndexed 2 5,
    documented 0x29 .and .immediate 2 2,
    documented 0x25 .and .zeroPage 2 3,
    documented 0x35 .and .zeroPageX 2 4,
    documented 0x2D .and .absolute 3 4,
    documented 0x3D .and .absoluteX 3 4,
    documented 0x39 .and .absoluteY 3 4,
    documented 0x21 .and .indexedIndirect 2 6,
    documented 0x31 .and .indirectIndexed 2 5,
    documented 0x0A .asl .accumulator 1 2,
    documented 0x06 .asl .zeroPage 2 5,
    documented 0x16 .asl .zeroPageX 2 6,
    documented 0x0E .asl .absolute 3 6,
    documented 0x1E .asl .absoluteX 3 7,
    documented 0x10 .bpl .relative 2 2,
    documented 0x30 .bmi .relative 2 2,
    documented 0x50 .bvc .relative 2 2,
    documented 0x70 .bvs .relative 2 2,
    documented 0x90 .bcc .relative 2 2,
    documented 0xB0 .bcs .relative 2 2,
    documented 0xD0 .bne .relative 2 2,
    documented 0xF0 .beq .relative 2 2,
    documented 0x24 .bit .zeroPage 2 3,
    documented 0x2C .bit .absolute 3 4,
    documented 0x00 .brk .implied 1 7,
    documented 0x18 .clc .implied 1 2,
    documented 0xD8 .cld .implied 1 2,
    documented 0x58 .cli .implied 1 2,
    documented 0xB8 .clv .implied 1 2,
    documented 0xC9 .cmp .immediate 2 2,
    documented 0xC5 .cmp .zeroPage 2 3,
    documented 0xD5 .cmp .zeroPageX 2 4,
    documented 0xCD .cmp .absolute 3 4,
    documented 0xDD .cmp .absoluteX 3 4,
    documented 0xD9 .cmp .absoluteY 3 4,
    documented 0xC1 .cmp .indexedIndirect 2 6,
    documented 0xD1 .cmp .indirectIndexed 2 5,
    documented 0xE0 .cpx .immediate 2 2,
    documented 0xE4 .cpx .zeroPage 2 3,
    documented 0xEC .cpx .absolute 3 4,
    documented 0xC0 .cpy .immediate 2 2,
    documented 0xC4 .cpy .zeroPage 2 3,
    documented 0xCC .cpy .absolute 3 4,
    documented 0xC6 .dec .zeroPage 2 5,
    documented 0xD6 .dec .zeroPageX 2 6,
    documented 0xCE .dec .absolute 3 6,
    documented 0xDE .dec .absoluteX 3 7,
    documented 0xCA .dex .implied 1 2,
    documented 0x88 .dey .implied 1 2,
    documented 0x49 .eor .immediate 2 2,
    documented 0x45 .eor .zeroPage 2 3,
    documented 0x55 .eor .zeroPageX 2 4,
    documented 0x4D .eor .absolute 3 4,
    documented 0x5D .eor .absoluteX 3 4,
    documented 0x59 .eor .absoluteY 3 4,
    documented 0x41 .eor .indexedIndirect 2 6,
    documented 0x51 .eor .indirectIndexed 2 5,
    documented 0xE6 .inc .zeroPage 2 5,
    documented 0xF6 .inc .zeroPageX 2 6,
    documented 0xEE .inc .absolute 3 6,
    documented 0xFE .inc .absoluteX 3 7,
    documented 0xE8 .inx .implied 1 2,
    documented 0xC8 .iny .implied 1 2,
    documented 0x4C .jmp .absolute 3 3,
    documented 0x6C .jmp .indirect 3 5,
    documented 0x20 .jsr .absolute 3 6,
    documented 0xA9 .lda .immediate 2 2,
    documented 0xA5 .lda .zeroPage 2 3,
    documented 0xB5 .lda .zeroPageX 2 4,
    documented 0xAD .lda .absolute 3 4,
    documented 0xBD .lda .absoluteX 3 4,
    documented 0xB9 .lda .absoluteY 3 4,
    documented 0xA1 .lda .indexedIndirect 2 6,
    documented 0xB1 .lda .indirectIndexed 2 5,
    documented 0xA2 .ldx .immediate 2 2,
    documented 0xA6 .ldx .zeroPage 2 3,
    documented 0xB6 .ldx .zeroPageY 2 4,
    documented 0xAE .ldx .absolute 3 4,
    documented 0xBE .ldx .absoluteY 3 4,
    documented 0xA0 .ldy .immediate 2 2,
    documented 0xA4 .ldy .zeroPage 2 3,
    documented 0xB4 .ldy .zeroPageX 2 4,
    documented 0xAC .ldy .absolute 3 4,
    documented 0xBC .ldy .absoluteX 3 4,
    documented 0x4A .lsr .accumulator 1 2,
    documented 0x46 .lsr .zeroPage 2 5,
    documented 0x56 .lsr .zeroPageX 2 6,
    documented 0x4E .lsr .absolute 3 6,
    documented 0x5E .lsr .absoluteX 3 7,
    documented 0xEA .nop .implied 1 2,
    documented 0x09 .ora .immediate 2 2,
    documented 0x05 .ora .zeroPage 2 3,
    documented 0x15 .ora .zeroPageX 2 4,
    documented 0x0D .ora .absolute 3 4,
    documented 0x1D .ora .absoluteX 3 4,
    documented 0x19 .ora .absoluteY 3 4,
    documented 0x01 .ora .indexedIndirect 2 6,
    documented 0x11 .ora .indirectIndexed 2 5,
    documented 0x48 .pha .implied 1 3,
    documented 0x08 .php .implied 1 3,
    documented 0x68 .pla .implied 1 4,
    documented 0x28 .plp .implied 1 4,
    documented 0x2A .rol .accumulator 1 2,
    documented 0x26 .rol .zeroPage 2 5,
    documented 0x36 .rol .zeroPageX 2 6,
    documented 0x2E .rol .absolute 3 6,
    documented 0x3E .rol .absoluteX 3 7,
    documented 0x6A .ror .accumulator 1 2,
    documented 0x66 .ror .zeroPage 2 5,
    documented 0x76 .ror .zeroPageX 2 6,
    documented 0x6E .ror .absolute 3 6,
    documented 0x7E .ror .absoluteX 3 7,
    documented 0x40 .rti .implied 1 6,
    documented 0x60 .rts .implied 1 6,
    documented 0xE9 .sbc .immediate 2 2,
    documented 0xE5 .sbc .zeroPage 2 3,
    documented 0xF5 .sbc .zeroPageX 2 4,
    documented 0xED .sbc .absolute 3 4,
    documented 0xFD .sbc .absoluteX 3 4,
    documented 0xF9 .sbc .absoluteY 3 4,
    documented 0xE1 .sbc .indexedIndirect 2 6,
    documented 0xF1 .sbc .indirectIndexed 2 5,
    documented 0x38 .sec .implied 1 2,
    documented 0xF8 .sed .implied 1 2,
    documented 0x78 .sei .implied 1 2,
    documented 0x85 .sta .zeroPage 2 3,
    documented 0x95 .sta .zeroPageX 2 4,
    documented 0x8D .sta .absolute 3 4,
    documented 0x9D .sta .absoluteX 3 5,
    documented 0x99 .sta .absoluteY 3 5,
    documented 0x81 .sta .indexedIndirect 2 6,
    documented 0x91 .sta .indirectIndexed 2 6,
    documented 0x86 .stx .zeroPage 2 3,
    documented 0x96 .stx .zeroPageY 2 4,
    documented 0x8E .stx .absolute 3 4,
    documented 0x84 .sty .zeroPage 2 3,
    documented 0x94 .sty .zeroPageX 2 4,
    documented 0x8C .sty .absolute 3 4,
    documented 0xAA .tax .implied 1 2,
    documented 0xA8 .tay .implied 1 2,
    documented 0xBA .tsx .implied 1 2,
    documented 0x8A .txa .implied 1 2,
    documented 0x9A .txs .implied 1 2,
    documented 0x98 .tya .implied 1 2 ]

namespace Table

/-- The table of the documented opcodes. -/
def documented : Table := ofEntries documentedEntries

instance : Inhabited Table := ⟨documented⟩

end Table

end Nmos6502.Opcode
