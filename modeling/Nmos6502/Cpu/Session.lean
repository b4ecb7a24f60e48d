import Nmos6502.Cpu

/-!
# Sessions

The requests that a host makes of a processor, as data, so that a whole course of them can be
spoken about.  `Cpu.perform` carries out one of them and `Cpu.performAll` a list in turn.
-/

namespace Nmos6502

inductive Request where
  | reset (kind : ResetKind)
  | step
  | execute
  | pushByte (value : UInt8)
  | pushWord (value : UInt16)
  | pullByte
  | pullWord
  | resolve (mode : AddressingMode)
  | setRegister (register : Register) (value : UInt8)
  | setSp (value : UInt8)
  | setPc (value : UInt16)
  | setPending (cycles : UInt8)
  /-- Installs the bits as they are. -/
  | setStatus (status : Status)
deriving DecidableEq, Repr

inductive Reply where
  | done
  | phase (result : Except Fault Phase)
  | clocks (result : Except Fault Nat)
  | byte (value : UInt8)
  | word (value : UInt16)
  | place (ea : EffectiveAddress)

namespace Request

open Engine

/-- Carries `f` out at once, without the bus. -/
def adjust (f : Core → Core) (e : Engine) : Traffic Mark (Reply × Engine) :=
  pure (.done, { e with toCore := f e.toCore })

def task (setup : Setup) (e : Engine) : Request → Traffic Mark (Reply × Engine)
  | .reset kind => Prod.map (fun _ => .done) id <$> Engine.reset kind e
  | .step => Prod.map .phase id <$> Engine.step setup e
  | .execute => Prod.map .clocks id <$> Engine.execute setup e
  | .pushByte value => intervene (fun c => Prod.mk .done <$> c.pushByte value) e
  | .pushWord value => intervene (fun c => Prod.mk .done <$> c.pushWord value) e
  | .pullByte => intervene (fun c => Prod.map .byte id <$> c.pullByte) e
  | .pullWord => intervene (fun c => Prod.map .word id <$> c.pullWord) e
  | .resolve mode => intervene (fun c => Prod.map .place id <$> c.resolve mode) e
  | .setRegister register value => adjust (fun c => c.setRegister register value) e
  | .setSp value => adjust (fun c => c.setSp value) e
  | .setPc value => adjust (fun c => c.setPc value) e
  | .setPending cycles => pure (.done, { e with pendingCycles := cycles })
  | .setStatus status => adjust (fun c => c.setStatus status) e

end Request

namespace Cpu

variable {β σ : Type} [Bus β] [Sink σ]

def perform (cpu : Cpu) (request : Request) (bus : β) (sink : σ) : Report Reply β σ :=
  cpu.drive (fun e => request.task cpu.setup e) bus sink

def performAll (cpu : Cpu) : List Request → β → σ → Report (List Reply) β σ
  | [], bus, sink => ⟨[], cpu, bus, sink⟩
  | request :: rest, bus, sink =>
    let first := cpu.perform request bus sink
    let later := first.cpu.performAll rest first.bus first.sink
    { later with value := first.value :: later.value }

end Cpu

end Nmos6502
