import Nmos6502.Trace.Diary
import Nmos6502.Trace.Event

/-!
# Sinks

A sink takes in the events of a run one by one, and the diary if it cares for it.  `Unit` keeps
nothing, an array of events keeps them all, `Diary` keeps the remarks, and a pair feeds both of
its halves.
-/

namespace Nmos6502

class Sink (σ : Type) where
  event : σ → Event → σ
  remark : σ → DiaryEntry → σ := fun sink _ => sink

instance : Sink Unit where
  event sink _ := sink

instance : Sink (Array Event) where
  event := Array.push

structure Diary where
  entries : Array DiaryEntry
deriving DecidableEq, Inhabited

instance : Sink Diary where
  event diary _ := diary
  remark diary entry := ⟨diary.entries.push entry⟩

instance {σ τ : Type} [Sink σ] [Sink τ] : Sink (σ × τ) where
  event sink e := (Sink.event sink.1 e, Sink.event sink.2 e)
  remark sink entry := (Sink.remark sink.1 entry, Sink.remark sink.2 entry)

end Nmos6502
