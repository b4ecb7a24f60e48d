import Nmos6502.Proofs.Calls

/-!
# Clocks that are counted and clocks that are made

The processor counts its clocks and clocks the bus in two separate places of a tree.  A tree is
paired if the two stand next to each other throughout: what is counted is clocked at once, and
nothing is clocked that has not been counted.  Steps, resets and the requests of a session are
paired, so that no count can go wrong by a clock, whatever the bus answers.
-/

namespace Nmos6502

namespace Traffic

variable {α γ : Type}

/-- Every count is followed at once by a tick, and no tick stands elsewhere.  If `owing`, a clock
has been counted for which the bus has yet to be clocked. -/
def Paired : Traffic Mark α → (owing : Bool) → Prop
  | done _, owing => owing = false
  | read _ next, owing => owing = false ∧ ∀ byte, (next byte).Paired false
  | write _ _ next, owing => owing = false ∧ next.Paired false
  | mark .count next, owing => owing = false ∧ next.Paired true
  | mark .tick next, owing => owing = true ∧ next.Paired false
  | mark _ next, owing => owing = false ∧ next.Paired false

theorem Paired.bind
    {t : Traffic Mark α} {f : α → Traffic Mark γ} {owing : Bool} (ht : t.Paired owing)
    (hf : ∀ value, (f value).Paired false) :
    (t >>= f).Paired owing := by
  induction t generalizing owing with
  | done value =>
      obtain rfl : owing = false := ht
      exact hf value
  | read address next ih => exact ⟨ht.1, fun byte => ih byte (ht.2 byte)⟩
  | write address value next ih => exact ⟨ht.1, ih ht.2⟩
  | mark m next ih => cases m <;> exact ⟨ht.1, ih ht.2⟩

theorem Paired.map {t : Traffic Mark α} (ht : t.Paired false) (f : α → γ) :
    (f <$> t).Paired false := by
  rw [map_eq_pure_bind]
  exact ht.bind fun _ => rfl

theorem Paired.traced {t : Traffic Mark α} {owing : Bool} (ht : t.Paired owing) :
    t.traced.Paired owing := by
  induction t generalizing owing with
  | done value => exact ht
  | read address next ih => exact ⟨ht.1, fun byte => ⟨rfl, ih byte (ht.2 byte)⟩⟩
  | write address value next ih => exact ⟨ht.1, rfl, ih ht.2⟩
  | mark m next ih => cases m <;> exact ⟨ht.1, ih ht.2⟩

theorem paired_embed (t : Work α) : (t.embed : Traffic Mark α).Paired false := by
  induction t with
  | done value => rfl
  | read address next ih => exact ⟨rfl, ih⟩
  | write address value next ih => exact ⟨rfl, ih⟩
  | mark m next ih => exact m.elim

end Traffic

open Traffic

theorem Core.instruction_paired (setup : Setup) (c : Core) :
    (c.instruction setup).Paired false := by
  unfold instruction
  refine (paired_embed _).traced.bind fun fetched => ⟨rfl, ?_⟩
  split
  · exact ⟨rfl, rfl, rfl⟩
  · split
    · exact ⟨rfl, rfl, rfl⟩
    · exact ⟨rfl, (paired_embed _).traced.bind fun _ => ⟨rfl, rfl⟩⟩

namespace Engine

/-- A clock of its own: it is counted, the bus is clocked, and that is all. -/
theorem step_paired (setup : Setup) (e : Engine) : (step setup e).Paired false := by
  unfold step
  split
  · rfl
  · split
    · refine (e.toCore.instruction_paired setup).bind fun r => ?_
      rcases r with ⟨result, core⟩
      cases result with
      | error fault => rfl
      | ok cycles => exact ⟨rfl, rfl, rfl⟩
    · exact ⟨rfl, rfl, rfl⟩

theorem clockedRead_paired (address : UInt16) : (clockedRead address).Paired false :=
  (paired_embed _).traced.bind fun _ => ⟨rfl, rfl, rfl⟩

theorem untilRetired_paired
    (setup : Setup) (fetched : Bool) (clocks fuel : Nat) (e : Engine) :
    (untilRetired setup fetched clocks fuel e).Paired false := by
  induction fuel generalizing fetched clocks e with
  | zero => rfl
  | succ fuel ih =>
      refine (step_paired setup e).bind fun r => ?_
      rcases r with ⟨result, e⟩
      cases result with
      | error fault => rfl
      | ok phase =>
          simp only
          split
          · rfl
          · exact ih _ _ e

theorem execute_paired (setup : Setup) (e : Engine) : (execute setup e).Paired false :=
  (untilRetired_paired setup false 0 _ e).bind fun _ => rfl

theorem reset_paired (kind : ResetKind) (e : Engine) : (reset kind e).Paired false := by
  refine ⟨rfl, ?_⟩
  iterate 7 refine (clockedRead_paired _).bind fun _ => ?_
  exact ⟨rfl, rfl, rfl⟩

theorem intervene_paired {α : Type} (work : Core → Work (α × Core)) (e : Engine) :
    (intervene work e).Paired false :=
  (paired_embed _).bind fun _ => rfl

end Engine

namespace Request

theorem task_paired (setup : Setup) (e : Engine) (request : Request) :
    (request.task setup e).Paired false := by
  unfold task
  cases request with
  | reset kind => exact (e.reset_paired kind).map _
  | step => exact (e.step_paired setup).map _
  | execute => exact (e.execute_paired setup).map _
  | pushByte value => exact e.intervene_paired _
  | pushWord value => exact e.intervene_paired _
  | pullByte => exact e.intervene_paired _
  | pullWord => exact e.intervene_paired _
  | resolve mode => exact e.intervene_paired _
  | setRegister register value => rfl
  | setSp value => rfl
  | setPc value => rfl
  | setPending cycles => rfl
  | setStatus status => rfl

theorem tasks_paired (setup : Setup) (requests : List Request) (e : Engine) :
    (tasks setup requests e).Paired false := by
  induction requests generalizing e with
  | nil => rfl
  | cons request rest ih =>
      exact (request.task_paired setup e).bind fun first => (ih first.2).bind fun _ => rfl

end Request

end Nmos6502
