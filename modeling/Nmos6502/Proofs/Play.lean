import Nmos6502.Traffic

/-!
# Playing a tree

What a tree keeps however the bus answers, and what does not depend on who looks on.
`Traffic.Ensures` bounds the writes of a tree and the results it can end in; it is proved along the
tree once and then holds of every play.  The sink of a play neither decides its result nor what
becomes of the bus, and work inside one clock leaves the count of clocks alone.
-/

namespace Nmos6502

namespace Traffic

variable {ε α γ : Type}

/-- The tree writes only what `W` admits, and every result that it can end in has `P`. -/
def Ensures (W : UInt16 → UInt8 → Prop) (P : α → Prop) : Traffic ε α → Prop
  | done value => P value
  | read _ next => ∀ byte, (next byte).Ensures W P
  | write address value next => W address value ∧ next.Ensures W P
  | mark _ next => next.Ensures W P

section Ensures

variable {W V : UInt16 → UInt8 → Prop} {P Q : α → Prop}

@[simp] theorem ensures_done (value : α) :
    (done value : Traffic ε α).Ensures W P ↔ P value := Iff.rfl

@[simp] theorem ensures_read (address : UInt16) (next : UInt8 → Traffic ε α) :
    (read address next).Ensures W P ↔ ∀ byte, (next byte).Ensures W P := Iff.rfl

@[simp] theorem ensures_write (address : UInt16) (value : UInt8) (next : Traffic ε α) :
    (write address value next).Ensures W P ↔ W address value ∧ next.Ensures W P := Iff.rfl

@[simp] theorem ensures_mark (m : ε) (next : Traffic ε α) :
    (mark m next).Ensures W P ↔ next.Ensures W P := Iff.rfl

theorem ensures_true (t : Traffic ε α) : t.Ensures (fun _ _ => True) fun _ => True := by
  induction t with
  | done value => trivial
  | read address next ih => exact ih
  | write address value next ih => exact ⟨trivial, ih⟩
  | mark m next ih => exact ih

theorem Ensures.mono
    {t : Traffic ε α} (ht : t.Ensures W P)
    (hwrites : ∀ address value, W address value → V address value)
    (hresult : ∀ value, P value → Q value) :
    t.Ensures V Q := by
  induction t with
  | done value => exact hresult value ht
  | read address next ih =>
      intro byte
      exact ih byte (ht byte)
  | write address value next ih => exact ⟨hwrites address value ht.1, ih ht.2⟩
  | mark m next ih => exact ih ht

theorem Ensures.imp
    {t : Traffic ε α} (ht : t.Ensures W P) (hresult : ∀ value, P value → Q value) :
    t.Ensures W Q :=
  ht.mono (fun _ _ hwrite => hwrite) hresult

theorem Ensures.bind
    {R : γ → Prop} {t : Traffic ε α} {f : α → Traffic ε γ}
    (ht : t.Ensures W P)
    (hf : ∀ value, P value → (f value).Ensures W R) :
    (t >>= f).Ensures W R := by
  induction t with
  | done value => exact hf value ht
  | read address next ih =>
      intro byte
      exact ih byte (ht byte)
  | write address value next ih => exact ⟨ht.1, ih ht.2⟩
  | mark m next ih => exact ih ht

theorem Ensures.map
    {R : γ → Prop} {t : Traffic ε α} {f : α → γ}
    (ht : t.Ensures W P)
    (hf : ∀ value, P value → R (f value)) :
    (f <$> t).Ensures W R := by
  rw [map_eq_pure_bind]
  exact ht.bind hf

theorem Ensures.embed
    {t : Work α} (ht : t.Ensures W P) :
    (t.embed : Traffic ε α).Ensures W P := by
  induction t with
  | done value => exact ht
  | read address next ih =>
      intro byte
      exact ih byte (ht byte)
  | write address value next ih => exact ⟨ht.1, ih ht.2⟩
  | mark m next ih => exact m.elim

end Ensures

@[simp] theorem ensures_traced
    {W : UInt16 → UInt8 → Prop} {P : α → Prop} (t : Traffic Mark α) :
    t.traced.Ensures W P ↔ t.Ensures W P := by
  induction t with
  | done value => rfl
  | read address next ih => exact forall_congr' ih
  | write address value next ih => exact and_congr_right fun _ => ih
  | mark m next ih => exact ih

theorem embed_bind (t : Work α) (f : α → Work γ) :
    ((t >>= f).embed : Traffic ε γ) = t.embed >>= fun value => (f value).embed := by
  induction t with
  | done value => rfl
  | read address next ih => simp only [read_bind, embed, ih]
  | write address value next ih => simp only [write_bind, embed, ih]
  | mark m next ih => exact m.elim

section Plays

variable {β σ : Type} [Bus β] [Sink σ]

theorem Ensures.run_value
    {W : UInt16 → UInt8 → Prop} {P : α → Prop} {t : Traffic Mark α} (ht : t.Ensures W P)
    (clock : UInt64) (bus : β) (sink : σ) :
    P (t.run clock bus sink).value := by
  induction t generalizing clock bus sink with
  | done value => exact ht
  | read address next ih => exact ih _ (ht _) _ _ _
  | write address value next ih => exact ih ht.2 _ _ _
  | mark m next ih => cases m <;> exact ih ht _ _ _

/-- Who looks on makes no difference to the result, to the clock or to the bus. -/
theorem run_unobserved (t : Traffic Mark α) (clock : UInt64) (bus : β) (sink : σ) :
    let o := t.run clock bus sink
    t.run clock bus () = ⟨o.value, o.clock, o.bus, ()⟩ := by
  induction t generalizing clock bus sink with
  | done value => rfl
  | read address next ih => exact ih _ _ _ _
  | write address value next ih => exact ih _ _ _
  | mark m next ih => cases m <;> exact ih _ _ _

/-- Reports make no difference but to those who are told. -/
theorem run_traced
    {τ : Type} [Sink τ] (t : Traffic Mark α) (clock : UInt64) (bus : β) (sink : σ) (other : τ) :
    let o := t.run clock bus sink
    let r := t.traced.run clock bus other
    r.value = o.value ∧ r.clock = o.clock ∧ r.bus = o.bus := by
  induction t generalizing clock bus sink other with
  | done value => exact ⟨rfl, rfl, rfl⟩
  | read address next ih => exact ih _ _ _ _ _
  | write address value next ih => exact ih _ _ _ _
  | mark m next ih => cases m <;> exact ih _ _ _ _

@[simp] theorem run_embed_clock (t : Work α) (clock : UInt64) (bus : β) (sink : σ) :
    ((t.embed : Traffic Mark α).run clock bus sink).clock = clock := by
  induction t generalizing bus sink with
  | done value => rfl
  | read address next ih => exact ih _ _ _
  | write address value next ih => exact ih _ _
  | mark m next ih => exact m.elim

/-- Work inside one clock tells nobody of its own accord. -/
@[simp] theorem run_embed_sink (t : Work α) (clock : UInt64) (bus : β) (sink : σ) :
    ((t.embed : Traffic Mark α).run clock bus sink).sink = sink := by
  induction t generalizing bus with
  | done value => rfl
  | read address next ih => exact ih _ _
  | write address value next ih => exact ih _
  | mark m next ih => exact m.elim

@[simp] theorem run_embed_traced_clock (t : Work α) (clock : UInt64) (bus : β) (sink : σ) :
    ((t.embed : Traffic Mark α).traced.run clock bus sink).clock = clock :=
  (t.embed.run_traced clock bus () sink).2.1.trans (t.run_embed_clock clock bus ())

end Plays

end Traffic

end Nmos6502
