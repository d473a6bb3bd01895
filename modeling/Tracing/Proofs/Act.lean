import Tracing.Act

/-! # What acts keep and mirror

A property of states that an act keeps holds afterwards whatever the act returns, also when a panic cuts it
short. An act mirrors another on a part of its state if it does there just what the other does. -/

namespace Tracing.Act

variable {σ τ α β : Type} {P : σ → Prop}

/-- Wrapping a result up is no concern of a panic. -/
theorem wrapped_run {x : Act σ α} {s s' : σ} {strict : Bool} {p : Panic} {a : α} {events : List Event}
    (h : x s = (if strict then .error p else .ok a, s', events)) (f : α → β) :
    (do return f (← x) : Act σ β) s = (if strict then .error p else .ok (f a), s', events) := by
  rw [Act.bind_run, h]
  cases strict <;> simp

/-- The act leaves a state with the property when run in one. -/
def Keeps (P : σ → Prop) (x : Act σ α) : Prop := ∀ s, P s → P (x s).2.1

namespace Keeps

theorem pure (a : α) : Keeps P (Pure.pure a : Act σ α) := fun _ h => h

theorem get : Keeps P Act.get := fun _ h => h

theorem emit (e : Event) : Keeps P (Act.emit e) := fun _ h => h

theorem panic (p : Panic) : Keeps P (Act.panic p : Act σ α) := fun _ h => h

theorem modify {f : σ → σ} (hf : ∀ s, P s → P (f s)) : Keeps P (Act.modify f) := hf

theorem update {f : σ → α × σ} (hf : ∀ s, P s → P (f s).2) : Keeps P (Act.update f) := hf

theorem bind {x : Act σ α} {f : α → Act σ β} (hx : Keeps P x) (hf : ∀ a, Keeps P (f a)) : Keeps P (x >>= f) := by
  intro s hs
  have hleft := hx s hs
  rw [Act.bind_run]
  split <;> rename_i heq <;> rw [heq] at hleft
  · exact hf _ _ hleft
  · exact hleft

theorem onPart {view : σ → τ} {put : τ → σ → σ} {x : Act τ α} (hput : ∀ part s, P s → P (put part s)) :
    Keeps P (Act.onPart view put x) := fun s hs => hput _ s hs

theorem misuse (strict : Bool) (e : UsageError) : Keeps P (Act.misuse strict e) := by
  refine bind (emit _) fun _ => ?_
  cases strict with
  | false => exact pure ()
  | true => exact panic _

end Keeps

/-- The act does just what the other does with the part of the state that is in view. -/
def Mirrors (view : σ → τ) (x : Act σ α) (y : Act τ α) : Prop := ∀ s, y (view s) = ((x s).1, view (x s).2.1, (x s).2.2)

/-- The act does so in one state. -/
def MirrorsAt (view : σ → τ) (s : σ) (x : Act σ α) (y : Act τ α) : Prop :=
  y (view s) = ((x s).1, view (x s).2.1, (x s).2.2)

namespace MirrorsAt
variable {view : σ → τ} {s : σ}

theorem bind {x : Act σ α} {y : Act τ α} {f : α → Act σ β} {g : α → Act τ β} (hx : MirrorsAt view s x y)
    (hf : ∀ a, Mirrors view (f a) (g a)) : MirrorsAt view s (x >>= f) (y >>= g) := by
  unfold MirrorsAt at hx ⊢
  rw [Act.bind_run, Act.bind_run, hx]
  rcases x s with ⟨_ | a, s', events⟩
  · rfl
  · dsimp only
    rw [hf a s']

/-- On a part it is enough to mirror there. -/
theorem onPart {ρ ρ' : Type} {part : σ → ρ} {put : ρ → σ → σ} {part' : τ → ρ'} {put' : ρ' → τ → τ} {inner : ρ → ρ'}
    {x : Act ρ α} {y : Act ρ' α} (hx : MirrorsAt inner (part s) x y) (hpart : part' (view s) = inner (part s))
    (hput : ∀ p, put' (inner p) (view s) = view (put p s)) :
    MirrorsAt view s (Act.onPart part put x) (Act.onPart part' put' y) := by
  unfold MirrorsAt Act.onPart at *
  rw [hpart, hx]
  dsimp only
  rw [hput]

theorem guard {x : Act σ α} {y : Act τ α} (hx : MirrorsAt view s x y) (operation : String) :
    MirrorsAt view s (Act.guard operation x) (Act.guard operation y) := by
  unfold MirrorsAt Act.guard at *
  rw [hx]
  rcases x s with ⟨_ | a, s', events⟩ <;> rfl

end MirrorsAt

namespace Mirrors
variable {view : σ → τ}

theorem pure (a : α) : Mirrors view (Pure.pure a : Act σ α) (Pure.pure a) := fun _ => rfl

theorem bind {x : Act σ α} {y : Act τ α} {f : α → Act σ β} {g : α → Act τ β} (hx : Mirrors view x y)
    (hf : ∀ a, Mirrors view (f a) (g a)) : Mirrors view (x >>= f) (y >>= g) := fun s => MirrorsAt.bind (hx s) hf

theorem emit (e : Event) : Mirrors view (Act.emit e) (Act.emit e) := fun _ => rfl

theorem modify {f : σ → σ} {g : τ → τ} (h : ∀ s, g (view s) = view (f s)) :
    Mirrors view (Act.modify f) (Act.modify g) := by
  intro s
  unfold Act.modify
  rw [h]

theorem update {f : σ → α × σ} {g : τ → α × τ} (h : ∀ s, g (view s) = ((f s).1, view (f s).2)) :
    Mirrors view (Act.update f) (Act.update g) := by
  intro s
  unfold Act.update
  rw [h]

theorem get_bind {f : σ → Act σ β} {g : τ → Act τ β} (h : ∀ s, Mirrors view (f s) (g (view s))) :
    Mirrors view (Act.get >>= f) (Act.get >>= g) := fun s => h s s

theorem onPart {ρ : Type} {part : σ → ρ} {put : ρ → σ → σ} {part' : τ → ρ} {put' : ρ → τ → τ} (x : Act ρ α)
    (hpart : ∀ s, part' (view s) = part s) (hput : ∀ p s, put' p (view s) = view (put p s)) :
    Mirrors view (Act.onPart part put x) (Act.onPart part' put' x) := fun s =>
  have hself : MirrorsAt id (part s) x x := rfl
  hself.onPart (hpart s) fun p => hput p s

theorem state {x : Act σ α} {y : Act τ α} (h : Mirrors view x y) (s : σ) : view (x s).2.1 = (y (view s)).2.1 := by
  rw [h s]

end Mirrors
end Tracing.Act
