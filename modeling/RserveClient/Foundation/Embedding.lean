import RserveClient.Foundation.Interaction

/-!
# Programs in a larger interface

A program becomes one of a larger interface when each of its operations is performed
there. If the larger world holds the smaller one as a part and answers these operations
by it alone, the run is that of the part.
-/

namespace Interaction

variable {Op Op' : Type} {Res : Op → Type} {Res' : Op' → Type} {α β : Type} {W W' σ ε : Type}

/-- A part of a world that can be looked at and exchanged. -/
structure View (W' W : Type) where
  get : W' → W
  set : W → W' → W'
  get_set : ∀ w v, get (set w v) = w
  set_get : ∀ v, set (get v) v = v
  set_set : ∀ w₁ w₂ v, set w₂ (set w₁ v) = set w₂ v

namespace Prog

/-- Every operation is performed by a program of the larger interface. -/
def via (impl : (op : Op) → Prog Op' Res' (Res op)) : Prog Op Res α → Prog Op' Res' α
  | .ret a => .ret a
  | .call op next => (impl op).bind fun r => (next r).via impl

/-- Whatever is replied, the program performs only operations with `P`. -/
def Only (P : Op → Prop) : Prog Op Res α → Prop
  | .ret _ => True
  | .call op next => P op ∧ ∀ r, (next r).Only P

variable {P : Op → Prop}

theorem Only.bind {p : Prog Op Res α} {f : α → Prog Op Res β} (hp : p.Only P)
    (hf : ∀ a, (f a).Only P) : (p.bind f).Only P := by
  induction p with
  | ret a => exact hf a
  | call op next ih => exact ⟨hp.1, fun r => ih r (hp.2 r)⟩

/-- The run of the part. -/
theorem run_via {h : Handler Op Res W} {h' : Handler Op' Res' W'}
    {impl : (op : Op) → Prog Op' Res' (Res op)} (view : View W' W)
    (himpl : ∀ op v, P op → run h' (impl op) v =
      ((h op (view.get v)).1, view.set (h op (view.get v)).2 v))
    {p : Prog Op Res α} (hp : p.Only P) (v : W') :
    run h' (p.via impl) v =
      ((run h p (view.get v)).1, view.set (run h p (view.get v)).2 v) := by
  induction p generalizing v with
  | ret a =>
      rw [via, run_ret, run_ret, view.set_get]
  | call op next ih =>
      rw [via, run_bind', himpl op v hp.1, run_call, ih _ (hp.2 _), view.get_set, view.set_set]

end Prog

namespace Proc

/-- From all variables the procedure performs only operations with `P`. -/
def Only (P : Op → Prop) (p : Proc Op Res σ ε α) : Prop := ∀ s, (p s).Only P

section Only

variable {P : Op → Prop}

theorem only_exit (e : ε) : Only P (exit e : Proc Op Res σ ε α) := fun _ => trivial

theorem only_exitIf (c : Prop) [Decidable c] (e : ε) :
    Only P (exitIf c e : Proc Op Res σ ε Unit) := by
  intro s
  rw [exitIf]
  split <;> trivial

theorem only_ofExcept (x : Except ε α) : Only P (ofExcept x : Proc Op Res σ ε α) := by
  cases x <;> exact fun _ => trivial

theorem only_perform {op : Op} (h : P op) :
    Only P (lift (Prog.perform op) : Proc Op Res σ ε (Res op)) := fun _ => ⟨h, fun _ => trivial⟩

theorem Only.bind {p : Proc Op Res σ ε α} {f : α → Proc Op Res σ ε β} (hp : Only P p)
    (hf : ∀ a, Only P (f a)) : Only P (p >>= f) := by
  intro s
  apply (hp s).bind
  rintro ⟨e | a, s'⟩
  · trivial
  · exact hf a s'

theorem Only.finish {p : Proc Op Res σ ε α} (hp : Only P p) (s : σ)
    (bye : Except ε α → σ → β) : (p.finish s bye).Only P :=
  (hp s).bind fun _ => trivial

end Only

end Proc

end Interaction
