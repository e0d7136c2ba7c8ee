import RserveClient.Foundation.Embedding

/-!
# Asking first and listening then

A program that asks first and then only listens cannot tell whether the answers come while
it asks or have been there from the start. So its run beside an environment that answers is
its run on what the environment is going to say.
-/

namespace Interaction

variable {Op : Type} {Res : Op → Type} {α β : Type} {W S E σ ε : Type}

namespace Prog

variable {P Q R : Op → Prop}

/-- Operations with `P` first, and from the first other one on only operations with `Q`. -/
def Phases (P Q : Op → Prop) : Prog Op Res α → Prop
  | .ret _ => True
  | .call op next => (P op ∧ ∀ r, (next r).Phases P Q) ∨ (Q op ∧ ∀ r, (next r).Only Q)

theorem Only.mono {p : Prog Op Res α} (hp : p.Only P) (hPR : ∀ op, P op → R op) : p.Only R := by
  induction p with
  | ret a => trivial
  | call op next ih => exact ⟨hPR op hp.1, fun r => ih r (hp.2 r)⟩

theorem Only.phases {p : Prog Op Res α} (hp : p.Only Q) : p.Phases P Q := by
  cases p with
  | ret a => trivial
  | call op next => exact Or.inr hp

theorem Phases.only {p : Prog Op Res α} (hp : p.Phases P Q) (hP : ∀ op, P op → R op)
    (hQ : ∀ op, Q op → R op) : p.Only R := by
  induction p with
  | ret a => trivial
  | call op next ih =>
      rcases hp with ⟨hop, hnext⟩ | ⟨hop, hnext⟩
      · exact ⟨hP op hop, fun r => ih r (hnext r)⟩
      · exact ⟨hQ op hop, fun r => (hnext r).mono hQ⟩

theorem Phases.mono {p : Prog Op Res α} (hp : p.Phases P Q) (hQR : ∀ op, Q op → R op) :
    p.Phases P R := by
  induction p with
  | ret a => trivial
  | call op next ih =>
      rcases hp with ⟨hop, hnext⟩ | ⟨hop, hnext⟩
      · exact Or.inl ⟨hop, fun r => ih r (hnext r)⟩
      · exact Or.inr ⟨hQR op hop, fun r => (hnext r).mono hQR⟩

theorem Phases.bind {p : Prog Op Res α} {f : α → Prog Op Res β} (hp : p.Phases P Q)
    (hf : ∀ a, (f a).Only Q) : (p.bind f).Phases P Q := by
  induction p with
  | ret a => exact (hf a).phases
  | call op next ih =>
      rcases hp with ⟨hop, hnext⟩ | ⟨hop, hnext⟩
      · exact Or.inl ⟨hop, fun r => ih r (hnext r)⟩
      · exact Or.inr ⟨hop, fun r => (hnext r).bind hf⟩

theorem Only.bindPhases {p : Prog Op Res α} {f : α → Prog Op Res β} (hp : p.Only P)
    (hf : ∀ a, (f a).Phases P Q) : (p.bind f).Phases P Q := by
  induction p with
  | ret a => exact hf a
  | call op next ih => exact Or.inl ⟨hp.1, fun r => ih r (hp.2 r)⟩

end Prog

namespace Proc

variable {P Q : Op → Prop}

/-- From all variables the procedure has these two phases. -/
def Phases (P Q : Op → Prop) (p : Proc Op Res σ ε α) : Prop := ∀ s, (p s).Phases P Q

theorem Only.phases {p : Proc Op Res σ ε α} (hp : Only Q p) : Phases P Q p :=
  fun s => (hp s).phases

theorem Only.bindPhases {p : Proc Op Res σ ε α} {f : α → Proc Op Res σ ε β} (hp : Only P p)
    (hf : ∀ a, Phases P Q (f a)) : Phases P Q (p >>= f) := by
  intro s
  apply (hp s).bindPhases
  rintro ⟨e | a, s'⟩
  · trivial
  · exact hf a s'

theorem Phases.finish {p : Proc Op Res σ ε α} (hp : Phases P Q p) (s : σ)
    (bye : Except ε α → σ → β) : (p.finish s bye).Phases P Q :=
  (hp s).bind fun _ => trivial

theorem only_pure (a : α) : Only P (pure a : Proc Op Res σ ε α) := fun _ => trivial

theorem only_update (f : σ → σ) : Only P (update f : Proc Op Res σ ε Unit) := fun _ => trivial

theorem only_view (f : σ → α) : Only P (view f : Proc Op Res σ ε α) := fun _ => trivial

/-- Stepping over a check. -/
theorem only_exitIf_bind {c : Prop} {inst : Decidable c} {e : ε} {f : Unit → Proc Op Res σ ε α}
    (hf : Only P (f ())) : Only P (exitIf c e >>= f) :=
  (only_exitIf c e).bind fun _ => hf

theorem only_lift {p : Prog Op Res α} (hp : p.Only P) : Only P (lift p : Proc Op Res σ ε α) :=
  fun _ => hp.bind fun _ => trivial

end Proc

section Related

variable {h : Handler Op Res W} {R : W → W → Prop} {P : Op → Prop}

/-- The operations answer alike in related worlds and leave them related. -/
abbrev AnswersAlike (h : Handler Op Res W) (R : W → W → Prop) (P : Op → Prop) : Prop :=
  ∀ op, P op → ∀ w w', R w w' → (h op w).1 = (h op w').1 ∧ R (h op w).2 (h op w').2

theorem Prog.Only.run_alike (hP : AnswersAlike h R P) {p : Prog Op Res α} (hp : p.Only P)
    {w w' : W} (hw : R w w') : (p.run h w).1 = (p.run h w').1 ∧ R (p.run h w).2 (p.run h w').2 := by
  induction p generalizing w w' with
  | ret a => exact ⟨rfl, hw⟩
  | call op next ih =>
      obtain ⟨hres, hnext⟩ := hP op hp.1 w w' hw
      rw [Prog.run_call, Prog.run_call, ← hres]
      exact ih _ (hp.2 _) hnext

theorem Proc.Only.respects (hP : AnswersAlike h R P) {p : Proc Op Res σ ε α} (hp : Only P p) :
    Respects h R p := by
  intro s w w' hw
  obtain ⟨hval, hworld⟩ := (hp s).run_alike hP hw
  exact ⟨congrArg Prod.fst hval, congrArg Prod.snd hval, hworld⟩

/-- What the operations leave alone a program of them leaves alone. -/
theorem Prog.Only.run_frame {γ : Type} (obs : W → γ)
    (hP : ∀ op, P op → ∀ w, obs (h op w).2 = obs w) {p : Prog Op Res α} (hp : p.Only P)
    (w : W) : obs (p.run h w).2 = obs w := by
  induction p generalizing w with
  | ret a => rfl
  | call op next ih => exact (ih _ (hp.2 _) _).trans (hP op hp.1 w)

/-- A relation may be joined with what the operations leave alone. -/
theorem Proc.Respects.and_frame {γ : Type} (obs : W → γ)
    (hP : ∀ op, P op → ∀ w, obs (h op w).2 = obs w) {p : Proc Op Res σ ε α}
    (hrespects : Respects h R p) (hp : Only P p) :
    Respects h (fun w w' => R w w' ∧ obs w = obs w') p := by
  rintro s w w' ⟨hw, hobs⟩
  obtain ⟨hexit, hvars, hworld⟩ := hrespects s w w' hw
  refine ⟨hexit, hvars, hworld, ?_⟩
  exact ((hp s).run_frame obs hP w).trans (hobs.trans ((hp s).run_frame obs hP w').symm)

end Related

/-- What an environment in state `S` says when an operation has been performed. -/
abbrev Reaction (Op : Type) (Res : Op → Type) (S E : Type) := (op : Op) → Res op → S → S × List E

/-- A world that takes what is said at its end. Operations with `P` go on before it, and only
they are answered. -/
structure Inlet {Op : Type} {Res : Op → Type} {W S E : Type} (P Q : Op → Prop)
    (h : Handler Op Res W) (react : Reaction Op Res S E) where
  extend : W → List E → W
  extend_nil : ∀ w, extend w [] = w
  extend_extend : ∀ w as bs, extend (extend w as) bs = extend w (as ++ bs)
  before : ∀ op, P op → ∀ w es, h op (extend w es) = ((h op w).1, extend (h op w).2 es)
  quiet : ∀ op, Q op → ∀ r s, react op r s = (s, [])

/-- What the environment says while a program runs on what is there, and its state then. -/
def Prog.reaction (h : Handler Op Res W) (react : Reaction Op Res S E) :
    Prog Op Res α → W → S → S × List E
  | .ret _, _, s => (s, [])
  | .call op next, w, s =>
      let r := h op w
      let e := react op r.1 s
      let rest := (next r.1).reaction h react r.2 e.1
      (rest.1, e.2 ++ rest.2)

namespace Inlet

variable {P Q : Op → Prop} {h : Handler Op Res W} {react : Reaction Op Res S E}
variable (inlet : Inlet P Q h react)

/-- What the environment says is added at once. -/
def live : Handler Op Res (W × S) := fun op v =>
  let r := h op v.1
  let e := react op r.1 v.2
  (r.1, inlet.extend r.2 e.2, e.1)

include inlet in
theorem reaction_only {p : Prog Op Res α} (hp : p.Only Q) (w : W) (s : S) :
    p.reaction h react w s = (s, []) := by
  induction p generalizing w with
  | ret a => rfl
  | call op next ih => rw [Prog.reaction, inlet.quiet op hp.1, ih _ (hp.2 _), List.append_nil]

theorem run_live_only {p : Prog Op Res α} (hp : p.Only Q) (w : W) (s : S) :
    p.run inlet.live (w, s) = ((p.run h w).1, (p.run h w).2, s) := by
  induction p generalizing w with
  | ret a => rfl
  | call op next ih =>
      have hstep : inlet.live op (w, s) = ((h op w).1, (h op w).2, s) := by
        simp only [live, inlet.quiet op hp.1, inlet.extend_nil]
      rw [Prog.run_call, hstep, ih _ (hp.2 _), Prog.run_call]

/-- The asking part is not affected by what is there to be heard. -/
theorem reaction_extend {p : Prog Op Res α} (hp : p.Phases P Q) (w : W) (es : List E) (s : S) :
    p.reaction h react (inlet.extend w es) s = p.reaction h react w s := by
  induction p generalizing w s with
  | ret a => rfl
  | call op next ih =>
      rcases hp with ⟨hop, hnext⟩ | hlisten
      · rw [Prog.reaction, Prog.reaction, inlet.before op hop, ih _ (hnext _)]
      · have honly : (Prog.call op next).Only Q := hlisten
        rw [inlet.reaction_only honly, inlet.reaction_only honly]

/-- The run beside the environment is the run on what the environment says. -/
theorem run_live {p : Prog Op Res α} (hp : p.Phases P Q) (w : W) (s : S) :
    p.run inlet.live (w, s) =
      ((p.run h (inlet.extend w (p.reaction h react w s).2)).1,
        (p.run h (inlet.extend w (p.reaction h react w s).2)).2, (p.reaction h react w s).1) := by
  induction p generalizing w s with
  | ret a =>
      rw [Prog.reaction, inlet.extend_nil]
      rfl
  | call op next ih =>
      rcases hp with ⟨hop, hnext⟩ | hlisten
      · rw [Prog.run_call, live, Prog.reaction]
        dsimp only
        rw [ih _ (hnext _), inlet.reaction_extend (hnext _), inlet.extend_extend, Prog.run_call,
          inlet.before op hop]
      · have honly : (Prog.call op next).Only Q := hlisten
        rw [inlet.reaction_only honly, inlet.extend_nil, inlet.run_live_only honly]

end Inlet

end Interaction
