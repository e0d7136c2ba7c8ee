import Mathlib.Tactic.Common

/-!
# Programs that call their environment

A program is a tree: it ends with a value, or performs an operation and goes
on with the reply. Handlers answer the operations from a world state. A
procedure adds the variables of its caller and an early exit that keeps them.

## Implementation notes

The tree is kept, rather than a state-passing function, because the same
program is run in one piece by a handler and step by step against a concurrent
environment.
-/

namespace Interaction

variable {Op : Type} {Res : Op → Type} {α β γ : Type} {W σ ε : Type}

/-- A sequence of fallible steps succeeds only through its first step. -/
theorem of_bind_eq_ok {x : Except ε α} {f : α → Except ε β} {b : β} (h : (x >>= f) = .ok b) :
    ∃ a, x = .ok a ∧ f a = .ok b := by
  cases x with
  | error e => cases h
  | ok a => exact ⟨a, rfl, h⟩

/-- A program over operations `Op`, each answered by a reply in `Res op`. -/
inductive Prog (Op : Type) (Res : Op → Type) (α : Type) where
  | ret (a : α)
  | call (op : Op) (next : Res op → Prog Op Res α)

/-- A handler answers one operation and moves the world. -/
abbrev Handler (Op : Type) (Res : Op → Type) (W : Type) :=
  (op : Op) → W → Res op × W

namespace Prog

def bind : Prog Op Res α → (α → Prog Op Res β) → Prog Op Res β
  | .ret a, f => f a
  | .call op next, f => .call op fun r => (next r).bind f

instance : Monad (Prog Op Res) where
  pure := .ret
  bind := Prog.bind

theorem bind_assoc' (p : Prog Op Res α) (f : α → Prog Op Res β) (g : β → Prog Op Res γ) :
    (p.bind f).bind g = p.bind fun a => (f a).bind g := by
  induction p with
  | ret a => rfl
  | call op next ih => exact congrArg (Prog.call op) (funext ih)

theorem bind_ret (p : Prog Op Res α) : p.bind .ret = p := by
  induction p with
  | ret a => rfl
  | call op next ih => exact congrArg (Prog.call op) (funext ih)

/-- The program that performs one operation and returns its reply. -/
def perform (op : Op) : Prog Op Res (Res op) := .call op .ret

/-- Run a program to its end, answering every operation by the handler. -/
def run (h : Handler Op Res W) : Prog Op Res α → W → α × W
  | .ret a, w => (a, w)
  | .call op next, w => run h (next (h op w).1) (h op w).2

@[simp] theorem run_ret (h : Handler Op Res W) (a : α) (w : W) :
    run h (.ret a) w = (a, w) := rfl

@[simp] theorem run_pure (h : Handler Op Res W) (a : α) (w : W) :
    run h (pure a) w = (a, w) := rfl

@[simp] theorem run_call (h : Handler Op Res W) (op : Op)
    (next : Res op → Prog Op Res α) (w : W) :
    run h (.call op next) w = run h (next (h op w).1) (h op w).2 := rfl

@[simp] theorem run_perform (h : Handler Op Res W) (op : Op) (w : W) :
    run h (perform op) w = h op w := rfl

theorem run_bind' (h : Handler Op Res W) (p : Prog Op Res α)
    (f : α → Prog Op Res β) (w : W) :
    run h (p.bind f) w = run h (f (run h p w).1) (run h p w).2 := by
  induction p generalizing w with
  | ret a => rfl
  | call op next ih => exact ih (h op w).1 (h op w).2

/-- A sequence runs its first part and then the rest from the world reached. -/
@[simp] theorem run_bind (h : Handler Op Res W) (p : Prog Op Res α)
    (f : α → Prog Op Res β) (w : W) :
    run h (p >>= f) w = run h (f (run h p w).1) (run h p w).2 :=
  run_bind' h p f w

@[simp] theorem run_ite (h : Handler Op Res W) (c : Prop) [Decidable c]
    (p q : Prog Op Res α) (w : W) :
    run h (if c then p else q) w = if c then run h p w else run h q w := by
  split <;> rfl

/-- What no answer makes larger, no run does. -/
theorem run_le {h : Handler Op Res W} (size : W → Nat) (hstep : ∀ op w, size (h op w).2 ≤ size w)
    (p : Prog Op Res α) (w : W) : size (run h p w).2 ≤ size w := by
  induction p generalizing w with
  | ret a => exact Nat.le_refl _
  | call op next ih => exact Nat.le_trans (ih (h op w).1 (h op w).2) (hstep op w)

/-- The number of operations a run performs. -/
def calls (h : Handler Op Res W) : Prog Op Res α → W → Nat
  | .ret _, _ => 0
  | .call op next, w => calls h (next (h op w).1) (h op w).2 + 1

theorem calls_bind (h : Handler Op Res W) (p : Prog Op Res α) (f : α → Prog Op Res β) (w : W) :
    calls h (p >>= f) w = calls h p w + calls h (f (run h p w).1) (run h p w).2 := by
  induction p generalizing w with
  | ret a => exact (Nat.zero_add _).symm
  | call op next ih =>
      calc
        calls h (.call op next >>= f) w = calls h (next (h op w).1 >>= f) (h op w).2 + 1 := rfl
        _ = _ := by
          rw [ih, calls, run_call]
          omega

section Along

variable {h : Handler Op Res W} {R : (op : Op) → Res op → Prop}

/-- Along the run every operation is answered as `R` says. -/
def Along (h : Handler Op Res W) (R : (op : Op) → Res op → Prop) : Prog Op Res α → W → Prop
  | .ret _, _ => True
  | .call op next, w => R op (h op w).1 ∧ Along h R (next (h op w).1) (h op w).2

def decidableAlong (h : Handler Op Res W) (R : (op : Op) → Res op → Prop)
    [∀ op r, Decidable (R op r)] : (p : Prog Op Res α) → (w : W) → Decidable (Along h R p w)
  | .ret _, _ => isTrue trivial
  | .call op next, w =>
      have := decidableAlong h R (next (h op w).1) (h op w).2
      inferInstanceAs (Decidable (R op (h op w).1 ∧ Along h R (next (h op w).1) (h op w).2))

instance [∀ op r, Decidable (R op r)] (p : Prog Op Res α) (w : W) : Decidable (Along h R p w) :=
  decidableAlong h R p w

theorem along_bind' {p : Prog Op Res α} {f : α → Prog Op Res β} {w : W} :
    Along h R (p.bind f) w ↔
      Along h R p w ∧ Along h R (f (Prog.run h p w).1) (Prog.run h p w).2 := by
  induction p generalizing w with
  | ret a => exact ⟨fun hf => ⟨trivial, hf⟩, fun hf => hf.2⟩
  | call op next ih =>
      constructor
      · rintro ⟨hop, hrest⟩
        obtain ⟨hnext, hf⟩ := (ih _).mp hrest
        exact ⟨⟨hop, hnext⟩, hf⟩
      · rintro ⟨⟨hop, hnext⟩, hf⟩
        exact ⟨hop, (ih _).mpr ⟨hnext, hf⟩⟩

end Along

end Prog

/-- A procedure works on variables `σ` and leaves with a value or an exit code;
either way the variables keep what was stored in them. -/
def Proc (Op : Type) (Res : Op → Type) (σ ε α : Type) :=
  σ → Prog Op Res (Except ε α × σ)

/-- What a procedure leaves behind when it ends. -/
structure Final (ε σ W α : Type) where
  exit : Except ε α
  vars : σ
  world : W

namespace Final

/-- Go on from a normal end; an early exit stays as it is. -/
def andThen (r : Final ε σ W α) (f : α → σ → W → Final ε σ W β) : Final ε σ W β :=
  match r with
  | ⟨.ok a, s, w⟩ => f a s w
  | ⟨.error e, s, w⟩ => ⟨.error e, s, w⟩

@[simp] theorem andThen_ok (a : α) (s : σ) (w : W) (f : α → σ → W → Final ε σ W β) :
    andThen ⟨.ok a, s, w⟩ f = f a s w := rfl

@[simp] theorem andThen_error (e : ε) (s : σ) (w : W)
    (f : α → σ → W → Final ε σ W β) :
    andThen ⟨.error e, s, w⟩ f = ⟨.error e, s, w⟩ := rfl

@[simp] theorem andThen_ite (c : Prop) [Decidable c] (p q : Final ε σ W α)
    (f : α → σ → W → Final ε σ W β) :
    (if c then p else q).andThen f = if c then p.andThen f else q.andThen f := by
  split <;> rfl

/-- Two ends that agree but for their worlds, which are related. -/
structure Alike (R : W → W → Prop) (r r' : Final ε σ W α) : Prop where
  exit : r.exit = r'.exit
  vars : r.vars = r'.vars
  world : R r.world r'.world

theorem Alike.andThen {R : W → W → Prop} {r r' : Final ε σ W α} (hr : r.Alike R r')
    {f : α → σ → W → Final ε σ W β}
    (hf : ∀ a, r.exit = .ok a → (f a r.vars r.world).Alike R (f a r'.vars r'.world)) :
    (r.andThen f).Alike R (r'.andThen f) := by
  obtain ⟨exit, s, w⟩ := r
  obtain ⟨exit', s', w'⟩ := r'
  obtain ⟨hexit, hvars, hworld⟩ := hr
  dsimp only at hexit hvars hworld
  subst hexit hvars
  cases exit with
  | error e => exact ⟨rfl, rfl, hworld⟩
  | ok a => exact hf a rfl

end Final

namespace Proc

/-- Go on from the end of a first part: its exit is an exit of the whole. -/
def resume (f : α → Proc Op Res σ ε β) :
    Except ε α × σ → Prog Op Res (Except ε β × σ)
  | (.ok a, s) => f a s
  | (.error e, s) => .ret (.error e, s)

instance : Monad (Proc Op Res σ ε) where
  pure a := fun s => .ret (.ok a, s)
  bind p f := fun s => (p s).bind (resume f)

theorem resume_pure : (resume fun a => (pure a : Proc Op Res σ ε α)) = Prog.ret := by
  funext r
  rcases r with ⟨e | a, s⟩ <;> rfl

theorem resume_resume (f : α → Proc Op Res σ ε β) (g : β → Proc Op Res σ ε γ)
    (r : Except ε α × σ) : (resume f r).bind (resume g) = resume (fun a => f a >>= g) r := by
  rcases r with ⟨e | a, s⟩ <;> rfl

instance : LawfulMonad (Proc Op Res σ ε) := by
  refine LawfulMonad.mk' _ ?_ ?_ ?_
  · intro α p
    funext s
    change (p s).bind (resume fun a => pure a) = p s
    rw [resume_pure, Prog.bind_ret]
  · intro α β a f
    rfl
  · intro α β γ p f g
    funext s
    change ((p s).bind (resume f)).bind (resume g) = (p s).bind (resume fun a => f a >>= g)
    rw [Prog.bind_assoc']
    exact congrArg _ (funext (resume_resume f g))

/-- A program that leaves the variables alone and cannot exit. -/
def lift (p : Prog Op Res α) : Proc Op Res σ ε α := fun s =>
  p.bind fun a => .ret (.ok a, s)

def exit (e : ε) : Proc Op Res σ ε α := fun s => .ret (.error e, s)

/-- Leave with `e` when the condition holds, and go on otherwise. -/
def exitIf (c : Prop) [Decidable c] (e : ε) : Proc Op Res σ ε Unit :=
  if c then exit e else pure ()

def ofExcept : Except ε α → Proc Op Res σ ε α
  | .ok a => pure a
  | .error e => exit e

def update (f : σ → σ) : Proc Op Res σ ε Unit := fun s => .ret (.ok (), f s)

/-- Look at the variables. -/
def view (f : σ → α) : Proc Op Res σ ε α := fun s => .ret (.ok (f s), s)

/-- End a procedure: its caller sees a value made from the exit and the
variables. -/
def finish (p : Proc Op Res σ ε α) (s : σ) (bye : Except ε α → σ → β) : Prog Op Res β :=
  (p s).bind fun r => .ret (bye r.1 r.2)

/-- Run a procedure from given variables and a given world. -/
def exec (h : Handler Op Res W) (p : Proc Op Res σ ε α) (s : σ) (w : W) :
    Final ε σ W α :=
  ⟨(Prog.run h (p s) w).1.1, (Prog.run h (p s) w).1.2, (Prog.run h (p s) w).2⟩

variable (h : Handler Op Res W) (s : σ) (w : W)

theorem run_finish (p : Proc Op Res σ ε α) (bye : Except ε α → σ → β) :
    Prog.run h (p.finish s bye) w =
      (bye (exec h p s w).exit (exec h p s w).vars, (exec h p s w).world) := by
  rw [finish, Prog.run_bind', Prog.run_ret]
  rfl

/-- The caller's view of a procedure whose end is known. -/
theorem run_finish_of_exec {h : Handler Op Res W} {s : σ} {w : W} {p : Proc Op Res σ ε α}
    {r : Final ε σ W α} (hexec : exec h p s w = r) (bye : Except ε α → σ → β) :
    Prog.run h (p.finish s bye) w = (bye r.exit r.vars, r.world) := by
  rw [run_finish, hexec]

@[simp] theorem exec_pure (a : α) :
    exec h (pure a : Proc Op Res σ ε α) s w = ⟨.ok a, s, w⟩ := rfl

@[simp] theorem exec_exit (e : ε) :
    exec h (exit e : Proc Op Res σ ε α) s w = ⟨.error e, s, w⟩ := rfl

@[simp] theorem exec_update (f : σ → σ) :
    exec h (update f : Proc Op Res σ ε Unit) s w = ⟨.ok (), f s, w⟩ := rfl

@[simp] theorem exec_view (f : σ → α) :
    exec h (view f : Proc Op Res σ ε α) s w = ⟨.ok (f s), s, w⟩ := rfl

@[simp] theorem exec_ofExcept_ok (a : α) :
    exec h (ofExcept (.ok a) : Proc Op Res σ ε α) s w = ⟨.ok a, s, w⟩ := rfl

@[simp] theorem exec_ofExcept_error (e : ε) :
    exec h (ofExcept (.error e) : Proc Op Res σ ε α) s w = ⟨.error e, s, w⟩ := rfl

@[simp] theorem exec_lift (p : Prog Op Res α) :
    exec h (lift p : Proc Op Res σ ε α) s w =
      ⟨.ok (Prog.run h p w).1, s, (Prog.run h p w).2⟩ := by
  simp only [exec, lift, Prog.run_bind', Prog.run_ret]

@[simp] theorem exec_ite (c : Prop) [Decidable c] (p q : Proc Op Res σ ε α) :
    exec h (if c then p else q) s w = if c then exec h p s w else exec h q s w := by
  split <;> rfl

@[simp] theorem exec_exitIf (c : Prop) [Decidable c] (e : ε) :
    exec h (exitIf c e : Proc Op Res σ ε Unit) s w =
      if c then ⟨.error e, s, w⟩ else ⟨.ok (), s, w⟩ := by
  simp only [exitIf, exec_ite, exec_exit, exec_pure]

/-- The rule of sequencing: an early exit of the first part ends the whole. -/
@[simp] theorem exec_bind (p : Proc Op Res σ ε α) (f : α → Proc Op Res σ ε β) :
    exec h (p >>= f) s w = (exec h p s w).andThen fun a => exec h (f a) := by
  have hrun := Prog.run_bind' h (p s) (resume f) w
  change Final.mk (Prog.run h ((p s).bind (resume f)) w).1.1
    (Prog.run h ((p s).bind (resume f)) w).1.2
    (Prog.run h ((p s).bind (resume f)) w).2 = _
  rw [hrun]
  unfold exec
  rcases Prog.run h (p s) w with ⟨⟨e | a, s'⟩, w'⟩ <;> rfl

section Steps

variable {h s w}
variable {p : Proc Op Res σ ε α} {f : α → Proc Op Res σ ε β}

/-- Step over a first part that ends normally. -/
theorem exec_bind_ok {a : α} {s' : σ} {w' : W} (hp : exec h p s w = ⟨.ok a, s', w'⟩) :
    exec h (p >>= f) s w = exec h (f a) s' w' := by
  rw [exec_bind, hp, Final.andThen_ok]

/-- A first part that exits ends the whole. -/
theorem exec_bind_error {e : ε} {s' : σ} {w' : W}
    (hp : exec h p s w = ⟨.error e, s', w'⟩) :
    exec h (p >>= f) s w = ⟨.error e, s', w'⟩ := by
  rw [exec_bind, hp, Final.andThen_error]

/-- A sequence that ends normally has a first part that does. -/
theorem of_exec_bind_ok {b : β} (hexec : (exec h (p >>= f) s w).exit = .ok b) :
    ∃ a s' w', exec h p s w = ⟨.ok a, s', w'⟩ ∧ (exec h (f a) s' w').exit = .ok b := by
  rw [exec_bind] at hexec
  rcases hp : exec h p s w with ⟨e | a, s', w'⟩
  · rw [hp] at hexec
    cases hexec
  · rw [hp] at hexec
    exact ⟨a, s', w', rfl, hexec⟩

theorem of_exec_exitIf_ok {c : Prop} [Decidable c] {e : ε} {g : Unit → Proc Op Res σ ε β} {b : β}
    (hexec : (exec h (exitIf c e >>= g) s w).exit = .ok b) :
    ¬ c ∧ (exec h (g ()) s w).exit = .ok b := by
  rw [exec_bind, exec_exitIf] at hexec
  by_cases hc : c
  · rw [if_pos hc] at hexec
    cases hexec
  · rw [if_neg hc] at hexec
    exact ⟨hc, hexec⟩

theorem exec_exitIf_pos {c : Prop} [Decidable c] {e : ε} {g : Unit → Proc Op Res σ ε β}
    (hc : c) : exec h (exitIf c e >>= g) s w = ⟨.error e, s, w⟩ := by
  rw [exec_bind, exec_exitIf, if_pos hc, Final.andThen_error]

theorem exec_exitIf_neg {c : Prop} [Decidable c] {e : ε} {g : Unit → Proc Op Res σ ε β}
    (hc : ¬ c) : exec h (exitIf c e >>= g) s w = exec h (g ()) s w := by
  rw [exec_bind, exec_exitIf, if_neg hc, Final.andThen_ok]

theorem exec_update_bind {u : σ → σ} {g : Unit → Proc Op Res σ ε β} :
    exec h (update u >>= g) s w = exec h (g ()) (u s) w := by
  rw [exec_bind, exec_update, Final.andThen_ok]

theorem exec_view_bind {g : σ → α} :
    exec h (view g >>= f) s w = exec h (f (g s)) s w := by
  rw [exec_bind, exec_view, Final.andThen_ok]

theorem exec_lift_bind {q : Prog Op Res α} {a : α} {w' : W} (hq : Prog.run h q w = (a, w')) :
    exec h (lift q >>= f) s w = exec h (f a) s w' := by
  rw [exec_bind, exec_lift, hq, Final.andThen_ok]

end Steps

section Along

variable {R : (op : Op) → Res op → Prop} {h : Handler Op Res W} {s : σ} {w : W}

/-- Along the run from given variables every operation is answered as `R` says. -/
def Along (h : Handler Op Res W) (R : (op : Op) → Res op → Prop) (p : Proc Op Res σ ε α) (s : σ)
    (w : W) : Prop := Prog.Along h R (p s) w

theorem Along.first {p : Proc Op Res σ ε α} {f : α → Proc Op Res σ ε β}
    (hrun : Along h R (p >>= f) s w) : Along h R p s w :=
  (Prog.along_bind'.mp hrun).1

/-- After a first part that ends normally the rest is answered in the same way. -/
theorem Along.rest {p : Proc Op Res σ ε α} {f : α → Proc Op Res σ ε β} {a : α} {s' : σ} {w' : W}
    (hrun : Along h R (p >>= f) s w) (hp : exec h p s w = ⟨.ok a, s', w'⟩) :
    Along h R (f a) s' w' := by
  have hrest := (Prog.along_bind'.mp hrun).2
  have hval : (Prog.run h (p s) w).1 = (.ok a, s') :=
    Prod.ext (congrArg Final.exit hp) (congrArg Final.vars hp)
  have hworld : (Prog.run h (p s) w).2 = w' := congrArg Final.world hp
  rw [hval, hworld] at hrest
  exact hrest

theorem Along.of_finish {p : Proc Op Res σ ε α} {bye : Except ε α → σ → β}
    (hrun : Prog.Along h R (p.finish s bye) w) : Along h R p s w :=
  (Prog.along_bind'.mp hrun).1

theorem Along.of_perform {op : Op}
    (hrun : Along h R (lift (Prog.perform op) : Proc Op Res σ ε (Res op)) s w) :
    R op (h op w).1 := hrun.1

-- a run is not to be evaluated where only its shape matters
attribute [irreducible] Along

end Along

section Respects

variable {h : Handler Op Res W} {R : W → W → Prop}

/-- The procedure does not tell related worlds apart. -/
def Respects (h : Handler Op Res W) (R : W → W → Prop) (p : Proc Op Res σ ε α) : Prop :=
  ∀ s w w', R w w' → (exec h p s w).Alike R (exec h p s w')

/-- Sequencing, where the first part is known to end alike from just these worlds. -/
theorem exec_bind_alike {p : Proc Op Res σ ε α} {f : α → Proc Op Res σ ε β} {s : σ} {w w' : W}
    (hp : (exec h p s w).Alike R (exec h p s w')) (hf : ∀ a, Respects h R (f a)) :
    (exec h (p >>= f) s w).Alike R (exec h (p >>= f) s w') := by
  rw [exec_bind, exec_bind]
  apply hp.andThen
  intro a _
  rw [hp.vars]
  exact hf a _ _ _ hp.world

theorem respects_pure (a : α) : Respects h R (pure a : Proc Op Res σ ε α) :=
  fun _ _ _ hw => ⟨rfl, rfl, hw⟩

theorem respects_exit (e : ε) : Respects h R (exit e : Proc Op Res σ ε α) :=
  fun _ _ _ hw => ⟨rfl, rfl, hw⟩

theorem respects_exitIf (c : Prop) [Decidable c] (e : ε) :
    Respects h R (exitIf c e : Proc Op Res σ ε Unit) := by
  by_cases hc : c
  · rw [exitIf, if_pos hc]
    exact respects_exit e
  · rw [exitIf, if_neg hc]
    exact respects_pure ()

theorem respects_update (f : σ → σ) : Respects h R (update f : Proc Op Res σ ε Unit) :=
  fun _ _ _ hw => ⟨rfl, rfl, hw⟩

theorem respects_lift {p : Prog Op Res α}
    (hp : ∀ w w', R w w' → (Prog.run h p w).1 = (Prog.run h p w').1 ∧
      R (Prog.run h p w).2 (Prog.run h p w').2) :
    Respects h R (lift p : Proc Op Res σ ε α) := by
  intro s w w' hw
  obtain ⟨hval, hworld⟩ := hp w w' hw
  rw [exec_lift, exec_lift]
  exact ⟨congrArg Except.ok hval, rfl, hworld⟩

theorem Respects.bind {p : Proc Op Res σ ε α} {f : α → Proc Op Res σ ε β}
    (hp : Respects h R p) (hf : ∀ a, Respects h R (f a)) : Respects h R (p >>= f) :=
  fun s w w' hw => exec_bind_alike (hp s w w' hw) hf

end Respects

end Proc

end Interaction
