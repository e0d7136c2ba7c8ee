import RserveClient.Foundation.Interaction

/-!
# Endless loops that are left from inside

A round leaves the loop or goes round again with new variables. A loop is given a
number of rounds and has no result when they are used up. The rules for a loop with a
variant show that it is left in time, and with what.
-/

namespace Loop

open Interaction

/-- How a round ends. -/
inductive Round (α ρ : Type) where
  | leave (r : ρ)
  | again (a : α)

variable {α ρ : Type}

/-- What a round has to keep: a result is as wanted, and new variables satisfy the
invariant with a variant below the bound. -/
def Round.Keeps (Post : ρ → Prop) (Inv : α → Prop) (variant : α → Nat) (bound : Nat) :
    Round α ρ → Prop
  | .leave r => Post r
  | .again a => Inv a ∧ variant a < bound

def iterate (body : α → Round α ρ) : Nat → α → Option ρ
  | 0, _ => none
  | fuel + 1, a =>
      match body a with
      | .leave r => some r
      | .again b => iterate body fuel b

/-- A loop with a variant is left, and with a result as wanted. -/
theorem iterate_of_variant {body : α → Round α ρ} {Post : ρ → Prop} {Inv : α → Prop}
    (variant : α → Nat) (hround : ∀ a, Inv a → (body a).Keeps Post Inv variant (variant a))
    {fuel : Nat} {a : α} (hinv : Inv a) (hfuel : variant a < fuel) :
    ∃ r, iterate body fuel a = some r ∧ Post r := by
  induction fuel generalizing a with
  | zero => omega
  | succ fuel ih =>
      have hkeeps := hround a hinv
      rw [iterate]
      cases hbody : body a with
      | leave r =>
          rw [hbody] at hkeeps
          exact ⟨r, rfl, hkeeps⟩
      | again b =>
          rw [hbody] at hkeeps
          exact ih hkeeps.1 (by have := hkeeps.2; omega)

section Programs

variable {Op : Type} {Res : Op → Type} {W : Type}

/-- The same loop around a program. -/
def iterProg (body : α → Prog Op Res (Round α ρ)) : Nat → α → Prog Op Res (Option ρ)
  | 0, _ => return none
  | fuel + 1, a => do
      match ← body a with
      | .leave r => return some r
      | .again b => iterProg body fuel b

/-- A loop with a variant is left after at most one operation for each step of the
variant and one more, if no round takes more than one. -/
theorem run_iterProg_of_variant {h : Handler Op Res W} {body : α → Prog Op Res (Round α ρ)}
    {Post : ρ → W → Prop} {Inv : α → W → Prop} (variant : α → Nat)
    (hcalls : ∀ a w, Prog.calls h (body a) w ≤ 1)
    (hround : ∀ a w, Inv a w → (Prog.run h (body a) w).1.Keeps
      (fun r => Post r (Prog.run h (body a) w).2) (fun b => Inv b (Prog.run h (body a) w).2)
      variant (variant a))
    {fuel : Nat} {a : α} {w : W} (hinv : Inv a w) (hfuel : variant a < fuel) :
    ∃ r w', Prog.run h (iterProg body fuel a) w = (some r, w') ∧ Post r w' ∧
      Prog.calls h (iterProg body fuel a) w ≤ variant a + 1 := by
  induction fuel generalizing a w with
  | zero => omega
  | succ fuel ih =>
      have hkeeps := hround a w hinv
      have hone := hcalls a w
      rw [iterProg, Prog.run_bind, Prog.calls_bind]
      cases hbody : (Prog.run h (body a) w).1 with
      | leave r =>
          rw [hbody] at hkeeps
          refine ⟨r, (Prog.run h (body a) w).2, rfl, hkeeps, ?_⟩
          change Prog.calls h (body a) w + 0 ≤ _
          omega
      | again b =>
          rw [hbody] at hkeeps
          obtain ⟨hnext, hlt⟩ := hkeeps
          obtain ⟨r, w', hrun, hpost, hle⟩ := ih hnext (by omega)
          refine ⟨r, w', hrun, hpost, ?_⟩
          dsimp only
          omega

end Programs

end Loop
