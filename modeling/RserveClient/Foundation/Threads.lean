import RserveClient.Foundation.Embedding
import Mathlib.Logic.Function.Iterate

/-!
# Threads that keep to their own part of the world

Several programs run in one world, one operation at a time and in any order. If every
program works on a part of its own, then each gets on as if it ran alone, by as many
operations as it had turns.

## Implementation notes

A schedule is the list of threads that are given a turn; a thread that has ended lets its
turns pass. Nothing is assumed about the order or about fairness.
-/

namespace Interaction

variable {Op : Type} {Res : Op → Type} {α W V ι : Type}

namespace Prog

/-- The next operation of a program, if it has one left. -/
def tick (h : Handler Op Res W) : Prog Op Res α × W → Prog Op Res α × W
  | (.ret a, w) => (.ret a, w)
  | (.call op next, w) => (next (h op w).1, (h op w).2)

/-- As many ticks as the run has operations, or more, are the run. -/
theorem tick_iterate (h : Handler Op Res W) {p : Prog Op Res α} {w : W} {n : Nat}
    (hn : p.calls h w ≤ n) : (tick h)^[n] (p, w) = (.ret (p.run h w).1, (p.run h w).2) := by
  induction n generalizing p w with
  | zero =>
      cases p with
      | ret a => rfl
      | call op next => exact absurd hn (Nat.not_succ_le_zero _)
  | succ n ih =>
      rw [Function.iterate_succ_apply]
      cases p with
      | ret a => exact ih (Nat.zero_le n)
      | call op next => exact ih (Nat.le_of_succ_le_succ hn)

/-- A program that performs only certain operations goes on doing so. -/
theorem Only.tick {P : Op → Prop} {h : Handler Op Res W} {p : Prog Op Res α} (hp : p.Only P)
    (w : W) : (tick h (p, w)).1.Only P := by
  cases p with
  | ret a => exact hp
  | call op next => exact hp.2 _

end Prog

/-- Threads in one world. -/
structure Pool (ι : Type) (Op : Type) (Res : Op → Type) (α W : Type) where
  thread : ι → Prog Op Res α
  world : W

/-- Parts of a world, one for each thread: what a thread does to its part is not seen in the
others, and its operations are answered by its part alone. -/
structure Parts (ι : Type) {Op : Type} {Res : Op → Type} {W V : Type} (h : Handler Op Res W)
    (own : Handler Op Res V) (P : ι → Op → Prop) where
  view : ι → View W V
  apart : ∀ {i j}, i ≠ j → ∀ v w, (view j).get ((view i).set v w) = (view j).get w
  answers : ∀ {i op}, P i op → ∀ w,
    h op w = ((own op ((view i).get w)).1, (view i).set (own op ((view i).get w)).2 w)

namespace Pool

variable [DecidableEq ι]

/-- One thread takes a turn. -/
def turn (h : Handler Op Res W) (s : Pool ι Op Res α W) (i : ι) : Pool ι Op Res α W where
  thread := Function.update s.thread i (Prog.tick h (s.thread i, s.world)).1
  world := (Prog.tick h (s.thread i, s.world)).2

/-- The threads take turns as the schedule says. -/
def run (h : Handler Op Res W) (schedule : List ι) (s : Pool ι Op Res α W) : Pool ι Op Res α W :=
  schedule.foldl (turn h) s

section Parts

variable {h : Handler Op Res W} {own : Handler Op Res V} {P : ι → Op → Prop}
variable (parts : Parts ι h own P)

/-- A thread and its part of the world. -/
def state (s : Pool ι Op Res α W) (i : ι) : Prog Op Res α × V :=
  (s.thread i, (parts.view i).get s.world)

/-- Every thread keeps to its own operations. -/
def Keep (P : ι → Op → Prop) (s : Pool ι Op Res α W) : Prop := ∀ i, (s.thread i).Only (P i)

theorem Keep.turn {s : Pool ι Op Res α W} (hs : s.Keep P) (i : ι) : (s.turn h i).Keep P := by
  intro j
  by_cases hij : j = i
  · subst hij
    have hself : (s.turn h j).thread j = (Prog.tick h (s.thread j, s.world)).1 :=
      Function.update_self _ _ _
    rw [hself]
    exact (hs j).tick s.world
  · have hother : (s.turn h i).thread j = s.thread j := Function.update_of_ne hij _ _
    rw [hother]
    exact hs j

/-- A turn is a tick of the thread that has it, on its own part. -/
theorem state_turn_self {s : Pool ι Op Res α W} (hs : s.Keep P) (i : ι) :
    (s.turn h i).state parts i = Prog.tick own (s.state parts i) := by
  have hi := hs i
  have hthread : (s.turn h i).thread i = (Prog.tick h (s.thread i, s.world)).1 :=
    Function.update_self _ _ _
  have hworld : (s.turn h i).world = (Prog.tick h (s.thread i, s.world)).2 := rfl
  rw [state, state, hthread, hworld]
  cases hp : s.thread i with
  | ret a => rfl
  | call op next =>
      rw [hp] at hi
      have hans := parts.answers hi.1 s.world
      simp only [Prog.tick, hans, (parts.view i).get_set]

/-- The other threads and their parts do not notice. -/
theorem state_turn_other {s : Pool ι Op Res α W} (hs : s.Keep P) {i j : ι} (hij : j ≠ i) :
    (s.turn h i).state parts j = s.state parts j := by
  have hi := hs i
  have hthread : (s.turn h i).thread j = s.thread j := Function.update_of_ne hij _ _
  have hworld : (s.turn h i).world = (Prog.tick h (s.thread i, s.world)).2 := rfl
  rw [state, state, hthread, hworld]
  cases hp : s.thread i with
  | ret a => rfl
  | call op next =>
      rw [hp] at hi
      have hans := parts.answers hi.1 s.world
      simp only [Prog.tick, hans, parts.apart (Ne.symm hij)]

/-- After any schedule a thread is where its own turns have taken it alone. -/
theorem state_run {s : Pool ι Op Res α W} (hs : s.Keep P) (schedule : List ι) (i : ι) :
    (s.run h schedule).state parts i =
      (Prog.tick own)^[schedule.count i] (s.state parts i) := by
  induction schedule generalizing s with
  | nil => rfl
  | cons j schedule ih =>
      have hrest := ih (hs.turn (h := h) j)
      rw [run, List.foldl_cons]
      by_cases hij : i = j
      · subst hij
        rw [List.count_cons_self, Function.iterate_succ_apply, ← state_turn_self parts hs i]
        exact hrest
      · rw [List.count_cons_of_ne (Ne.symm hij), ← state_turn_other parts hs hij]
        exact hrest

/-- A thread that had turns enough has ended with what it returns alone, and has left its
part as it leaves it alone. -/
theorem run_of_enough {s : Pool ι Op Res α W} (hs : s.Keep P) {schedule : List ι} {i : ι}
    (hturns : (s.thread i).calls own ((parts.view i).get s.world) ≤ schedule.count i) :
    (s.run h schedule).thread i =
        .ret ((s.thread i).run own ((parts.view i).get s.world)).1 ∧
      (parts.view i).get (s.run h schedule).world =
        ((s.thread i).run own ((parts.view i).get s.world)).2 := by
  have hstate := state_run parts hs schedule i
  rw [state, state, Prog.tick_iterate own hturns] at hstate
  exact ⟨congrArg Prod.fst hstate, congrArg Prod.snd hstate⟩

/-- What no part shows stays as it was. -/
theorem frame_run {γ : Type} (obs : W → γ)
    (hobs : ∀ i v w, obs ((parts.view i).set v w) = obs w) {s : Pool ι Op Res α W} (hs : s.Keep P)
    (schedule : List ι) : obs (s.run h schedule).world = obs s.world := by
  induction schedule generalizing s with
  | nil => rfl
  | cons i schedule ih =>
      have hi := hs i
      have hworld : (s.turn h i).world = (Prog.tick h (s.thread i, s.world)).2 := rfl
      rw [run, List.foldl_cons]
      refine (ih (hs.turn (h := h) i)).trans ?_
      rw [hworld]
      cases hp : s.thread i with
      | ret a => rfl
      | call op next =>
          rw [hp] at hi
          simp only [Prog.tick, parts.answers hi.1 s.world, hobs]

end Parts

end Pool

end Interaction
