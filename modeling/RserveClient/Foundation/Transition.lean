import Mathlib.Tactic.Common

/-!
# Transition systems with labels

States reached by executable steps whose labels are allowed where they are
taken, and the rule that an invariant kept by every allowed step holds in all
of them.
-/

namespace Transition

variable {S L : Type}

/-- The states reached from `init` by steps that `allowed` permits. -/
inductive Reach (init : S) (step : S → L → Option S) (allowed : S → L → Prop) : S → Prop where
  | init : Reach init step allowed init
  | step {s s' : S} {l : L} (hs : Reach init step allowed s) (hl : allowed s l)
      (hstep : step s l = some s') : Reach init step allowed s'

variable {init : S} {step : S → L → Option S} {allowed : S → L → Prop}

theorem Reach.invariant {I : S → Prop} (hinit : I init)
    (hkeep : ∀ {s l s'}, I s → allowed s l → step s l = some s' → I s') {s : S}
    (h : Reach init step allowed s) : I s := by
  induction h with
  | init => exact hinit
  | step _ hl hstep ih => exact hkeep ih hl hstep

/-- Take a list of steps in order. -/
def runSteps (step : S → L → Option S) : S → List L → Option S
  | s, [] => some s
  | s, l :: ls => (step s l).bind fun s' => runSteps step s' ls

/-- Each of a list of steps is allowed where it is taken. -/
def AllowedAlong (step : S → L → Option S) (allowed : S → L → Prop) : S → List L → Prop
  | _, [] => True
  | s, l :: ls => allowed s l ∧ ∀ s', step s l = some s' → AllowedAlong step allowed s' ls

/-- The test whether each of a list of steps is allowed. -/
def allowsAlong (step : S → L → Option S) (allowed : S → L → Prop)
    [(s : S) → (l : L) → Decidable (allowed s l)] : S → List L → Bool
  | _, [] => true
  | s, l :: ls =>
      decide (allowed s l) &&
        match step s l with
        | none => true
        | some t => allowsAlong step allowed t ls

theorem allowedAlong_of_allowsAlong [(s : S) → (l : L) → Decidable (allowed s l)] {s : S}
    {ls : List L} (h : allowsAlong step allowed s ls = true) :
    AllowedAlong step allowed s ls := by
  induction ls generalizing s with
  | nil => trivial
  | cons l ls ih =>
      rw [allowsAlong, Bool.and_eq_true, decide_eq_true_iff] at h
      refine ⟨h.1, fun t ht => ?_⟩
      have hrest := h.2
      rw [ht] at hrest
      exact ih hrest

theorem Reach.runSteps {s s' : S} {ls : List L} (hs : Reach init step allowed s)
    (hall : AllowedAlong step allowed s ls) (h : runSteps step s ls = some s') :
    Reach init step allowed s' := by
  induction ls generalizing s with
  | nil =>
      obtain rfl := Option.some.inj h
      exact hs
  | cons l ls ih =>
      obtain ⟨t, ht, hrest⟩ := Option.bind_eq_some_iff.mp h
      exact ih (hs.step hall.1 ht) (hall.2 t ht) hrest

/-- An invariant with a bound that each allowed step lowers is lowered by one for each step of
a run, until it is zero. -/
theorem runSteps_bounded {I : S → Nat → Prop}
    (hkeep : ∀ {s w l s'}, I s w → allowed s l → step s l = some s' → ∃ w' ≤ w - 1, I s' w')
    {s s' : S} {w : Nat} {ls : List L} (hs : I s w) (hall : AllowedAlong step allowed s ls)
    (h : runSteps step s ls = some s') : ∃ w' ≤ w - ls.length, I s' w' := by
  induction ls generalizing s w with
  | nil =>
      obtain rfl := Option.some.inj h
      exact ⟨w, Nat.le_refl w, hs⟩
  | cons l ls ih =>
      obtain ⟨t, ht, hrest⟩ := Option.bind_eq_some_iff.mp h
      obtain ⟨v, hv, hkept⟩ := hkeep hs hall.1 ht
      obtain ⟨w', hw', hend⟩ := ih hkept (hall.2 t ht) hrest
      refine ⟨w', Nat.le_trans hw' ?_, hend⟩
      rw [List.length_cons]
      omega

end Transition
