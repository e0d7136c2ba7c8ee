import RserveClient.Session.Workspace

/-!
# The unit test

The tests of `unit_test_1.c` that set and get vectors and logicals, run against a server that
follows the rules of R. Each is a loop of `niters` rounds that leaves at the first thing that
is not as expected.

## Implementation notes

`test1` fills its array of doubles through a `char *`, so most of it is what `malloc` found,
and compares the doubles by `!=`.
-/

namespace RserveClient

open Interaction Framing
open LittleEndian (encode decode)

section Rounds

variable {Op : Type} {Res : Op → Type} {σ W : Type} {h : Handler Op Res W}

/-- `for ( int i = 0; i < niters; i++ )`, with the rounds that are left. -/
def rounds (round : Nat → Proc Op Res σ Int Unit) : Nat → Nat → Proc Op Res σ Int Unit
  | _, 0 => pure ()
  | i, k + 1 => do
      round i
      rounds round (i + 1) k

/-- Rounds that keep an invariant and do not leave all come to their end. -/
theorem exec_rounds (Inv : σ → W → Prop) {round : Nat → Proc Op Res σ Int Unit}
    (hround : ∀ i s w, Inv s w → ∃ s' w', Proc.exec h (round i) s w = ⟨.ok (), s', w'⟩ ∧ Inv s' w')
    (i k : Nat) {s : σ} {w : W} (hw : Inv s w) :
    ∃ s' w', Proc.exec h (rounds round i k) s w = ⟨.ok (), s', w'⟩ ∧ Inv s' w' := by
  induction k generalizing i s w with
  | zero => exact ⟨s, w, rfl, hw⟩
  | succ k ih =>
      obtain ⟨s₁, w₁, hexec, hw₁⟩ := hround i s w hw
      obtain ⟨s', w', hrest, hw'⟩ := ih (i + 1) hw₁
      exact ⟨s', w', (Proc.exec_bind_ok hexec).trans hrest, hw'⟩

end Rounds

/-- The body of a test with its variables, which leaves with a status. -/
abbrev TestBody (σ α : Type) := Proc Syscall Syscall.Res σ Int α

section Bodies

variable {σ : Type}

/-- `cBYE` -/
def testBye (status : Status) : TestBody σ Unit := Proc.exitIf (status.code < 0) status.code

def exitStatus : Except Int Unit → Int
  | .ok _ => 0
  | .error status => status

def finishTest (body : TestBody σ Unit) (vars : σ) : SysProg Int :=
  body.finish vars fun exit _ => exitStatus exit

variable {W : Type} {h : Handler Syscall Syscall.Res W}

theorem exec_testBye {α : Type} {s : σ} {w : W} {g : Unit → TestBody σ α} :
    Proc.exec h (testBye .ok >>= g) s w = Proc.exec h (g ()) s w :=
  Proc.exec_exitIf_neg (by decide)

theorem run_finishTest {body : TestBody σ Unit} {s s' : σ} {w w' : W} {exit : Except Int Unit}
    (hexec : Proc.exec h body s w = ⟨exit, s', w'⟩) :
    (finishTest body s).run h w = (exitStatus exit, w') :=
  Proc.run_finish_of_exec hexec _

end Bodies

/-- The bits of a double: all of the exponent set, and some of the fraction. -/
def isNaN (double : Bytes) : Prop :=
  decode double / 2 ^ 52 % 2 ^ 11 = 2047 ∧ decode double % 2 ^ 52 ≠ 0

instance (double : Bytes) : Decidable (isNaN double) := inferInstanceAs (Decidable (_ ∧ _))

/-- `!=` on doubles: a NaN differs from everything, and the two zeros do not differ. -/
def doubleNe (a b : Bytes) : Prop :=
  isNaN a ∨ isNaN b ∨
    (decode a ≠ decode b ∧ ¬ (decode a % 2 ^ 63 = 0 ∧ decode b % 2 ^ 63 = 0))

instance (a b : Bytes) : Decidable (doubleNe a b) := inferInstanceAs (Decidable (_ ∨ _ ∨ _))

theorem doubleNe_self (a : Bytes) : doubleNe a a ↔ isNaN a := by
  unfold doubleNe
  constructor
  · rintro (h | h | h)
    · exact h
    · exact h
    · exact absurd rfl h.1
  · exact Or.inl

/-- Element `j` of an array of doubles. -/
def doubleAt (j : Nat) (array : Bytes) : Bytes := (array.drop (8 * j)).take 8

/-- `vecF8` -/
def vecF8Name : CStr := ⟨[118, 101, 99, 70, 56], by decide⟩

/-- `some_vec` -/
def someVecName : CStr := ⟨[115, 111, 109, 101, 95, 118, 101, 99], by decide⟩

section Tests

variable (past : Nat → UInt8) (sock : Int)

/-- The first `n` bytes are filled, as `char`s; the others are what was there. -/
def fillXF8 (n : Nat) (mem : Bytes) : Bytes :=
  (List.range n).map (fun i => UInt8.ofNat (10 * (i + 1))) ++ mem.drop n

/-- The pointer is freed before the vector is asked for. -/
def test1Round (n : Nat) (xF8 : Bytes) : TestBody VecOut Unit := do
  let status ← Proc.lift (setVec sock (some vecF8Name) (some QType.F8.str) (some xF8)
    (UInt32.ofNat n) 0)
  testBye status
  Proc.update fun out => { out with data := none }
  let out ← Proc.view id
  let (status, out) ← Proc.lift (getVec sock (some vecF8Name) (some QType.F8.str) out)
  Proc.update fun _ => out
  testBye status
  Proc.exitIf ((n : Int) ≠ out.n) (-1)
  match out.data with
  | none => Proc.exit (-1)
  | some chkXF8 =>
      Proc.exitIf (∃ j ∈ List.range n, doubleNe (doubleAt j xF8) (doubleAt j chkXF8)) (-1)

/-- `mem` is what `malloc` finds. -/
def test1 (n niters : Nat) (mem : Bytes) (chkN : Int) : SysProg Int :=
  finishTest (rounds (fun _ => test1Round sock n (fillXF8 n mem)) 0 niters) ⟨none, chkN⟩

/-- `y` is what is in the variable. -/
def test4Round (y : Bool) (i : Nat) : TestBody Unit Unit := do
  let x : Bool := i % 2 = 0
  let status ← Proc.lift (setBool sock nameX x)
  testBye status
  let (status, y) ← Proc.lift (getBool sock (some nameX) y)
  testBye status
  Proc.exitIf (x ≠ y) (-1)

def test4 (niters : Nat) (y : Bool) : SysProg Int :=
  finishTest (rounds (test4Round sock y) 0 niters) ()

def test5Round (x : Bool) : TestBody Unit Unit := do
  let (status, x) ← Proc.lift (exists1 sock (some someVecName) x)
  testBye status
  Proc.exitIf (x ≠ true) (-1)
  let (status, x) ← Proc.lift (exists2 sock (past 4) (some someVecName) x)
  testBye status
  Proc.exitIf (x ≠ true) (-1)

def test5Body (niters : Nat) (xF8 : Bytes) (x : Bool) : TestBody Unit Unit := do
  let status ← Proc.lift (setVec sock (some someVecName) (some QType.F8.str) (some xF8) 1024 0)
  testBye status
  rounds (fun _ => test5Round past sock x) 0 niters

/-- `xF8` is the array of 1024 doubles. -/
def test5 (niters : Nat) (xF8 : Bytes) (x : Bool) : SysProg Int :=
  finishTest (test5Body past sock niters xF8 x) ()

def test9Round (n : Nat) : TestBody Int Unit := do
  let status ← Proc.lift (setVec sock (some vecF8Name) (some QType.F8.str)
    (some (List.replicate (8 * n) 0)) (UInt32.ofNat n) 0)
  testBye status
  let chkN ← Proc.view id
  let (status, chkN) ← Proc.lift (getVecLen past sock vecF8Name chkN)
  Proc.update fun _ => chkN
  testBye status
  Proc.exitIf ((n : Int) ≠ chkN) (-1)

def test9 (n niters : Nat) (chkN : Int) : SysProg Int :=
  finishTest (rounds (fun _ => test9Round past sock n) 0 niters) chkN

end Tests

/-- The names in the tests are names in R. -/
theorem isWord_names : IsWord nameX ∧ IsWord someVecName ∧ IsWord vecF8Name := by
  decide +kernel

/-- Where a result is only wrapped, the result itself. -/
theorem run_of_wrapped {α β W : Type} {h : Handler Syscall Syscall.Res W} {p : SysProg α}
    {f : α → β} (hf : Function.Injective f) {a : α} {w w' : W}
    (hrun : (p.bind fun a => .ret (f a)).run h w = (f a, w')) : p.run h w = (a, w') := by
  rw [Prog.run_bind', Prog.run_ret] at hrun
  obtain ⟨hval, hworld⟩ := Prod.mk.inj hrun
  exact Prod.ext (hf hval) hworld

section Calls

variable {σ : Type} {R : RServer σ} {sock : Int} {name : CStr} {v : Conn × (Bytes × σ)}

theorem ask_injective : Function.Injective ApiRet.ask := fun _ _ => ApiRet.ask.inj

theorem exchange_injective : Function.Injective ApiRet.exchange := fun _ _ =>
  ApiRet.exchange.inj

theorem logical_injective :
    Function.Injective fun r : Status × Bool => Answer.logical r.1 r.2 := fun r r' heq => by
  obtain ⟨hstatus, hx⟩ := Answer.logical.inj heq
  exact Prod.ext hstatus hx

theorem length_injective :
    Function.Injective fun r : Status × Int => Answer.length r.1 r.2 := fun r r' heq => by
  obtain ⟨hstatus, hn⟩ := Answer.length.inj heq
  exact Prod.ext hstatus hn

theorem vec_injective :
    Function.Injective fun r : Status × VecOut => Ret.mk r.1 (.vec r.2) := fun r r' heq => by
  obtain ⟨hstatus, hvec⟩ := Ret.mk.inj heq
  exact Prod.ext hstatus (Output.vec.inj hvec)

theorem run_live_setVec (past : Nat → UInt8) (hR : R.Rules) (hsock : 0 < sock) (hv : Idle v)
    (hname : R.IsName name) (vec : Numeric) (n inWidth : UInt32)
    (hfits : (StoreOp.set name vec n inWidth).VectorFits) :
    ∃ v', (setVec sock (some name) (some vec.q.str) (some vec.data) n inWidth).run
        (liveHandle R.answer sock) v = (.ok, v') ∧ Idle v' ∧
      R.workspace v'.2.2 =
        Function.update (R.workspace v.2.2) name.bytes (some (.vector vec)) := by
  obtain ⟨v', hrun, hidle, hws⟩ :=
    refines_step past hR hsock (.set name vec n inWidth) hv hname hfits rfl
  exact ⟨v', run_of_wrapped (fun _ _ heq => (Ret.mk.inj heq).1)
    (run_of_wrapped exchange_injective hrun), hidle, hws⟩

theorem run_live_getVec (past : Nat → UInt8) (hR : R.Rules) (hsock : 0 < sock) (hv : Idle v)
    (hname : R.IsName name) {vec : Numeric} (out : VecOut)
    (hbound : R.workspace v.2.2 name.bytes = some (.vector vec)) :
    ∃ v', (getVec sock (some name) (some vec.q.str) out).run (liveHandle R.answer sock) v =
        ((.ok, ⟨some vec.data, vec.count⟩), v') ∧ Idle v' := by
  have hat : StoreOp.vectorAt (R.workspace v.2.2) name vec.q = some vec := by
    rw [StoreOp.vectorAt, hbound]
    exact if_pos rfl
  have hstep : (StoreOp.get name vec.q out).step (R.workspace v.2.2) =
      some (.exchange ⟨.ok, .vec ⟨some vec.data, vec.count⟩⟩, R.workspace v.2.2) := by
    rw [StoreOp.step, hat]
    rfl
  obtain ⟨v', hrun, hidle, _⟩ :=
    refines_step past hR hsock (.get name vec.q out) hv hname trivial hstep
  exact ⟨v', run_of_wrapped vec_injective (run_of_wrapped exchange_injective hrun), hidle⟩

theorem run_live_setBool (past : Nat → UInt8) (hR : R.Rules) (hsock : 0 < sock) (hv : Idle v)
    (hname : R.IsName name) (x : Bool) :
    ∃ v', (setBool sock name x).run (liveHandle R.answer sock) v = (.ok, v') ∧ Idle v' ∧
      R.workspace v'.2.2 =
        Function.update (R.workspace v.2.2) name.bytes (some (.logical x)) := by
  obtain ⟨v', hrun, hidle, hws⟩ := refines_step past hR hsock (.setBool name x) hv hname
    trivial rfl
  exact ⟨v', run_of_wrapped (fun _ _ => Answer.done.inj) (run_of_wrapped ask_injective hrun),
    hidle, hws⟩

theorem run_live_getBool (past : Nat → UInt8) (hR : R.Rules) (hsock : 0 < sock) (hv : Idle v)
    (hname : R.IsName name) {x : Bool} (y : Bool)
    (hbound : R.workspace v.2.2 name.bytes = some (.logical x)) :
    ∃ v', (getBool sock (some name) y).run (liveHandle R.answer sock) v = ((.ok, x), v') ∧
      Idle v' := by
  have hstep : (StoreOp.getBool name y).step (R.workspace v.2.2) =
      some (.ask (.logical .ok x), R.workspace v.2.2) := by
    rw [StoreOp.step, hbound]
  obtain ⟨v', hrun, hidle, _⟩ := refines_step past hR hsock (.getBool name y) hv hname
    trivial hstep
  exact ⟨v', run_of_wrapped logical_injective (run_of_wrapped ask_injective hrun), hidle⟩

theorem run_live_exists (past : Nat → UInt8) (hR : R.Rules) (hsock : 0 < sock) (hv : Idle v)
    (hname : R.IsName name) (x : Bool) :
    (∃ v', (exists1 sock (some name) x).run (liveHandle R.answer sock) v =
        ((.ok, (R.workspace v.2.2 name.bytes).isSome), v') ∧ Idle v' ∧
          R.workspace v'.2.2 = R.workspace v.2.2) ∧
      ∃ v', (exists2 sock (past 4) (some name) x).run (liveHandle R.answer sock) v =
        ((.ok, (R.workspace v.2.2 name.bytes).isSome), v') ∧ Idle v' ∧
          R.workspace v'.2.2 = R.workspace v.2.2 := by
  obtain ⟨v₁, hrun₁, hidle₁, hws₁⟩ := refines_step past hR hsock (.exists1 name x) hv hname
    trivial rfl
  obtain ⟨v₂, hrun₂, hidle₂, hws₂⟩ := refines_step past hR hsock (.exists2 name x) hv hname
    trivial rfl
  exact ⟨⟨v₁, run_of_wrapped logical_injective (run_of_wrapped ask_injective hrun₁), hidle₁, hws₁⟩,
    ⟨v₂, run_of_wrapped logical_injective (run_of_wrapped ask_injective hrun₂), hidle₂, hws₂⟩⟩

theorem run_live_getVecLen (past : Nat → UInt8) (hR : R.Rules) (hsock : 0 < sock) (hv : Idle v)
    (hname : R.IsName name) {vec : Numeric} (n : Int)
    (hbound : R.workspace v.2.2 name.bytes = some (.vector vec)) :
    ∃ v', (getVecLen past sock name n).run (liveHandle R.answer sock) v =
        ((.ok, (vec.count : Int)), v') ∧ Idle v' := by
  have hstep : (StoreOp.len name n).step (R.workspace v.2.2) =
      some (.ask (.length .ok vec.count), R.workspace v.2.2) := by
    rw [StoreOp.step, hbound]
  obtain ⟨v', hrun, hidle, _⟩ := refines_step past hR hsock (.len name n) hv hname
    trivial hstep
  exact ⟨v', run_of_wrapped length_injective (run_of_wrapped ask_injective hrun), hidle⟩

end Calls

section Passing

variable {σ : Type} {R : RServer σ} {sock : Int} {v : Conn × (Bytes × σ)}

theorem test4_passes (past : Nat → UInt8) (hR : R.Rules) (hsock : 0 < sock) (hv : Idle v)
    (hname : R.IsName nameX) (niters : Nat) (y : Bool) :
    ∃ v', (test4 sock niters y).run (liveHandle R.answer sock) v = (0, v') ∧ Idle v' := by
  have hround : ∀ i s w, Idle w → ∃ s' w',
      Proc.exec (liveHandle R.answer sock) (test4Round sock y i) s w = ⟨.ok (), s', w'⟩ ∧
        Idle w' := by
    intro i s w hw
    obtain ⟨w₁, hset, hw₁, hws⟩ := run_live_setBool past hR hsock hw hname (i % 2 = 0)
    have hbound : R.workspace w₁.2.2 nameX.bytes = some (.logical (i % 2 = 0)) := by
      rw [hws, Function.update_self]
    obtain ⟨w', hget, hw'⟩ := run_live_getBool past hR hsock hw₁ hname y hbound
    refine ⟨s, w', ?_, hw'⟩
    rw [test4Round, Proc.exec_lift_bind hset, exec_testBye, Proc.exec_lift_bind hget]
    dsimp only
    rw [exec_testBye, Proc.exec_exitIf, if_neg (not_not_intro rfl)]
  obtain ⟨s', v', hexec, hv'⟩ := exec_rounds (fun _ => Idle) hround 0 niters hv
  exact ⟨v', run_finishTest hexec, hv'⟩

theorem test5_passes (past : Nat → UInt8) (hR : R.Rules) (hsock : 0 < sock) (hv : Idle v)
    (hname : R.IsName someVecName) (niters : Nat) {xF8 : Bytes} (hlen : xF8.length = 8192)
    (x : Bool) :
    ∃ v', (test5 past sock niters xF8 x).run (liveHandle R.answer sock) v = (0, v') ∧
      Idle v' := by
  have hround : ∀ (i : Nat) s (w : Conn × (Bytes × σ)),
      (Idle w ∧ (R.workspace w.2.2 someVecName.bytes).isSome = true) → ∃ s' w',
      Proc.exec (liveHandle R.answer sock) (test5Round past sock x) s w = ⟨.ok (), s', w'⟩ ∧
        (Idle w' ∧ (R.workspace w'.2.2 someVecName.bytes).isSome = true) := by
    rintro i s w ⟨hw, hbound⟩
    obtain ⟨⟨w₁, hrun₁, hw₁, hws₁⟩, _⟩ := run_live_exists past hR hsock hw hname x
    rw [← hws₁] at hbound
    obtain ⟨_, w', hrun', hw', hws'⟩ := run_live_exists past hR hsock hw₁ hname true
    rw [← hws₁, hbound] at hrun₁
    rw [hbound] at hrun'
    refine ⟨s, w', ?_, hw', by rw [hws', hbound]⟩
    rw [test5Round, Proc.exec_lift_bind hrun₁]
    dsimp only
    rw [exec_testBye, Proc.exec_exitIf_neg (not_not_intro rfl), Proc.exec_lift_bind hrun']
    dsimp only
    rw [exec_testBye, Proc.exec_exitIf, if_neg (not_not_intro rfl)]
  have hfits : 4 + lenName someVecName + (8 + xF8.length) < 2 ^ 24 := by
    rw [hlen]
    decide
  obtain ⟨v₁, hset, hv₁, hws⟩ := run_live_setVec past hR hsock hv hname
    ⟨.F8, xF8, isNumeric_F8, ⟨1024, hlen⟩, by omega⟩ 1024 0 ⟨by decide, hlen, hfits⟩
  have hbound : (R.workspace v₁.2.2 someVecName.bytes).isSome = true := by
    rw [hws, Function.update_self]
    rfl
  obtain ⟨s', v', hexec, hv'⟩ := exec_rounds
    (fun _ w => Idle w ∧ (R.workspace w.2.2 someVecName.bytes).isSome = true) hround 0 niters
    (s := ()) ⟨hv₁, hbound⟩
  have hset' : (setVec sock (some someVecName) (some QType.F8.str) (some xF8) 1024 0).run
      (liveHandle R.answer sock) v = (.ok, v₁) := hset
  have hbody : Proc.exec (liveHandle R.answer sock) (test5Body past sock niters xF8 x) () v =
      ⟨.ok (), s', v'⟩ := by
    rw [test5Body, Proc.exec_lift_bind hset', exec_testBye]
    exact hexec
  exact ⟨v', run_finishTest hbody, hv'.1⟩

theorem whole_doubles {n : Nat} {xF8 : Bytes} (hlen : xF8.length = 8 * n)
    (hfits : 8 * n + 100 < 2 ^ 24) : 8 ∣ xF8.length ∧ xF8.length < 2 ^ 24 := by
  rw [hlen]
  exact ⟨Nat.dvd_mul_right 8 n, by omega⟩

/-- The vector of doubles that is sent. -/
def doubles {n : Nat} (xF8 : Bytes) (hlen : xF8.length = 8 * n)
    (hfits : 8 * n + 100 < 2 ^ 24) : Numeric :=
  ⟨.F8, xF8, isNumeric_F8, (whole_doubles hlen hfits).1, (whole_doubles hlen hfits).2⟩

theorem count_doubles {n : Nat} {xF8 : Bytes} (hlen : xF8.length = 8 * n)
    (hfits : 8 * n + 100 < 2 ^ 24) : (doubles xF8 hlen hfits).count = n := by
  change xF8.length / 8 = n
  omega

theorem vectorFits_doubles {n : Nat} {xF8 : Bytes} (hn : 0 < n) (hlen : xF8.length = 8 * n)
    (hfits : 8 * n + 100 < 2 ^ 24) :
    (StoreOp.set vecF8Name (doubles xF8 hlen hfits) (UInt32.ofNat n) 0).VectorFits := by
  have hsize : (UInt32.ofNat n).toNat = n := UInt32.toNat_ofNat_of_lt' (by
    rw [UInt32.size]
    omega)
  refine ⟨fun hzero => ?_, ?_, ?_⟩
  · rw [hzero] at hsize
    exact absurd hsize.symm (Nat.ne_of_gt hn)
  · rw [hsize]
    exact hlen.trans (Nat.mul_comm 8 n)
  · change 4 + lenName vecF8Name + (8 + xF8.length) < 2 ^ 24
    have hname : lenName vecF8Name = 8 := by decide
    omega

theorem test9_passes (past : Nat → UInt8) (hR : R.Rules) (hsock : 0 < sock) (hv : Idle v)
    (hname : R.IsName vecF8Name) {n : Nat} (hn : 0 < n) (hfits : 8 * n + 100 < 2 ^ 24)
    (niters : Nat) (chkN : Int) :
    ∃ v', (test9 past sock n niters chkN).run (liveHandle R.answer sock) v = (0, v') ∧
      Idle v' := by
  have hlen : (List.replicate (8 * n) (0 : UInt8)).length = 8 * n := List.length_replicate
  have hround : ∀ (i : Nat) s w, Idle w → ∃ s' w',
      Proc.exec (liveHandle R.answer sock) (test9Round past sock n) s w = ⟨.ok (), s', w'⟩ ∧
        Idle w' := by
    intro i s w hw
    obtain ⟨w₁, hset, hw₁, hws⟩ := run_live_setVec past hR hsock hw hname _ _ _
      (vectorFits_doubles hn hlen hfits)
    have hbound : R.workspace w₁.2.2 vecF8Name.bytes =
        some (.vector (doubles _ hlen hfits)) := by
      rw [hws, Function.update_self]
    obtain ⟨w', hget, hw'⟩ := run_live_getVecLen past hR hsock hw₁ hname s hbound
    rw [count_doubles] at hget
    refine ⟨n, w', ?_, hw'⟩
    have hset' : (setVec sock (some vecF8Name) (some QType.F8.str)
        (some (List.replicate (8 * n) 0)) (UInt32.ofNat n) 0).run (liveHandle R.answer sock) w =
          (.ok, w₁) := hset
    rw [test9Round, Proc.exec_lift_bind hset', exec_testBye, Proc.exec_view_bind]
    dsimp only [id]
    rw [Proc.exec_lift_bind hget]
    dsimp only
    rw [Proc.exec_update_bind, exec_testBye, Proc.exec_exitIf, if_neg (not_not_intro rfl)]
  obtain ⟨s', v', hexec, hv'⟩ := exec_rounds (fun _ => Idle) hround 0 niters hv
  exact ⟨v', run_finishTest hexec, hv'⟩

theorem length_fillXF8 {n : Nat} {mem : Bytes} (hmem : mem.length = 8 * n) :
    (fillXF8 n mem).length = 8 * n := by
  rw [fillXF8, List.length_append, List.length_map, List.length_range, List.length_drop]
  omega

/-- The last byte of a NaN is odd. -/
theorem odd_of_isNaN {low : Bytes} {b : UInt8} (hlow : low.length = 7) (h : isNaN (low ++ [b])) :
    b.toNat % 2 = 1 := by
  have hdecode : decode (low ++ [b]) = decode low + 256 ^ 7 * b.toNat := by
    simp only [decode, List.map_append, Nat.ofDigits_append, List.length_map, hlow, List.map_cons,
      List.map_nil, Nat.ofDigits_singleton]
  have hlt := LittleEndian.decode_lt low
  rw [hlow] at hlt
  have hexponent := h.1
  rw [hdecode] at hexponent
  omega

/-- Where all eight bytes are filled the last of them is even. -/
theorem not_isNaN_filled {n j : Nat} (mem : Bytes) (hj : 8 * j + 8 ≤ n) :
    ¬ isNaN (doubleAt j (fillXF8 n mem)) := by
  have hrange : ((List.range n).drop (8 * j)).take 8 =
      List.range' (8 * j) 7 ++ [8 * j + 7] := by
    rw [List.range_eq_range', List.drop_range', List.take_range'_of_length_ge (by omega),
      Nat.mul_one, Nat.zero_add]
    rfl
  have hlen : ((List.range n).map fun i => UInt8.ofNat (10 * (i + 1))).length = n := by
    rw [List.length_map, List.length_range]
  rw [doubleAt, fillXF8, List.drop_append_of_le_length (by omega),
    List.take_append_of_le_length (by rw [List.length_drop]; omega), ← List.map_drop,
    ← List.map_take, hrange, List.map_append]
  intro hnan
  have hodd := odd_of_isNaN (by rw [List.length_map, List.length_range']) hnan
  rw [UInt8.toNat_ofNat'] at hodd
  omega

/-- One round of `test1`: the same doubles come back, and every NaN among them differs from
itself. -/
theorem exec_test1Round (past : Nat → UInt8) (hR : R.Rules) (hsock : 0 < sock) (hv : Idle v)
    (hname : R.IsName vecF8Name) {n : Nat} (hn : 0 < n) (hfits : 8 * n + 100 < 2 ^ 24)
    {xF8 : Bytes} (hlen : xF8.length = 8 * n) (out : VecOut) :
    ∃ v', Proc.exec (liveHandle R.answer sock) (test1Round sock n xF8) out v =
        (if ∃ j ∈ List.range n, isNaN (doubleAt j xF8) then
          ⟨.error (-1), ⟨some xF8, n⟩, v'⟩ else ⟨.ok (), ⟨some xF8, n⟩, v'⟩) ∧ Idle v' := by
  obtain ⟨v₁, hset, hv₁, hws⟩ := run_live_setVec past hR hsock hv hname _ _ _
    (vectorFits_doubles hn hlen hfits)
  have hbound : R.workspace v₁.2.2 vecF8Name.bytes = some (.vector (doubles _ hlen hfits)) := by
    rw [hws, Function.update_self]
  obtain ⟨v', hget, hv'⟩ :=
    run_live_getVec past hR hsock hv₁ hname { out with data := none } hbound
  rw [count_doubles] at hget
  have hset' : (setVec sock (some vecF8Name) (some QType.F8.str) (some xF8) (UInt32.ofNat n)
      0).run (liveHandle R.answer sock) v = (.ok, v₁) := hset
  have hget' : (getVec sock (some vecF8Name) (some QType.F8.str) { out with data := none }).run
      (liveHandle R.answer sock) v₁ = ((.ok, ⟨some xF8, n⟩), v') := hget
  refine ⟨v', ?_, hv'⟩
  rw [test1Round, Proc.exec_lift_bind hset', exec_testBye, Proc.exec_update_bind,
    Proc.exec_view_bind]
  dsimp only [id]
  rw [Proc.exec_lift_bind hget']
  dsimp only
  rw [Proc.exec_update_bind, exec_testBye, Proc.exec_exitIf_neg (not_not_intro rfl)]
  simp only [Proc.exec_exitIf, doubleNe_self]

end Passing

end RserveClient
