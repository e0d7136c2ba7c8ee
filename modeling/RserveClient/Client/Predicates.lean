import RserveClient.Client.ExecStr

/-!
# Asking for a logical

`exists1`, `exists2`, `is_vector` and `get_bool` evaluate an expression and
read one logical out of the buffer that `exec_str` leaves. They do not look at
its status but test the output pointer.

## Implementation notes

The test is a parameter, so that the functions can be compared with variants
that look at the status. `ptr_x` is taken to be a valid pointer; a `Bool` stands
for what it points to. A name so long that the `int` size wraps to a small one
overruns the buffer of the `sprintf`; here the expression is built all the same.
-/

namespace RserveClient

open Interaction

/-- A test of what `exec_str` left, after which a caller gives up. -/
abbrev FailureTest := Status → OutVars → Bool

/-- The test the sources make: `exec_out == NULL`. -/
def outputIsNull : FailureTest := fun _ v => v.output.isNone

/-- The test of the status, as `cBYE` makes it. -/
def statusIsNegative : FailureTest := fun status _ => decide (status.code < 0)

/-- The part that the four functions share. `cmd` builds the expression and `readOut` takes
the logical out of the buffer. -/
def askLogical (failed : FailureTest) (cmd : CStr → Except Why CStr)
    (readOut : OutVars → Except Why Bool) (sock : Int) (name : Option CStr) : Body Bool Unit :=
  match name with
  | none => Proc.exit .argument
  | some s => do
      let rcmd ← Proc.ofExcept (cmd s)
      let r ← Proc.lift (execStr sock (some rcmd) true xtArrayBool ⟨none, 0⟩)
      Proc.exitIf (failed r.1 r.2 = true) .reply
      let x ← Proc.ofExcept (readOut r.2)
      Proc.update fun _ => x
      -- what is returned is the status of exec_str
      match r.1 with
      | .ok => pure ()
      | .bad why => Proc.exit why

/-- `malloc` of `strlen(name) + slack` bytes, a number kept in an `int`, and the `sprintf`
of `head`, the name, a quote and a bracket. -/
def quotedCmd (head : CStr) (slack : Nat) (name : CStr) : Except Why CStr :=
  if ptrdiffMax < CInt.toSizeT (CInt.toInt (name.bytes.length + slack : Nat)) then .error .memory
  else .ok ⟨head.bytes ++ (name.bytes ++ [34, 41]), by
    simp only [List.mem_append, not_or]
    exact ⟨head.nulFree, name.nulFree, by decide⟩⟩

/-- `exists("` -/
def existsHead : CStr := ⟨[101, 120, 105, 115, 116, 115, 40, 34], by decide⟩

/-- `is.vector("` -/
def isVectorHead : CStr := ⟨[105, 115, 46, 118, 101, 99, 116, 111, 114, 40, 34], by decide⟩

/-- A single logical: eight bytes, a count of one, and the low bit of the second word. -/
def oneLogical (v : OutVars) : Except Why Bool :=
  let execOut := v.output.getD []
  if v.lenOut ≠ 8 then .error .reply
  else if execOut.head? ≠ some 1 then .error .reply
  else .ok (LittleEndian.word execOut 1 &&& 1 ≠ 0)

/-- The byte at index 4 of a buffer that is not empty; in a buffer of one to four bytes it
is the byte `past` its end. -/
def fourthByte (past : UInt8) (v : OutVars) : Except Why Bool :=
  let execOut := v.output.getD []
  if v.lenOut = 0 then .error .reply
  else .ok (execOut[4]?.getD past ≠ 0)

section Functions

variable (failed : FailureTest) (sock : Int)

def exists1With (val : Option CStr) : Body Bool Unit := do
  Proc.exitIf (sock < 0) .argument
  askLogical failed (quotedCmd existsHead 26) oneLogical sock val

def exists2With (past : UInt8) (name : Option CStr) : Body Bool Unit := do
  Proc.exitIf (sock < 0) .argument
  askLogical failed (quotedCmd existsHead 26) (fourthByte past) sock name

def isVectorWith (past : UInt8) (name : Option CStr) : Body Bool Unit := do
  Proc.exitIf (sock < 0) .argument
  askLogical failed (quotedCmd isVectorHead 29) (fourthByte past) sock name

/-- The name itself is the expression. -/
def getBoolWith (name : Option CStr) : Body Bool Unit := do
  Proc.exitIf (sock ≤ 0) .argument
  askLogical failed .ok oneLogical sock name

end Functions

/-- The caller sees the status and `*ptr_x`. -/
def finishLogical (p : Body Bool Unit) (x : Bool) : SysProg (Status × Bool) :=
  p.finish x fun exit x => (Status.ofExit exit, x)

def exists1 (sock : Int) (val : Option CStr) (x : Bool) : SysProg (Status × Bool) :=
  finishLogical (exists1With outputIsNull sock val) x

def exists2 (sock : Int) (past : UInt8) (name : Option CStr) (x : Bool) :
    SysProg (Status × Bool) :=
  finishLogical (exists2With outputIsNull sock past name) x

def isVector (sock : Int) (past : UInt8) (name : Option CStr) (x : Bool) :
    SysProg (Status × Bool) :=
  finishLogical (isVectorWith outputIsNull sock past name) x

def getBool (sock : Int) (name : Option CStr) (x : Bool) : SysProg (Status × Bool) :=
  finishLogical (getBoolWith outputIsNull sock name) x

/-- Two tests that agree on what `exec_str` leaves lead to the same run. -/
theorem exec_askLogical_congr {failed failed' : FailureTest} {cmd : CStr → Except Why CStr}
    {readOut : OutVars → Except Why Bool} {sock : Int} {name : Option CStr} {c : Conn}
    (hsame : ∀ rcmd, ∀ r : Status × OutVars,
      (Prog.run Conn.handle (execStr sock (some rcmd) true xtArrayBool ⟨none, 0⟩) c).1 = r →
        failed r.1 r.2 = failed' r.1 r.2) (x : Bool) :
    execOn (askLogical failed cmd readOut sock name) x c =
      execOn (askLogical failed' cmd readOut sock name) x c := by
  cases name with
  | none => rfl
  | some s =>
      simp only [execOn, askLogical]
      cases cmd s with
      | error why => rfl
      | ok rcmd =>
          rw [Proc.exec_bind_ok (Proc.exec_ofExcept_ok _ _ _ _),
            Proc.exec_bind_ok (Proc.exec_ofExcept_ok _ _ _ _), Proc.exec_lift_bind rfl,
            Proc.exec_lift_bind rfl, hsame rcmd _ rfl]

/-- So does a function with any further test before it. -/
theorem run_finishLogical_congr {failed failed' : FailureTest} {cmd : CStr → Except Why CStr}
    {readOut : OutVars → Except Why Bool} {sock : Int} {name : Option CStr} {c : Conn}
    (hsame : ∀ rcmd, ∀ r : Status × OutVars,
      (Prog.run Conn.handle (execStr sock (some rcmd) true xtArrayBool ⟨none, 0⟩) c).1 = r →
        failed r.1 r.2 = failed' r.1 r.2) (bad : Prop) [Decidable bad] (x : Bool) :
    Prog.run Conn.handle (finishLogical (do
        Proc.exitIf bad .argument
        askLogical failed cmd readOut sock name) x) c =
      Prog.run Conn.handle (finishLogical (do
        Proc.exitIf bad .argument
        askLogical failed' cmd readOut sock name) x) c := by
  have hrest : execOn (askLogical failed cmd readOut sock name) x c =
      execOn (askLogical failed' cmd readOut sock name) x c := exec_askLogical_congr hsame x
  rw [execOn, execOn] at hrest
  rw [finishLogical, finishLogical, Proc.run_finish, Proc.run_finish]
  by_cases hbad : bad
  · rw [Proc.exec_exitIf_pos hbad, Proc.exec_exitIf_pos hbad]
  · rw [Proc.exec_exitIf_neg hbad, Proc.exec_exitIf_neg hbad, hrest]

end RserveClient
