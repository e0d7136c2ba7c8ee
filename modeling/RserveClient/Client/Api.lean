import RserveClient.Client.Calls
import RserveClient.Client.Commands

/-!
# All functions on a socket

The functions that evaluate an expression by `exec_str` and look at what it left differ in
the expression they build, the type they ask for and the answer they give. Each of them is
one evaluation with a pure answer, or refuses without touching the socket; so whatever is
known about `exec_str` holds of them.
-/

namespace RserveClient

open Interaction Peek

/-- The functions above `exec_str`, with their arguments and what their result pointer
points to before. -/
inductive Asking where
  | exists1 (val : Option CStr) (x : Bool)
  | exists2 (name : Option CStr) (x : Bool)
  | isVector (name : Option CStr) (x : Bool)
  | getBool (name : Option CStr) (x : Bool)
  | getVecLen (name : CStr) (n : Int)
  | nDf (fn : DfFn) (name : CStr)
  | chkRClass (name cls : Option CStr)
  | setBool (name : CStr) (x : Bool)
  deriving DecidableEq

/-- What the caller of one of these functions gets. -/
inductive Answer where
  | logical (status : Status) (x : Bool)
  | length (status : Status) (n : Int)
  | count (n : Nat)
  | same (answer : Bool)
  | done (status : Status)
  deriving DecidableEq

/-- What a failed `cBYE`, a missing output or a look at the output make of an evaluation. -/
def outputAnswer {α : Type} (past : Nat → UInt8) (peek : Nat → BufProg (Except Why α))
    (r : Status × OutVars) : Except Why α :=
  match r.1 with
  | .bad why => .error why
  | .ok => if r.2.output = none then .error .reply else r.2.look past (peek r.2.lenOut)

/-- What a missing output or a look at the output make of an evaluation whose status is only
handed on. -/
def logicalAnswer (readOut : OutVars → Except Why Bool) (x : Bool) (r : Status × OutVars) :
    Status × Bool :=
  if outputIsNull r.1 r.2 then (.bad .reply, x)
  else
    match readOut r.2 with
    | .error why => (.bad why, x)
    | .ok b => (r.1, b)

/-- `*ptr_n` keeps what it had where there is no length. -/
def lengthAnswer (n : Int) : Except Why Int → Status × Int
  | .ok m => (.ok, m)
  | .error why => (.bad why, n)

def countAnswer : Except Why Int → Nat
  | .ok m => if m < 0 then noCount else m.toNat
  | .error _ => noCount

def sameAnswer : Except Why Bool → Bool
  | .ok same => same
  | .error _ => false

/-- The command of `n_df`, once the socket has passed. -/
def nDfCmd (sock : Int) (fn : DfFn) (name : CStr) : Except Why CStr :=
  if sock < 0 then .error .argument else (nDfBuilder fn).build name

/-- The expression a predicate evaluates, or the check its arguments fail. -/
def logicalCmd (bad : Prop) [Decidable bad] (build : CStr → Except Why CStr)
    (name : Option CStr) : Except Why CStr :=
  if bad then .error .argument
  else
    match name with
    | none => .error .argument
    | some s => build s

namespace Asking

def prog (past : Nat → UInt8) (sock : Int) : Asking → SysProg Answer
  | exists1 val x => do
      let r ← RserveClient.exists1 sock val x
      return .logical r.1 r.2
  | exists2 name x => do
      let r ← RserveClient.exists2 sock (past 4) name x
      return .logical r.1 r.2
  | isVector name x => do
      let r ← RserveClient.isVector sock (past 4) name x
      return .logical r.1 r.2
  | getBool name x => do
      let r ← RserveClient.getBool sock name x
      return .logical r.1 r.2
  | getVecLen name n => do
      let r ← RserveClient.getVecLen past sock name n
      return .length r.1 r.2
  | nDf fn name => do
      let n ← RserveClient.nDf past fn sock name
      return .count n
  | chkRClass name cls => do
      let same ← RserveClient.chkRClass past sock name cls
      return .same same
  | setBool name x => do
      let status ← RserveClient.setBool sock name x
      return .done status

/-- The expression, if the arguments pass their checks and there is memory for it. -/
def cmd (sock : Int) : Asking → Except Why CStr
  | exists1 val _ => logicalCmd (sock < 0) (quotedCmd existsHead 26) val
  | exists2 name _ => logicalCmd (sock < 0) (quotedCmd existsHead 26) name
  | isVector name _ => logicalCmd (sock < 0) (quotedCmd isVectorHead 29) name
  | getBool name _ => logicalCmd (sock ≤ 0) .ok name
  | getVecLen name _ => getVecLenBuilder.build name
  | nDf fn name => nDfCmd sock fn name
  | chkRClass name cls =>
      logicalCmd (sock ≤ 0 ∨ cls = none) chkRClassBuilder.build name
  | setBool name x => (setBoolBuilder x).build name

/-- The type asked for; `set_bool` takes any. -/
def xt : Asking → Int
  | exists1 _ _ => xtArrayBool
  | exists2 _ _ => xtArrayBool
  | isVector _ _ => xtArrayBool
  | getBool _ _ => xtArrayBool
  | getVecLen _ _ => xtArrayInt
  | nDf _ _ => xtArrayInt
  | chkRClass _ _ => xtArrayStr
  | setBool _ _ => -1

/-- What a function that does not get as far as an evaluation leaves. -/
def refusal (f : Asking) (why : Why) : Answer :=
  match f with
  | exists1 _ x => .logical (.bad why) x
  | exists2 _ x => .logical (.bad why) x
  | isVector _ x => .logical (.bad why) x
  | getBool _ x => .logical (.bad why) x
  | getVecLen _ n => .length (.bad why) n
  | nDf _ _ => .count noCount
  | chkRClass _ _ => .same false
  | setBool _ _ => .done (.bad why)

/-- What a function makes of an evaluation. -/
def answer (past : Nat → UInt8) (f : Asking) (r : Status × OutVars) : Answer :=
  match f with
  | exists1 _ x => .logical (logicalAnswer oneLogical x r).1 (logicalAnswer oneLogical x r).2
  | exists2 _ x =>
      .logical (logicalAnswer (fourthByte (past 4)) x r).1
        (logicalAnswer (fourthByte (past 4)) x r).2
  | isVector _ x =>
      .logical (logicalAnswer (fourthByte (past 4)) x r).1
        (logicalAnswer (fourthByte (past 4)) x r).2
  | getBool _ x => .logical (logicalAnswer oneLogical x r).1 (logicalAnswer oneLogical x r).2
  | getVecLen _ n =>
      .length (lengthAnswer n (outputAnswer past peekInt r)).1
        (lengthAnswer n (outputAnswer past peekInt r)).2
  | nDf _ _ => .count (countAnswer (outputAnswer past peekInt r))
  | chkRClass _ cls =>
      .same (sameAnswer (outputAnswer past (peekClass (cls.getD ⟨[], nul_notMem_nil⟩)) r))
  | setBool _ _ => .done r.1

end Asking

/-- One evaluation of a command that could be built, and what is made of it. -/
def evaluation {α : Type} (sock : Int) (cmd : Except Why CStr) (xt : Int) (refused : Why → α)
    (answer : Status × OutVars → α) : SysProg α :=
  match cmd with
  | .error why => .ret (refused why)
  | .ok rcmd => (execStr sock (some rcmd) true xt ⟨none, 0⟩).bind fun r => .ret (answer r)

theorem evaluation_bind {α β : Type} {sock : Int} {cmd : Except Why CStr} {xt : Int}
    {refused : Why → α} {answer : Status × OutVars → α} {p : SysProg α}
    (hp : p = evaluation sock cmd xt refused answer) (f : α → β) :
    p.bind (fun a => .ret (f a)) =
      evaluation sock cmd xt (fun why => f (refused why)) (fun r => f (answer r)) := by
  rw [hp]
  cases cmd with
  | error why => rfl
  | ok rcmd => exact Prog.bind_assoc' _ _ _

/-- A procedure that goes on with an evaluation and needs no more of the socket. -/
theorem finish_evaluation {σ α β : Type} {p : SysProg (Status × OutVars)}
    {k : Status × OutVars → Body σ α} {s : σ} {bye : Except Why α → σ → β}
    {g : Status × OutVars → β}
    (hk : ∀ r, (k r).finish s bye = (.ret (g r) : SysProg β)) :
    Proc.finish (Proc.lift p >>= k) s bye = p.bind fun r => .ret (g r) := by
  have hrest : ∀ r, ((k r) s).bind (fun r' => .ret (bye r'.1 r'.2)) = (.ret (g r) : SysProg β) :=
    hk
  change ((p.bind fun a => .ret (.ok a, s)).bind (Proc.resume k)).bind _ = _
  rw [Prog.bind_assoc', Prog.bind_assoc']
  exact congrArg _ (funext hrest)

theorem finish_exitIf {σ α β : Type} (bad : Prop) [Decidable bad] (e : Why) (p : Body σ α) (s : σ)
    (bye : Except Why α → σ → β) :
    Proc.finish (do
      Proc.exitIf bad e
      p) s bye = if bad then (.ret (bye (.error e) s) : SysProg β) else p.finish s bye := by
  by_cases hbad : bad
  · rw [Proc.exitIf, if_pos hbad, if_pos hbad]
    rfl
  · rw [Proc.exitIf, if_neg hbad, if_neg hbad]
    rfl

theorem finish_update {σ α β : Type} (f : σ → σ) (p : Body σ α) (s : σ)
    (bye : Except Why α → σ → β) :
    Proc.finish (do
      Proc.update f
      p) s bye = (p.finish (f s) bye : SysProg β) := rfl

theorem finish_askOutput {σ α β γ : Type} (sock : Int) (cmd : Except Why CStr) (xt : Int)
    (past : Nat → UInt8) (peek : Nat → BufProg (Except Why α)) {k : α → Body σ β} {s : σ}
    {bye : Except Why β → σ → γ} {g : Except Why α → γ}
    (hok : ∀ a, (k a).finish s bye = (.ret (g (.ok a)) : SysProg γ))
    (hbad : ∀ why, bye (.error why) s = g (.error why)) :
    Proc.finish (askOutput sock cmd xt past peek >>= k) s bye =
      evaluation sock cmd xt (fun why => g (.error why))
        (fun r => g (outputAnswer past peek r)) := by
  cases cmd with
  | error why => exact congrArg Prog.ret (hbad why)
  | ok rcmd =>
      have hform : askOutput (σ := σ) sock (.ok rcmd) xt past peek >>= k =
          Proc.lift (execStr sock (some rcmd) true xt ⟨none, 0⟩) >>= fun r =>
            (do cBye r.1
                Proc.exitIf (r.2.output = none) .reply
                Proc.ofExcept (r.2.look past (peek r.2.lenOut))) >>= k := by
        have hpure : (Proc.ofExcept (.ok rcmd) : Body σ CStr) = pure rcmd := rfl
        rw [askOutput, hpure, pure_bind, bind_assoc]
      rw [hform]
      apply finish_evaluation
      rintro ⟨_ | why, v⟩
      · by_cases hnull : v.output = none
        · have hif : (Proc.exitIf (v.output = none) Why.reply : Body σ Unit) =
              Proc.exit .reply := if_pos hnull
          simp only [outputAnswer, if_pos hnull, hif]
          exact congrArg Prog.ret (hbad .reply)
        · have hif : (Proc.exitIf (v.output = none) Why.reply : Body σ Unit) = pure () :=
            if_neg hnull
          simp only [outputAnswer, if_neg hnull, hif]
          cases v.look past (peek v.lenOut) with
          | ok a => exact hok a
          | error why => exact congrArg Prog.ret (hbad why)
      · exact congrArg Prog.ret (hbad why)

section Functions

variable (past : Nat → UInt8) (sock : Int)

/-- The four predicates. -/
theorem finishLogical_eq (bad : Prop) [Decidable bad] (build : CStr → Except Why CStr)
    (readOut : OutVars → Except Why Bool) (name : Option CStr) (x : Bool) :
    finishLogical (do
      Proc.exitIf bad .argument
      askLogical outputIsNull build readOut sock name) x =
      evaluation sock (logicalCmd bad build name) xtArrayBool (fun why => (.bad why, x))
        (logicalAnswer readOut x) := by
  rw [finishLogical, finish_exitIf]
  unfold logicalCmd
  by_cases hbad : bad
  · rw [if_pos hbad, if_pos hbad]
    rfl
  rw [if_neg hbad, if_neg hbad]
  cases name with
  | none => rfl
  | some s =>
      dsimp only
      rw [askLogical]
      cases build s with
      | error why => rfl
      | ok rcmd =>
          apply finish_evaluation
          rintro ⟨status, v⟩
          unfold logicalAnswer
          cases hnull : outputIsNull status v with
          | true =>
              simp only [if_true]
              rfl
          | false =>
              simp only [Bool.false_eq_true, if_false]
              cases readOut v with
              | error why => rfl
              | ok b => cases status <;> rfl

theorem getVecLen_eq (name : CStr) (n : Int) :
    getVecLen past sock name n =
      evaluation sock (getVecLenBuilder.build name) xtArrayInt
        (fun why => lengthAnswer n (.error why))
        (fun r => lengthAnswer n (outputAnswer past peekInt r)) := by
  rw [getVecLen]
  generalize getVecLenBuilder.build name = rcmd
  apply finish_askOutput
  · intro m
    rfl
  · intro why
    rfl

theorem nDf_eq (fn : DfFn) (name : CStr) :
    nDf past fn sock name =
      evaluation sock (nDfCmd sock fn name) xtArrayInt (fun why => countAnswer (.error why))
        (fun r => countAnswer (outputAnswer past peekInt r)) := by
  rw [nDf, finish_exitIf, nDfCmd]
  split
  · rfl
  generalize (nDfBuilder fn).build name = rcmd
  apply finish_askOutput
  · intro m
    by_cases hneg : m < 0
    · simp only [countAnswer, if_pos hneg, Proc.exitIf]
      rfl
    · simp only [countAnswer, if_neg hneg, Proc.exitIf]
      rfl
  · intro why
    rfl

theorem chkRClass_eq (name cls : Option CStr) :
    chkRClass past sock name cls =
      evaluation sock (logicalCmd (sock ≤ 0 ∨ cls = none) chkRClassBuilder.build name) xtArrayStr
        (fun why => sameAnswer (.error why))
        (fun r => sameAnswer (outputAnswer past
          (peekClass (cls.getD ⟨[], nul_notMem_nil⟩)) r)) := by
  unfold chkRClass
  rw [finish_exitIf]
  unfold logicalCmd
  by_cases hneg : sock ≤ 0
  · rw [if_pos hneg, if_pos (Or.inl hneg)]
    rfl
  rw [if_neg hneg]
  cases cls with
  | none =>
      rw [if_pos (Or.inr rfl)]
      cases name <;> rfl
  | some cls =>
      rw [if_neg (not_or.mpr ⟨hneg, Option.some_ne_none cls⟩)]
      cases name with
      | none => rfl
      | some name =>
          dsimp only [Option.getD_some]
          generalize chkRClassBuilder.build name = rcmd
          rw [← bind_pure (askOutput sock rcmd xtArrayStr past (peekClass cls))]
          apply finish_askOutput
          · intro same
            rfl
          · intro why
            rfl

theorem setBool_eq (name : CStr) (x : Bool) :
    setBool sock name x =
      evaluation sock ((setBoolBuilder x).build name) (-1) (fun why => .bad why)
        (fun r => r.1) := by
  rw [setBool]
  generalize (setBoolBuilder x).build name = rcmd
  cases rcmd with
  | error why => rfl
  | ok rcmd =>
      apply finish_evaluation
      rintro ⟨_ | why, v⟩
      · rfl
      · rfl

end Functions

/-- Each of the functions is one evaluation, or a refusal, and its answer. -/
theorem Asking.prog_eq (past : Nat → UInt8) (sock : Int) (f : Asking) :
    f.prog past sock =
      evaluation sock (f.cmd sock) f.xt f.refusal (f.answer past) := by
  cases f with
  | exists1 val x => exact evaluation_bind (finishLogical_eq sock _ _ _ val x) _
  | exists2 name x => exact evaluation_bind (finishLogical_eq sock _ _ _ name x) _
  | isVector name x => exact evaluation_bind (finishLogical_eq sock _ _ _ name x) _
  | getBool name x => exact evaluation_bind (finishLogical_eq sock _ _ _ name x) _
  | getVecLen name n =>
      have hform := evaluation_bind (getVecLen_eq past sock name n) fun r => Answer.length r.1 r.2
      rw [Asking.cmd]
      exact hform
  | nDf fn name => exact evaluation_bind (nDf_eq past sock fn name) _
  | chkRClass name cls => exact evaluation_bind (chkRClass_eq past sock name cls) _
  | setBool name x =>
      have hform := evaluation_bind (setBool_eq sock name x) Answer.done
      rw [Asking.cmd]
      exact hform

/-- A function whose command has been evaluated, by whatever answers the system calls. -/
theorem Asking.run_prog {W : Type} {h : Handler Syscall Syscall.Res W} (past : Nat → UInt8)
    {sock : Int} {f : Asking} {rcmd : CStr} {r : Status × OutVars} {w w' : W}
    (hcmd : f.cmd sock = .ok rcmd)
    (hrun : (execStr sock (some rcmd) true f.xt ⟨none, 0⟩).run h w = (r, w')) :
    (f.prog past sock).run h w = (f.answer past r, w') := by
  rw [f.prog_eq, hcmd]
  change Prog.run _ (Prog.bind _ _) w = _
  rw [Prog.run_bind', Prog.run_ret, hrun]

theorem Asking.run_prog_refused {W : Type} {h : Handler Syscall Syscall.Res W}
    (past : Nat → UInt8) {sock : Int} {f : Asking} {why : Why} (w : W)
    (hcmd : f.cmd sock = .error why) : (f.prog past sock).run h w = (f.refusal why, w) := by
  rw [f.prog_eq, hcmd]
  rfl

/-- A command in a block is built unless its size is beyond an `int`. -/
theorem CmdBuilder.build_block {b : CmdBuilder} {name : CStr} {slack : Nat}
    (hb : b.buffer = .block slack) (hsmall : name.bytes.length + slack < 2 ^ 31) :
    b.build name = .ok (b.format.paste name) := by
  have hsize : blockSize name slack = name.bytes.length + slack := by
    rw [blockSize, CInt.toInt_eq (by omega) (by omega), CInt.toSizeT_natCast (by omega)]
  apply CmdBuilder.build_eq_ok
  rw [hb, CmdBuffer.size, hsize, if_neg]
  rw [ptrdiffMax]
  omega

namespace Unbuilt

/-- In `get_vec_len.c` the block has room for `length()` and 16 bytes more. -/
def getVecLenBuilder : CmdBuilder := ⟨RserveClient.getVecLenBuilder.format, .block 24⟩

/-- `get_vec_len.c`, which the library is built without. -/
def getVecLen (past : Nat → UInt8) (sock : Int) (name : Option CStr) (n : Int) :
    SysProg (Status × Int) :=
  Proc.finish (do
    Proc.exitIf (sock < 0) .argument
    match name with
    | none => Proc.exit .argument
    | some name =>
        Proc.update fun _ => -1
        let m ← askOutput sock (getVecLenBuilder.build name) xtArrayInt past peekInt
        Proc.update fun _ => m) n fun exit n => (Status.ofExit exit, n)

theorem getVecLen_eq (past : Nat → UInt8) {sock : Int} (hsock : 0 ≤ sock) (name : CStr) (n : Int) :
    getVecLen past sock (some name) n =
      evaluation sock (getVecLenBuilder.build name) xtArrayInt
        (fun why => lengthAnswer (-1) (.error why))
        (fun r => lengthAnswer (-1) (outputAnswer past peekInt r)) := by
  rw [getVecLen, finish_exitIf, if_neg (Int.not_lt.mpr hsock)]
  rw [finish_update]
  generalize getVecLenBuilder.build name = rcmd
  apply finish_askOutput
  · intro m
    rfl
  · intro why
    rfl

theorem lengthAnswer_neg_one (n : Int) (x : Except Why Int) :
    lengthAnswer (-1) x =
      ((lengthAnswer n x).1, if (lengthAnswer n x).1 = .ok then (lengthAnswer n x).2 else -1) := by
  cases x <;> rfl

/-- The two make the same system calls and return the same status, whatever answers them; after
a failure one leaves -1 and the other what was there. -/
theorem run_getVecLen {W : Type} (h : Handler Syscall Syscall.Res W) (past : Nat → UInt8)
    {sock : Int} (hsock : 0 ≤ sock) {name : CStr} (hname : name.bytes.length + 24 < 2 ^ 31)
    (n : Int) (w : W) :
    (getVecLen past sock (some name) n).run h w =
      let r := (RserveClient.getVecLen past sock name n).run h w
      ((r.1.1, if r.1.1 = .ok then r.1.2 else -1), r.2) := by
  have hlong : getVecLenBuilder.build name =
      .ok (RserveClient.getVecLenBuilder.format.paste name) := CmdBuilder.build_block rfl hname
  have hshort : RserveClient.getVecLenBuilder.build name =
      .ok (RserveClient.getVecLenBuilder.format.paste name) :=
    CmdBuilder.build_block rfl (by omega : name.bytes.length + 16 < 2 ^ 31)
  rw [getVecLen_eq past hsock, RserveClient.getVecLen_eq, hlong, hshort]
  unfold evaluation
  rw [Prog.run_bind', Prog.run_bind', Prog.run_ret, Prog.run_ret]
  exact Prod.ext (lengthAnswer_neg_one n _) rfl

end Unbuilt

/-- A function of the library, called on a socket. -/
inductive ApiCall where
  | exchange (call : Call)
  | ask (f : Asking)
  deriving DecidableEq

inductive ApiRet where
  | exchange (r : Ret)
  | ask (a : Answer)
  deriving DecidableEq

def ApiCall.prog (past : Nat → UInt8) (sock : Int) : ApiCall → SysProg ApiRet
  | exchange call => (call.prog sock).bind fun r => .ret (.exchange r)
  | ask f => (f.prog past sock).bind fun a => .ret (.ask a)

theorem ApiCall.run_exchange {W : Type} {h : Handler Syscall Syscall.Res W} (past : Nat → UInt8)
    {sock : Int} {call : Call} {r : Ret} {w w' : W} (hrun : (call.prog sock).run h w = (r, w')) :
    ((ApiCall.exchange call).prog past sock).run h w = (.exchange r, w') := by
  rw [ApiCall.prog, Prog.run_bind', Prog.run_ret, hrun]

theorem ApiCall.run_ask {W : Type} {h : Handler Syscall Syscall.Res W} (past : Nat → UInt8)
    {sock : Int} {f : Asking} {a : Answer} {w w' : W}
    (hrun : (f.prog past sock).run h w = (a, w')) :
    ((ApiCall.ask f).prog past sock).run h w = (.ask a, w') := by
  rw [ApiCall.prog, Prog.run_bind', Prog.run_ret, hrun]

/-- One call after another on a socket. -/
def session (past : Nat → UInt8) (sock : Int) : List ApiCall → SysProg (List ApiRet)
  | [] => .ret []
  | call :: calls => (call.prog past sock).bind fun r =>
      (session past sock calls).bind fun rs => .ret (r :: rs)

theorem run_session_cons {W : Type} (h : Handler Syscall Syscall.Res W) (past : Nat → UInt8)
    (sock : Int) (call : ApiCall) (calls : List ApiCall) (w : W) :
    (session past sock (call :: calls)).run h w =
      let r := (call.prog past sock).run h w
      let rs := (session past sock calls).run h r.2
      (r.1 :: rs.1, rs.2) := by
  rw [session, Prog.run_bind', Prog.run_bind', Prog.run_ret]

end RserveClient
