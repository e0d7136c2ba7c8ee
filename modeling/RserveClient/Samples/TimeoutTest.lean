import RserveClient.Samples.UnitTest1
import RserveClient.Session.Ledger

/-!
# The timeout test

`test10` of `unit_test_1.c` connects, has a function defined and called, and closes, several
times over. Its status is that of its last `close_conn`, and the socket of its first `rconnect`
is overwritten by that of its second.

## Implementation notes

A program over the library: its operations are calls of the library, which are run on the host.
What `rconnect` finds is another network each time. The replies of the peers are in the
networks, so all statements are about whatever R answers.
-/

namespace RserveClient

open Interaction

inductive LibCall where
  | rconnect (server : Option CStr) (portnum sndTimeoutSec rcvTimeoutSec ptrSock : Int)
  | execStr (sock : Int) (str : Option CStr) (ptrOutput : Bool) (expectedXt : Int) (out : OutVars)
  | chkRClass (sock : Int) (name cls : Option CStr)
  | closeConn (sock : Int)

def LibCall.Res : LibCall → Type
  | rconnect _ _ _ _ _ => Int × Int
  | execStr _ _ _ _ _ => Status × OutVars
  | chkRClass _ _ _ => Bool
  | closeConn _ => Status

/-- The host, and what the next calls of `rconnect` are going to find. -/
abbrev Bench := Host × (Nat → Net)

def Bench.handle (past : Nat → UInt8) : Handler LibCall LibCall.Res Bench
  | .rconnect server portnum sndTimeoutSec rcvTimeoutSec ptrSock, w =>
      let r := Prog.run Host.handle
        (RserveClient.rconnect server portnum sndTimeoutSec rcvTimeoutSec ptrSock)
        (w.1.meets (w.2 0))
      (r.1, r.2, fun k => w.2 (k + 1))
  | .execStr sock str ptrOutput expectedXt out, w =>
      let r := Prog.run Host.handle
        ((RserveClient.execStr sock str ptrOutput expectedXt out).via hostSyscall) w.1
      (r.1, r.2, w.2)
  | .chkRClass sock name cls, w =>
      let r := Prog.run Host.handle
        ((RserveClient.chkRClass past sock name cls).via hostSyscall) w.1
      (r.1, r.2, w.2)
  | .closeConn sock, w =>
      let r := Prog.run Host.handle ((closeConnProg sock).via hostSyscall) w.1
      (r.1, r.2, w.2)

/-- An `rconnect` of the run succeeds, with a descriptor other than 0. -/
def Connected : (call : LibCall) → call.Res → Prop
  | .rconnect _ _ _ _ _, (r : Int × Int) => r.1 = 0 ∧ 0 < r.2
  | .execStr _ _ _ _ _, _ => True
  | .chkRClass _ _ _, _ => True
  | .closeConn _, _ => True

instance : (call : LibCall) → (r : call.Res) → Decidable (Connected call r)
  | .rconnect _ _ _ _ _, (r : Int × Int) => inferInstanceAs (Decidable (r.1 = 0 ∧ 0 < r.2))
  | .execStr _ _ _ _ _, _ => isTrue trivial
  | .chkRClass _ _ _, _ => isTrue trivial
  | .closeConn _, _ => isTrue trivial

/-- A call that sends and reads on a socket. -/
def LibCall.Talks (sock : Int) : LibCall → Prop
  | rconnect _ _ _ _ _ => False
  | execStr s _ _ _ _ => s = sock
  | chkRClass s _ _ => s = sock
  | closeConn _ => False

/-- `rm(f)` -/
def rmF : CStr := ⟨[114, 109, 40, 102, 41], by decide⟩

/-- `f <- function(n) {   sum = 0; for ( x in 1:200000000 ) { sum = sum+x }; return(sum) } ` -/
def fnCase1 : CStr :=
  ⟨[102, 32, 60, 45, 32, 102, 117, 110, 99, 116, 105, 111, 110, 40, 110, 41, 32, 123, 32, 32, 32,
    115, 117, 109, 32, 61, 32, 48, 59, 32, 102, 111, 114, 32, 40, 32, 120, 32, 105, 110, 32, 49,
    58, 50, 48, 48, 48, 48, 48, 48, 48, 48, 32, 41, 32, 123, 32, 115, 117, 109, 32, 61, 32, 115,
    117, 109, 43, 120, 32, 125, 59, 32, 114, 101, 116, 117, 114, 110, 40, 115, 117, 109, 41, 32,
    125, 32], by decide⟩

/-- `f <- function(n) { print(paste('hello world', n+1)) }` -/
def fnCase2 : CStr :=
  ⟨[102, 32, 60, 45, 32, 102, 117, 110, 99, 116, 105, 111, 110, 40, 110, 41, 32, 123, 32, 112,
    114, 105, 110, 116, 40, 112, 97, 115, 116, 101, 40, 39, 104, 101, 108, 108, 111, 32, 119, 111,
    114, 108, 100, 39, 44, 32, 110, 43, 49, 41, 41, 32, 125], by decide⟩

/-- `f(10)` -/
def fnExecute : CStr := ⟨[102, 40, 49, 48, 41], by decide⟩

/-- `class(f)` -/
def fnClassIn : CStr := ⟨[99, 108, 97, 115, 115, 40, 102, 41], by decide⟩

/-- `f` -/
def nameF : CStr := ⟨[102], by decide⟩

/-- `function` -/
def functionName : CStr := ⟨[102, 117, 110, 99, 116, 105, 111, 110], by decide⟩

section Test

variable (past : Nat → UInt8)

/-- `cBYE` -/
def libBye {σ : Type} (status : Status) : Proc LibCall LibCall.Res σ Int Unit :=
  Proc.exitIf (status.code < 0) status.code

abbrev CheckProc := Proc LibCall LibCall.Res Unit Int

/-- `exec_str` on `exec_out` and `len_out`, which have been cleared. -/
def testExec (sock : Int) (str : CStr) (ptrOutput : Bool) (xt : Int) :
    CheckProc (Status × OutVars) :=
  Proc.lift (Prog.perform (LibCall.execStr sock (some str) ptrOutput xt ⟨none, 0⟩))

def defineF (mode : Nat) (sock : Int) : CheckProc (Status × OutVars) :=
  match mode with
  | 1 => testExec sock fnCase1 false (-1)
  | 2 => testExec sock fnCase2 false (-1)
  | _ => Proc.exit (-1)

/-- In the first mode the function is to take more time than the socket allows. -/
def expectMode (mode : Nat) (status : Status) : CheckProc Unit :=
  match mode with
  | 1 => Proc.exitIf (status.code = 0) (-1)
  | 2 => libBye status
  | _ => Proc.exit (-1)

/-- One round between its `rconnect` and its `close_conn`; the status of the `rm` is dropped. -/
def timeoutBody (mode : Nat) (sock : Int) : CheckProc Unit := do
  let _ ← testExec sock rmF false (-1)
  let defined ← defineF mode sock
  libBye defined.1
  let out ← testExec sock fnClassIn true xtArrayStr
  match out.2.output with
  | none => Proc.exit (-1)
  | some execOut =>
      Proc.exitIf (Peek.look execOut past (Peek.strEq functionName.bytes 0) = false) (-1)
      let (same : Bool) ←
        Proc.lift (Prog.perform (LibCall.chkRClass sock (some nameF) (some functionName)))
      Proc.exitIf (same = false) (-1)
      Proc.exitIf (sock ≤ 0) (-1)
      let executed ← testExec sock fnExecute true xtArrayStr
      expectMode mode executed.1

/-- `status` and `sock` -/
structure TimeoutVars where
  status : Int
  sock : Int
  deriving DecidableEq

abbrev TimeoutProc := Proc LibCall LibCall.Res TimeoutVars Int

/-- `rconnect` leaves `sock` alone unless it succeeds. -/
def timeoutConnect (server : CStr) (portnum : Int) : TimeoutProc Unit := do
  let sock ← Proc.view TimeoutVars.sock
  let r ← Proc.lift (Prog.perform (LibCall.rconnect (some server) portnum 5 5 sock))
  let r : Int × Int := r
  Proc.update fun _ => ⟨r.1, r.2⟩
  Proc.exitIf (r.1 < 0) r.1

/-- What follows the `rconnect` of a round. -/
def timeoutUse (mode : Nat) : TimeoutProc Unit := do
  let sock ← Proc.view TimeoutVars.sock
  let exit ← Proc.lift ((timeoutBody past mode sock).finish () fun exit _ => exit)
  Proc.ofExcept exit
  let status ← Proc.lift (Prog.perform (LibCall.closeConn sock))
  let status : Status := status
  Proc.update fun _ => ⟨status.code, -1⟩

def timeoutRound (server : CStr) (portnum : Int) (mode : Nat) : TimeoutProc Unit := do
  timeoutConnect server portnum
  timeoutUse past mode

/-- `for ( int mode = 1; mode <= 2; mode++ )` around the rounds -/
def timeoutModes (server : CStr) (portnum : Int) (niters : Nat) : TimeoutProc Unit :=
  rounds (fun mode => rounds (fun _ => timeoutRound past server portnum mode) 0 niters) 1 2

/-- At `BYE` a socket that is there is closed, and the status is that of closing it. -/
def test10 (server : CStr) (portnum : Int) (niters : Nat) : Prog LibCall LibCall.Res Int :=
  (Proc.finish (do
    timeoutConnect server portnum
    timeoutModes past server portnum niters) ⟨0, -1⟩ fun exit vars =>
      (match exit with
        | .ok _ => vars.status
        | .error status => status, vars.sock)).bind fun r =>
    if 0 < r.2 then
      (Prog.perform (LibCall.closeConn r.2)).bind fun (status : Status) => .ret status.code
    else .ret r.1

end Test

section Calls

variable {past : Nat → UInt8} {fd : Nat} {h : Host}

theorem opens_congr {h h' : Host} (hconn : ∀ x, (h'.conn x).isOpen = (h.conn x).isOpen) :
    h'.opens = h.opens := by
  ext sock
  exact exists_congr fun x => and_congr_right fun _ => by rw [hconn]

/-- Sending and reading opens and closes nothing. -/
theorem opens_run_via {α : Type} {p : SysProg α}
    (hp : p.Only fun op => op.sends (fd : Int) ∨ op.reads fd) (h : Host) :
    (Prog.run Host.handle (p.via hostSyscall) h).2.opens = h.opens := by
  have hsock : p.Only fun op => op.sock = (fd : Int) := by
    refine hp.mono fun op hop => ?_
    cases op with
    | send s buf => exact hop.elim id False.elim
    | read s count => exact hop.elim False.elim id
    | close s => exact hop.elim False.elim False.elim
  rw [run_via_hostSyscall hsock]
  refine opens_congr fun x => ?_
  by_cases hx : x = fd
  · rw [hx, Host.conn_setConn]
    exact hp.run_frame Conn.isOpen (fun _ hop c => isOpen_handle hop c) _
  · exact h.isOpen_setConn_of_ne _ hx

theorem opens_handle_talks {call : LibCall} (hcall : call.Talks fd) (w : Bench) :
    (Bench.handle past call w).2.1.opens = w.1.opens := by
  have hsend : ∀ buf, Syscall.sends (fd : Int) (.send fd buf) := fun _ => rfl
  have hread : ∀ count, Syscall.reads (fd : Int) (.read fd count) := fun _ => rfl
  cases call with
  | rconnect server portnum sndTimeoutSec rcvTimeoutSec ptrSock => exact hcall.elim
  | execStr sock str ptrOutput xt out =>
      obtain rfl : sock = fd := hcall
      have hphases := phases_execStr hsend hread str ptrOutput xt out
      exact opens_run_via (hphases.only (fun _ => Or.inl) fun _ => Or.inr) w.1
  | chkRClass sock name cls =>
      obtain rfl : sock = fd := hcall
      have hphases : (RserveClient.chkRClass past fd name cls).Phases (Syscall.sends fd)
          (Syscall.reads fd) := by
        rw [chkRClass_eq]
        unfold evaluation
        cases logicalCmd ((fd : Int) ≤ 0 ∨ cls = none) chkRClassBuilder.build name with
        | error why => trivial
        | ok rcmd =>
            exact (phases_execStr hsend hread (some rcmd) true xtArrayStr ⟨none, 0⟩).bind
              fun _ => trivial
      exact opens_run_via (hphases.only (fun _ => Or.inl) fun _ => Or.inr) w.1
  | closeConn sock => exact hcall.elim

/-- A status of 0 comes with one descriptor more. -/
theorem opens_handle_rconnect {server : Option CStr}
    {portnum sndTimeoutSec rcvTimeoutSec ptrSock : Int} {w w' : Bench} {r : Int × Int}
    (hrun : Bench.handle past (.rconnect server portnum sndTimeoutSec rcvTimeoutSec ptrSock) w =
      (r, w')) (hok : r.1 = 0) :
    r.2 ∉ w.1.opens ∧ w'.1.opens = insert r.2 w.1.opens := by
  have hmeets : (w.1.meets (w.2 0)).opens = w.1.opens := opens_congr fun _ => rfl
  rw [Bench.handle] at hrun
  obtain ⟨hr, hw⟩ := Prod.mk.inj hrun
  have hopens := congrArg (fun w : Bench => w.1.opens) hw
  by_cases hrefused : (w.1.meets (w.2 0)).Refuses server portnum
  · rw [run_rconnect_refused hrefused] at hr
    rw [← hr] at hok
    cases hok
  · obtain ⟨s, fd, rfl, hpos, hfd⟩ := Host.of_not_refuses hrefused
    obtain ⟨r', hrun', ho, _, hend⟩ := run_rconnect hfd hpos s sndTimeoutSec rcvTimeoutSec ptrSock
    rw [hrun'] at hr hopens
    dsimp only at hopens
    rcases hend with ⟨_, hr', _⟩ | ⟨_, hneg, _⟩
    · rw [← hr, hr', ← hopens, ← hmeets]
      exact ⟨Host.notMem_opens_of_newSocket hfd, ho.opens_eq⟩
    · rw [← hr] at hok
      change r'.1.1 = 0 at hok
      omega

/-- An open descriptor is closed. -/
theorem run_handle_closeConn (past : Nat → UInt8) {sock : Int} {w : Bench}
    (hmem : sock ∈ w.1.opens) :
    ∃ w', Bench.handle past (.closeConn sock) w = (Status.ok, w') ∧
      w'.1.opens = w.1.opens \ {sock} := by
  obtain ⟨fd, rfl, hopen⟩ := hmem
  have hrun := run_via_hostSyscall (only_closeConnProg fd) w.1
  rw [run_closeConnProg (Int.natCast_nonneg fd) hopen] at hrun
  refine ⟨(w.1.setConn fd (w.1.conn fd).closed, w.2), ?_, ?_⟩
  · rw [Bench.handle, hrun]
    rfl
  · ext sock
    rw [Set.mem_sdiff, Set.mem_singleton_iff]
    constructor
    · rintro ⟨x, rfl, hx⟩
      by_cases hxfd : x = fd
      · rw [hxfd] at hx
        dsimp only at hx
        rw [Host.conn_setConn] at hx
        cases hx
      · rw [w.1.isOpen_setConn_of_ne _ hxfd] at hx
        exact ⟨⟨x, rfl, hx⟩, fun heq => hxfd (Int.ofNat_inj.mp heq)⟩
    · rintro ⟨⟨x, rfl, hx⟩, hne⟩
      refine ⟨x, rfl, ?_⟩
      rw [w.1.isOpen_setConn_of_ne _ fun hxfd => hne (congrArg Nat.cast hxfd)]
      exact hx

end Calls

section Ending

variable {past : Nat → UInt8} {server : CStr} {portnum : Int} {niters : Nat} {S : Set Int}
  {v : TimeoutVars} {w : Bench}

/-- Besides `S` just the socket is open. -/
structure Held (S : Set Int) (sock : Int) (w : Bench) : Prop where
  pos : 0 < sock
  notMem : sock ∉ S
  opens : w.1.opens = insert sock S

theorem Held.closed (past : Nat → UInt8) {sock : Int} (hw : Held S sock w) :
    ∃ w', Bench.handle past (.closeConn sock) w = (Status.ok, w') ∧ w'.1.opens = S := by
  have hmem : sock ∈ w.1.opens := by
    rw [hw.opens]
    exact Set.mem_insert sock S
  obtain ⟨w', hrun, hopens⟩ := run_handle_closeConn past hmem
  refine ⟨w', hrun, ?_⟩
  rw [hopens, hw.opens, Set.insert_sdiff_of_mem _ (Set.mem_singleton sock),
    Set.sdiff_singleton_eq_self hw.notMem]

/-- The rounds so far have closed what they opened, or the last one has left with its socket
open. -/
def Ends (S : Set Int) (r : Final Int TimeoutVars Bench Unit) : Prop :=
  (r.exit = .ok () ∧ r.vars = ⟨0, -1⟩ ∧ r.world.1.opens = S) ∨
    ((∃ status, r.exit = .error status) ∧ Held S r.vars.sock r.world)

theorem exec_timeoutConnect
    (hrun : Proc.Along (Bench.handle past) Connected (timeoutConnect server portnum) v w) :
    ∃ sock w', Proc.exec (Bench.handle past) (timeoutConnect server portnum) v w =
      ⟨.ok (), ⟨0, sock⟩, w'⟩ ∧ Held w.1.opens sock w' := by
  have hcall := ((hrun.rest (Proc.exec_view _ _ _ _)).first).of_perform
  have hstep : Prog.run (Bench.handle past)
      (Prog.perform (LibCall.rconnect (some server) portnum 5 5 v.sock)) w =
        Bench.handle past (.rconnect (some server) portnum 5 5 v.sock) w := rfl
  generalize hanswer : Bench.handle past (.rconnect (some server) portnum 5 5 v.sock) w = answer
    at hcall hstep
  obtain ⟨r, w'⟩ := answer
  obtain ⟨hok, hpos⟩ := hcall
  obtain ⟨hnew, hopens⟩ := opens_handle_rconnect hanswer hok
  dsimp only at hok hpos hnew hopens
  refine ⟨Prod.snd r, w', ?_, hpos, hnew, hopens⟩
  rw [timeoutConnect, Proc.exec_view_bind, Proc.exec_lift_bind hstep]
  dsimp only
  rw [Proc.exec_update_bind, Proc.exec_exitIf, if_neg (by omega), hok]

theorem only_timeoutBody (mode : Nat) (sock : Int) :
    Proc.Only (LibCall.Talks sock) (timeoutBody past mode sock) := by
  have hexec : ∀ str ptrOutput xt, Proc.Only (LibCall.Talks sock)
      (testExec sock str ptrOutput xt) := fun str ptrOutput xt => Proc.only_perform rfl
  have hdefine : Proc.Only (LibCall.Talks sock) (defineF mode sock) := by
    unfold defineF
    split
    · exact hexec fnCase1 false (-1)
    · exact hexec fnCase2 false (-1)
    · exact Proc.only_exit _
  have hexpect : ∀ status, Proc.Only (LibCall.Talks sock) (expectMode mode status) := by
    intro status
    unfold expectMode
    split
    · exact Proc.only_exitIf _ _
    · exact Proc.only_exitIf _ _
    · exact Proc.only_exit _
  refine (hexec rmF false (-1)).bind fun _ => hdefine.bind fun _ => Proc.only_exitIf_bind ?_
  refine (hexec fnClassIn true xtArrayStr).bind fun out => ?_
  split
  · exact Proc.only_exit _
  · refine Proc.only_exitIf_bind (Proc.Only.bind (Proc.only_perform rfl) fun same => ?_)
    refine Proc.only_exitIf_bind (Proc.only_exitIf_bind ?_)
    exact (hexec fnExecute true xtArrayStr).bind fun executed => hexpect executed.1

/-- Whatever the function has come to, the round closes its socket or leaves with it. -/
theorem exec_timeoutUse {sock : Int} (hw : Held S sock w) (hv : v.sock = sock) (mode : Nat) :
    Ends S (Proc.exec (Bench.handle past) (timeoutUse past mode) v w) := by
  obtain ⟨fd, rfl⟩ := Int.eq_ofNat_of_zero_le (Int.le_of_lt hw.pos)
  have honly : ((timeoutBody past mode fd).finish () fun exit _ => exit).Only
      (LibCall.Talks fd) := (only_timeoutBody mode fd).finish () _
  have hopens := honly.run_frame (h := Bench.handle past) (fun w : Bench => w.1.opens)
    (fun _ hop w => opens_handle_talks hop w) w
  rw [timeoutUse, Proc.exec_view_bind, hv]
  generalize hbody : Prog.run (Bench.handle past)
    ((timeoutBody past mode fd).finish () fun exit _ => exit) w = answer at hopens
  obtain ⟨exit, w'⟩ := answer
  have hw' : Held S fd w' := ⟨hw.pos, hw.notMem, hopens.trans hw.opens⟩
  rw [Proc.exec_lift_bind hbody]
  cases exit with
  | error status => exact Or.inr ⟨⟨status, rfl⟩, hv ▸ hw'⟩
  | ok =>
      obtain ⟨w'', hclose, hend⟩ := hw'.closed past
      have hclose' : Prog.run (Bench.handle past) (Prog.perform (LibCall.closeConn fd)) w' =
          (Status.ok, w'') := hclose
      rw [Proc.exec_bind_ok (Proc.exec_ofExcept_ok _ _ _ _), Proc.exec_lift_bind hclose']
      exact Or.inl ⟨rfl, rfl, hend⟩

theorem exec_timeoutRound {mode : Nat}
    (hrun : Proc.Along (Bench.handle past) Connected
      (timeoutRound past server portnum mode) v w) :
    Ends w.1.opens (Proc.exec (Bench.handle past)
      (timeoutRound past server portnum mode) v w) := by
  obtain ⟨sock, w', hconnect, hw'⟩ := exec_timeoutConnect hrun.first
  rw [timeoutRound, Proc.exec_bind_ok hconnect]
  exact exec_timeoutUse hw' rfl mode

/-- Going on from an end. -/
theorem Ends.bind {p : TimeoutProc Unit} {f : Unit → TimeoutProc Unit}
    (hp : Ends S (Proc.exec (Bench.handle past) p v w))
    (hf : ∀ w', Proc.exec (Bench.handle past) p v w = ⟨.ok (), ⟨0, -1⟩, w'⟩ → w'.1.opens = S →
      Ends S (Proc.exec (Bench.handle past) (f ()) ⟨0, -1⟩ w')) :
    Ends S (Proc.exec (Bench.handle past) (p >>= f) v w) := by
  generalize hexec : Proc.exec (Bench.handle past) p v w = r at hp
  obtain ⟨exit, v', w'⟩ := r
  rcases hp with ⟨hexit, hvars, hopens⟩ | ⟨⟨status, hexit⟩, hheld⟩
  · dsimp only at hexit hvars hopens
    subst hexit hvars
    rw [Proc.exec_bind_ok hexec]
    exact hf w' hexec hopens
  · dsimp only at hexit
    subst hexit
    rw [Proc.exec_bind_error hexec]
    exact Or.inr ⟨⟨status, rfl⟩, hheld⟩

/-- Rounds that each end so end so together. -/
theorem exec_rounds_ends {round : Nat → TimeoutProc Unit}
    (hround : ∀ i w, w.1.opens = S →
      Proc.Along (Bench.handle past) Connected (round i) ⟨0, -1⟩ w →
      Ends S (Proc.exec (Bench.handle past) (round i) ⟨0, -1⟩ w))
    (i k : Nat) (hw : w.1.opens = S)
    (hrun : Proc.Along (Bench.handle past) Connected (rounds round i k) ⟨0, -1⟩ w) :
    Ends S (Proc.exec (Bench.handle past) (rounds round i k) ⟨0, -1⟩ w) := by
  induction k generalizing i w with
  | zero => exact Or.inl ⟨rfl, rfl, hw⟩
  | succ k ih =>
      refine (hround i w hw hrun.first).bind fun w' hexec hw' => ?_
      exact ih (i + 1) hw' (hrun.rest hexec)

theorem exec_timeoutRound_ends (mode : Nat) (w : Bench) (hw : w.1.opens = S)
    (hrun : Proc.Along (Bench.handle past) Connected (timeoutRound past server portnum mode)
      ⟨0, -1⟩ w) :
    Ends S (Proc.exec (Bench.handle past) (timeoutRound past server portnum mode) ⟨0, -1⟩ w) :=
  hw ▸ exec_timeoutRound hrun

/-- With one round at least, the modes end as their rounds do. -/
theorem exec_timeoutModes {k : Nat}
    (hrun : Proc.Along (Bench.handle past) Connected
      (timeoutModes past server portnum (k + 1)) v w) :
    Ends w.1.opens (Proc.exec (Bench.handle past)
      (timeoutModes past server portnum (k + 1)) v w) := by
  rw [timeoutModes, rounds] at hrun ⊢
  have hfirst := hrun.first
  rw [rounds] at hfirst
  refine Ends.bind ?_ fun w' hexec hw' => ?_
  · rw [rounds]
    refine (exec_timeoutRound hfirst.first).bind fun w' hexec hw' => ?_
    exact exec_rounds_ends (fun _ => exec_timeoutRound_ends 1) 1 k hw' (hfirst.rest hexec)
  · refine exec_rounds_ends (fun mode w hw hmode => ?_) 2 1 hw' (hrun.rest hexec)
    exact exec_rounds_ends (fun _ => exec_timeoutRound_ends mode) 0 (k + 1) hw hmode

/-- At `BYE` a socket is closed, which makes the status 0. -/
theorem run_test10_held {exit : Except Int Unit} {w' : Bench}
    (hexec : Proc.exec (Bench.handle past) (do
      timeoutConnect server portnum
      timeoutModes past server portnum niters) ⟨0, -1⟩ w = ⟨exit, v, w'⟩)
    (hheld : Held S v.sock w') :
    ∃ w'', (test10 past server portnum niters).run (Bench.handle past) w = (0, w'') ∧
      w''.1.opens = S := by
  obtain ⟨w'', hclose, hopens⟩ := hheld.closed past
  refine ⟨w'', ?_, hopens⟩
  rw [test10, Prog.run_bind', Proc.run_finish_of_exec hexec]
  dsimp only
  rw [if_pos hheld.pos]
  exact congrArg (fun r : Status × Bench => (r.1.code, r.2)) hclose

theorem run_test10_ends {r : Final Int TimeoutVars Bench Unit}
    (hexec : Proc.exec (Bench.handle past) (do
      timeoutConnect server portnum
      timeoutModes past server portnum niters) ⟨0, -1⟩ w = r)
    (hend : Ends S r) :
    ∃ w'', (test10 past server portnum niters).run (Bench.handle past) w = (0, w'') ∧
      w''.1.opens = S := by
  obtain ⟨exit, vars, w'⟩ := r
  rcases hend with ⟨hexit, hvars, hopens⟩ | ⟨_, hheld⟩
  · dsimp only at hexit hvars hopens
    subst hexit hvars
    refine ⟨w', ?_, hopens⟩
    rw [test10, Prog.run_bind', Proc.run_finish_of_exec hexec]
    rfl
  · exact run_test10_held hexec hheld

end Ending

/-- Peers that greet and then end the connection. -/
def greetersOnly : Bench :=
  (anyAddrHost, fun k => ⟨some (3 + k), false, fun _ => false, anyAddrHost.peers⟩)

theorem connected_greetersOnly :
    Prog.Along (Bench.handle fun _ => 0) Connected (test10 (fun _ => 0) localhostName 6311 2)
      greetersOnly := by
  decide +kernel

end RserveClient
