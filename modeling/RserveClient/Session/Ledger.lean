import Mathlib.Data.List.Nodup
import RserveClient.Client.Phases
import RserveClient.Foundation.Transition
import RserveClient.Session.Descriptors
import RserveClient.Session.Greeting

/-!
# Descriptors over whole runs

A program connects, makes calls and closes what it was given. The books it can keep from what
the functions return, and the sockets that `rconnect` lost on the way, account for every open
descriptor at every moment.
-/

namespace RserveClient

open Interaction Transition Arrivals

/-- What the next `rconnect` finds. -/
structure Net where
  offer : Option Nat
  ptonFails : Bool
  optFails : SockOpt → Bool
  peers : SockAddr → Option (List (Arrival UInt8))

def Host.meets (h : Host) (net : Net) : Host :=
  { h with
    offer := net.offer
    ptonFails := net.ptonFails
    optFails := net.optFails
    peers := net.peers }

/-- What a program does about its connections. -/
inductive ConnOp where
  | connect (net : Net) (server : Option CStr)
      (portnum sndTimeoutSec rcvTimeoutSec ptrSock : Int)
  | call (fd : Nat) (call : ApiCall)
  | close (fd : Nat)

inductive ConnRet where
  | connected (status sock : Int)
  | called (r : ApiRet)
  | closed (status : Status)
  deriving DecidableEq

def closeConnProg (sock : Int) : SysProg Status :=
  (closeConn sock).finish () fun exit _ => Status.ofExit exit

def ConnOp.run (past : Nat → UInt8) : ConnOp → Host → ConnRet × Host
  | .connect net server portnum sndTimeoutSec rcvTimeoutSec ptrSock, h =>
      let r := Prog.run Host.handle
        (rconnect server portnum sndTimeoutSec rcvTimeoutSec ptrSock) (h.meets net)
      (.connected r.1.1 r.1.2, r.2)
  | .call fd api, h =>
      let r := Prog.run Host.handle ((api.prog past fd).via hostSyscall) h
      (.called r.1, r.2)
  | .close fd, h =>
      let r := Prog.run Host.handle ((closeConnProg fd).via hostSyscall) h
      (.closed r.1, r.2)

/-- The descriptors the program has and those it has lost. -/
structure Books where
  held : List Nat
  leaked : List Nat
  deriving DecidableEq

/-- A `rshutdown` that returned 0. -/
def shutDown (call : ApiCall) (r : ApiRet) : Prop :=
  call = .exchange .rshutdown ∧ r = .exchange ⟨.ok, .nothing⟩

instance (call : ApiCall) (r : ApiRet) : Decidable (shutDown call r) :=
  inferInstanceAs (Decidable (_ ∧ _))

/-- The socket of a failed `rconnect` that had got as far as `socket`. -/
def lostSocket (h : Host) (server : Option CStr) (portnum : Int) : List Nat :=
  if server = none ∨ portnum ≤ 0 then [] else h.newSocket.toList

/-- The program reads its part of the books off what the functions return. -/
def Books.after (b : Books) (h : Host) : ConnOp → ConnRet → Books
  | .connect net server portnum _ _ _, .connected status sock =>
      if status = 0 then { b with held := sock.toNat :: b.held }
      else { b with leaked := lostSocket (h.meets net) server portnum ++ b.leaked }
  | .call fd call, .called r => if shutDown call r then { b with held := b.held.erase fd } else b
  | .close fd, .closed status => if status = .ok then { b with held := b.held.erase fd } else b
  | _, _ => b

/-- The program uses just what it has. -/
def Books.Uses (b : Books) : ConnOp → Prop
  | .connect _ _ _ _ _ _ => True
  | .call fd _ => fd ∈ b.held
  | .close fd => fd ∈ b.held

instance (b : Books) : (op : ConnOp) → Decidable (b.Uses op)
  | .connect _ _ _ _ _ _ => isTrue trivial
  | .call fd _ => inferInstanceAs (Decidable (fd ∈ b.held))
  | .close fd => inferInstanceAs (Decidable (fd ∈ b.held))

def connStep (past : Nat → UInt8) (s : Host × Books) (op : ConnOp) : Option (Host × Books) :=
  let r := op.run past s.1
  some (r.2, s.2.after s.1 op r.1)

/-- The open descriptors are those that were open before, those the program has and those it
has lost, and no two of these are the same. -/
structure Balanced (h₀ h : Host) (b : Books) : Prop where
  opens : ∀ fd, (h.conn fd).isOpen = true ↔
    (h₀.conn fd).isOpen = true ∨ fd ∈ b.held ++ b.leaked
  nodup : (b.held ++ b.leaked).Nodup
  fresh : ∀ fd ∈ b.held ++ b.leaked, (h₀.conn fd).isOpen = false

section Calls

variable {past : Nat → UInt8} {sock : Int}

theorem isOpen_handle {op : Syscall} (hop : op.sends sock ∨ op.reads sock) (c : Conn) :
    (Conn.handle op c).2.isOpen = c.isOpen := by
  cases op with
  | send s buf =>
      change (c.send buf).2.isOpen = c.isOpen
      unfold Conn.send
      split
      · split <;> rfl
      · rfl
  | read s count =>
      change (c.read count).2.isOpen = c.isOpen
      unfold Conn.read
      split <;> rfl
  | close s => exact hop.elim False.elim False.elim

/-- Every call but `rshutdown` only sends and reads. -/
theorem ApiCall.only_sendsReads {call : ApiCall} (hne : call ≠ .exchange .rshutdown) :
    (call.prog past sock).Only fun op => op.sends sock ∨ op.reads sock := by
  have hsend : ∀ buf, Syscall.sends sock (.send sock buf) := fun _ => rfl
  have hread : ∀ count, Syscall.reads sock (.read sock count) := fun _ => rfl
  suffices hphases : (call.prog past sock).Phases (Syscall.sends sock) (Syscall.reads sock) from
    hphases.only (fun _ => Or.inl) fun _ => Or.inr
  cases call with
  | ask f => exact (f.phases_prog past sock).bind fun _ => trivial
  | exchange call =>
      refine Prog.Phases.bind ?_ fun _ => trivial
      cases call with
      | execStr str ptrOutput xt out =>
          exact (phases_execStr hsend hread str ptrOutput xt out).bind fun _ => trivial
      | getVec name qtype out =>
          exact (phases_getVec hsend hread name qtype out).bind fun _ => trivial
      | getF8 name dval => exact (phases_getScalar hsend hread .F8 name dval).bind fun _ => trivial
      | getI4 name dval => exact (phases_getScalar hsend hread .I4 name dval).bind fun _ => trivial
      | getNamedVecF8 name szKeyBlob szVals vars =>
          exact (phases_getNamedVecF8 hsend hread name szKeyBlob szVals vars).bind fun _ => trivial
      | setVec name qtype data n inWidth =>
          exact (phases_setVec hsend hread name qtype data n inWidth).bind fun _ => trivial
      | rshutdown => exact absurd rfl hne

theorem isOpen_run_call {call : ApiCall} (hne : call ≠ .exchange .rshutdown) (c : Conn) :
    ((call.prog past sock).run Conn.handle c).2.isOpen = c.isOpen :=
  (ApiCall.only_sendsReads hne).run_frame Conn.isOpen (fun _ hop c => isOpen_handle hop c) c

/-- On an open socket `rshutdown` returns 0 exactly if it has closed it. -/
theorem rshutdown_ok_iff (hsock : 0 ≤ sock) {c : Conn} (hopen : c.isOpen = true) :
    ((rshutdown sock).run Conn.handle c).1 = .ok ↔
      ((rshutdown sock).run Conn.handle c).2.isOpen = false := by
  have hbody := exec_rshutdownBody_pieces c sock ()
  rw [rshutdown, Proc.run_finish]
  change Status.ofExit (execOn (rshutdownBody sock) () c).exit = .ok ↔
    (execOn (rshutdownBody sock) () c).world.isOpen = false
  rw [hbody, sentPieces, Conn.sendPieces, length_shutdownRequest]
  have hcases := c.send_cases shutdownRequest
  rw [length_shutdownRequest] at hcases
  rcases hcases with ⟨hall, _, hsent⟩ | ⟨hcut, k, hsent, _⟩
  · have hopen' := hsent.isOpen.trans hall.1
    rw [if_pos hall, Conn.sendPieces, if_pos rfl]
    rcases Nat.eq_zero_or_pos (front (c.send shutdownRequest).2.inc).length with hnone | hfront
    · obtain ⟨why, inc', hexec, _⟩ := exec_rshutdownReply_none sock hopen' hnone ()
      rw [hexec]
      refine iff_of_false (fun hok => by cases hok) fun hclosed => ?_
      cases hopen'.symm.trans hclosed
    · rw [exec_rshutdownReply hsock hopen' hfront]
      exact iff_of_true rfl rfl
  · rw [if_neg hcut, if_neg Bool.false_ne_true]
    refine iff_of_false (fun hok => by cases hok) fun hclosed => ?_
    cases (hsent.isOpen.trans hopen).symm.trans hclosed

theorem run_closeConnProg (hsock : 0 ≤ sock) {c : Conn} (hopen : c.isOpen = true) :
    (closeConnProg sock).run Conn.handle c = (.ok, c.closed) :=
  Proc.run_finish_of_exec (exec_closeConn hsock hopen ()) _

theorem only_closeConnProg (sock : Int) :
    (closeConnProg sock).Only fun call => call.sock = sock := by
  apply Proc.Only.finish
  exact only_closeConn rfl

end Calls

section Balance

variable {h₀ h h' : Host} {b b' : Books} {fd : Nat}

theorem Balanced.same (hb : Balanced h₀ h b)
    (hconn : ∀ fd, (h'.conn fd).isOpen = (h.conn fd).isOpen) : Balanced h₀ h' b :=
  ⟨fun fd => by rw [hconn, hb.opens], hb.nodup, hb.fresh⟩

/-- One more descriptor is open, and one more is in the books. -/
theorem Balanced.opened (hb : Balanced h₀ h b) (hclosed : (h.conn fd).isOpen = false)
    (ho : h.Opened fd h')
    (hperm : (b'.held ++ b'.leaked).Perm (fd :: (b.held ++ b.leaked))) : Balanced h₀ h' b' := by
  have hnot : ¬ ((h₀.conn fd).isOpen = true ∨ fd ∈ b.held ++ b.leaked) := by
    rw [← hb.opens, hclosed]
    exact Bool.false_ne_true
  rw [not_or, Bool.not_eq_true] at hnot
  refine ⟨fun x => ?_, ?_, fun x hx => ?_⟩
  · rw [hperm.mem_iff, List.mem_cons]
    by_cases hx : x = fd
    · rw [hx]
      exact iff_of_true ho.isOpen (Or.inr (Or.inl rfl))
    · rw [ho.others x hx, hb.opens, or_iff_right (b := x ∈ b.held ++ b.leaked) hx]
  · rw [hperm.nodup_iff, List.nodup_cons]
    exact ⟨hnot.2, hb.nodup⟩
  · rcases List.mem_cons.mp (hperm.mem_iff.mp hx) with rfl | hmem
    · exact hnot.1
    · exact hb.fresh x hmem

/-- A descriptor of the program is closed and struck out. -/
theorem Balanced.closed (hb : Balanced h₀ h b) (hheld : fd ∈ b.held)
    (hclosed : (h'.conn fd).isOpen = false)
    (hothers : ∀ x, x ≠ fd → (h'.conn x).isOpen = (h.conn x).isOpen) :
    Balanced h₀ h' { b with held := b.held.erase fd } := by
  have hperm : (b.held ++ b.leaked).Perm (fd :: (b.held.erase fd ++ b.leaked)) :=
    (List.perm_cons_erase hheld).append_right b.leaked
  have hnodup := hperm.nodup_iff.mp hb.nodup
  rw [List.nodup_cons] at hnodup
  refine ⟨fun x => ?_, hnodup.2, fun x hx => ?_⟩
  · by_cases hx : x = fd
    · rw [hx, hclosed, hb.fresh fd (List.mem_append_left _ hheld)]
      exact iff_of_false Bool.false_ne_true fun hor =>
        hor.elim (fun heq => by cases heq) hnodup.1
    · rw [hothers x hx, hb.opens, hperm.mem_iff, List.mem_cons,
        or_iff_right (b := x ∈ b.held.erase fd ++ b.leaked) hx]
  · exact hb.fresh x (hperm.mem_iff.mpr (List.mem_cons_of_mem fd hx))

theorem Balanced.isOpen_of_held (hb : Balanced h₀ h b) (hheld : fd ∈ b.held) :
    (h.conn fd).isOpen = true :=
  (hb.opens fd).mpr (Or.inr (List.mem_append_left _ hheld))

/-- The others are as they were. -/
theorem Host.isOpen_setConn_of_ne (h : Host) (c : Conn) {x : Nat} (hx : x ≠ fd) :
    ((h.setConn fd c).conn x).isOpen = (h.conn x).isOpen := by
  rw [show (h.setConn fd c).conn x = h.conn x from Function.update_of_ne hx _ _]

theorem balanced_connect (past : Nat → UInt8) (hb : Balanced h₀ h b) (net : Net)
    (server : Option CStr) (portnum sndTimeoutSec rcvTimeoutSec ptrSock : Int) :
    let op := ConnOp.connect net server portnum sndTimeoutSec rcvTimeoutSec ptrSock
    Balanced h₀ (op.run past h).2 (b.after h op (op.run past h).1) := by
  intro op
  have hmeets : Balanced h₀ (h.meets net) b := hb.same fun _ => rfl
  by_cases hrefused : (h.meets net).Refuses server portnum
  · have hrun := run_rconnect_refused hrefused sndTimeoutSec rcvTimeoutSec ptrSock
    have hlost : lostSocket (h.meets net) server portnum = [] := by
      unfold lostSocket
      split
      · rfl
      · rename_i hgood
        rcases hrefused with hnull | hneg | hnone
        · exact absurd (Or.inl hnull) hgood
        · exact absurd (Or.inr hneg) hgood
        · rw [hnone]
          rfl
    have hafter : op.run past h = (.connected (-1) ptrSock, h.meets net) := by
      rw [ConnOp.run, hrun]
    rw [hafter]
    simp only [op, Books.after, hlost, List.nil_append, if_neg (show ¬ (-1 : Int) = 0 by decide)]
    exact hmeets
  · obtain ⟨s, fd, rfl, hpos, hfd⟩ := Host.of_not_refuses hrefused
    have hclosed : ((h.meets net).conn fd).isOpen = false := by
      simpa using (Option.filter_eq_some_iff.mp hfd).2
    obtain ⟨r, hrun, ho, _, hend⟩ :=
      run_rconnect hfd hpos s sndTimeoutSec rcvTimeoutSec ptrSock
    have hafter : op.run past h = (.connected r.1.1 r.1.2, r.2) := by
      rw [ConnOp.run, hrun]
    rw [hafter]
    refine hmeets.opened hclosed ho ?_
    rcases hend with ⟨_, hr, _⟩ | ⟨_, hneg, _⟩
    · rw [hr]
      exact List.Perm.refl _
    · have hlost : lostSocket (h.meets net) (some s) portnum = [fd] := by
        rw [lostSocket, if_neg, hfd]
        · rfl
        · rintro (hnull | hle)
          · cases hnull
          · omega
      simp only [op, Books.after, hlost, if_neg (show ¬ r.1.1 = 0 by omega)]
      exact List.perm_middle

theorem balanced_call (past : Nat → UInt8) (hb : Balanced h₀ h b) {call : ApiCall}
    (hheld : fd ∈ b.held) :
    Balanced h₀ ((ConnOp.call fd call).run past h).2
      (b.after h (.call fd call) ((ConnOp.call fd call).run past h).1) := by
  have hopen := hb.isOpen_of_held hheld
  have hrun := run_via_hostSyscall (call.only_prog past (fd : Int)) h
  have hafter : (ConnOp.call fd call).run past h =
      (.called ((call.prog past fd).run Conn.handle (h.conn fd)).1,
        h.setConn fd ((call.prog past fd).run Conn.handle (h.conn fd)).2) := by
    rw [ConnOp.run, hrun]
  have hothers : ∀ c x, x ≠ fd → ((h.setConn fd c).conn x).isOpen = (h.conn x).isOpen :=
    fun c x hx => h.isOpen_setConn_of_ne c hx
  have hkeep : ∀ c, c.isOpen = true → Balanced h₀ (h.setConn fd c) b := fun c hc => by
    refine hb.same fun x => ?_
    by_cases hx : x = fd
    · rw [hx, Host.conn_setConn, hc, hopen]
    · exact hothers c x hx
  rw [hafter]
  by_cases hshut : call = .exchange .rshutdown
  · subst hshut
    have hprog : (ApiCall.exchange .rshutdown).prog past fd = (rshutdown fd).bind fun status =>
        .ret (.exchange ⟨status, .nothing⟩) := by
      change ((rshutdown fd).bind _).bind _ = _
      rw [Prog.bind_assoc']
      rfl
    have hiff := rshutdown_ok_iff (Int.natCast_nonneg fd) hopen
    rw [hprog, Prog.run_bind', Prog.run_ret]
    dsimp only
    cases hstatus : ((rshutdown fd).run Conn.handle (h.conn fd)).1 with
    | ok =>
        have hclosed := hiff.mp hstatus
        simp only [Books.after]
        rw [if_pos ⟨rfl, rfl⟩]
        refine hb.closed hheld ?_ (hothers _)
        rw [Host.conn_setConn, hclosed]
    | bad why =>
        simp only [Books.after]
        rw [if_neg (fun hok => by cases hok.2)]
        refine hkeep _ (Bool.eq_true_of_not_eq_false fun hclosed => ?_)
        cases hstatus.symm.trans (hiff.mpr hclosed)
  · simp only [Books.after]
    rw [if_neg (fun hok => hshut hok.1)]
    exact hkeep _ ((isOpen_run_call hshut _).trans hopen)

theorem balanced_close (past : Nat → UInt8) (hb : Balanced h₀ h b)
    (hheld : fd ∈ b.held) :
    Balanced h₀ ((ConnOp.close fd).run past h).2
      (b.after h (.close fd) ((ConnOp.close fd).run past h).1) := by
  have hopen := hb.isOpen_of_held hheld
  have hrun := run_via_hostSyscall (only_closeConnProg fd) h
  rw [run_closeConnProg (Int.natCast_nonneg fd) hopen] at hrun
  have hafter : (ConnOp.close fd).run past h =
      (.closed .ok, h.setConn fd (h.conn fd).closed) := by
    rw [ConnOp.run, hrun]
  rw [hafter]
  simp only [Books.after, if_true]
  refine hb.closed hheld ?_ fun x hx => h.isOpen_setConn_of_ne _ hx
  rw [Host.conn_setConn]
  rfl

/-- In every run of a program that uses just what it has, whatever the network does, what the
program has and what `rconnect` has lost account for the open descriptors. -/
theorem descriptors_balanced {past : Nat → UInt8} {s : Host × Books}
    (hs : Reach (h₀, ⟨[], []⟩) (connStep past) (fun s op => s.2.Uses op) s) :
    Balanced h₀ s.1 s.2 := by
  refine Reach.invariant (I := fun s => Balanced h₀ s.1 s.2) ?_ ?_ hs
  · exact ⟨fun fd => by simp, List.nodup_nil, fun fd hfd => by cases hfd⟩
  · rintro ⟨h, b⟩ op s' hb huses hstep
    obtain rfl := Option.some.inj hstep
    cases op with
    | connect net server portnum sndTimeoutSec rcvTimeoutSec ptrSock =>
        exact balanced_connect past hb net server portnum sndTimeoutSec rcvTimeoutSec ptrSock
    | call fd call => exact balanced_call past hb huses
    | close fd => exact balanced_close past hb huses

end Balance

/-- One connection is refused and leaves its socket; the other is closed after a `rshutdown`
that read nothing. -/
def connectTwice : List ConnOp :=
  [.connect ⟨some 3, false, fun _ => false, anyAddrHost.peers⟩ (some localhostName) 6311 0 0 (-1),
    .connect ⟨some 4, false, fun _ => false, fun _ => none⟩ (some localhostName) 6311 0 0 (-1),
    .call 3 (.exchange .rshutdown), .close 3]

theorem connectTwice_uses :
    AllowedAlong (connStep fun _ => 0) (fun s op => s.2.Uses op) (anyAddrHost, ⟨[], []⟩)
      connectTwice :=
  allowedAlong_of_allowsAlong (by decide +kernel)

theorem descriptors_balanced_connectTwice :
    ∃ s, runSteps (connStep fun _ => 0) (anyAddrHost, ⟨[], []⟩) connectTwice = some s ∧
      ∀ fd, (s.1.conn fd).isOpen = true ↔ fd = 4 := by
  have hbooks : (runSteps (connStep fun _ => 0) (anyAddrHost, ⟨[], []⟩) connectTwice).map
      Prod.snd = some ⟨[], [4]⟩ := by decide +kernel
  obtain ⟨s, hs, hb⟩ := Option.map_eq_some_iff.mp hbooks
  refine ⟨s, hs, fun fd => ?_⟩
  rw [(descriptors_balanced (Reach.init.runSteps connectTwice_uses hs)).opens fd, hb]
  simp [anyAddrHost]

end RserveClient
