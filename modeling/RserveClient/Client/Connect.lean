import RserveClient.Client.Socket
import RserveClient.Foundation.Embedding
import RserveClient.Foundation.Ipv4
import Mathlib.Logic.Function.Basic

/-!
# Connecting to a server

`rconnect` opens a socket, connects it, sets its options and reads the greeting of the
server. It runs on a host that has a connection behind every descriptor and decides how
each system call ends.

## Implementation notes

The host lists what the calls to come will do, so a statement about every host covers
every outcome that their specifications allow. A socket gets a descriptor that is not
open, and `connect` and `setsockopt` are only called on that. `inet_pton` fails or tells a
dotted address from other strings, for which it stores nothing. A connection leads to
whoever listens at the address and port given to `connect`.
-/

namespace RserveClient

open Interaction Arrivals

/-- An address and a port, as `connect` is given them. -/
structure SockAddr where
  addr : Ipv4
  port : UInt16
  deriving DecidableEq

inductive SockOpt where
  | noDelay
  | rcvTimeo (sec : Int)
  | sndTimeo (sec : Int)
  deriving DecidableEq

inductive HostCall where
  | socket
  | inetPton (src : CStr)
  | connect (sock : Int) (servAddr : SockAddr)
  | setsockopt (sock : Int) (opt : SockOpt)
  | sys (call : Syscall)

/-- `inet_pton` returns a number and the address it has stored, if any. -/
def HostCall.Res : HostCall → Type
  | .socket => Int
  | .inetPton _ => Int × Option Ipv4
  | .connect _ _ => Int
  | .setsockopt _ _ => Int
  | .sys call => call.Res

abbrev HostProg (α : Type) := Prog HostCall HostCall.Res α

/-- The descriptor a system call is made on. -/
def Syscall.sock : Syscall → Int
  | .send sock _ => sock
  | .read sock _ => sock
  | .close sock => sock

/-- The connections behind the descriptors and who they lead to; the descriptor the next
socket gets, if there is one left; how `inet_pton` and `setsockopt` end; and what a peer
that listens will send. -/
structure Host where
  conn : Nat → Conn
  connectedTo : Nat → Option SockAddr
  offer : Option Nat
  ptonFails : Bool
  optFails : SockOpt → Bool
  peers : SockAddr → Option (List (Arrival UInt8))

namespace Host

/-- The open descriptors. -/
def opens (h : Host) : Set Int := {sock | ∃ fd : Nat, sock = fd ∧ (h.conn fd).isOpen = true}

/-- The descriptor that `socket` returns. -/
def newSocket (h : Host) : Option Nat := h.offer.filter fun fd => !(h.conn fd).isOpen

def setConn (h : Host) (fd : Nat) (c : Conn) : Host :=
  { h with conn := Function.update h.conn fd c }

/-- A socket that is not connected. -/
def withSocket (h : Host) (fd : Nat) : Host :=
  { h.setConn fd (Conn.fresh []) with connectedTo := Function.update h.connectedTo fd none }

/-- The socket is connected to a peer. -/
def withPeer (h : Host) (fd : Nat) (servAddr : SockAddr) (inc : List (Arrival UInt8)) : Host :=
  { h.setConn fd (Conn.fresh inc) with
    connectedTo := Function.update h.connectedTo fd (some servAddr) }

/-- How a system call on a negative descriptor ends. -/
def badDescriptor : (call : Syscall) → call.Res
  | .send _ _ => (-1 : Int)
  | .read _ _ => (none : Option Bytes)
  | .close _ => (-1 : Int)

def handle : Handler HostCall HostCall.Res Host
  | .socket, h =>
      match h.newSocket with
      | some fd => ((fd : Int), h.withSocket fd)
      | none => ((-1 : Int), h)
  | .inetPton src, h =>
      if h.ptonFails then (((-1 : Int), none), h)
      else
        match Ipv4.parse src.bytes with
        | some addr => (((1 : Int), some addr), h)
        | none => (((0 : Int), none), h)
  | .connect sock servAddr, h =>
      match h.peers servAddr with
      | some inc => ((0 : Int), h.withPeer sock.toNat servAddr inc)
      | none => ((-1 : Int), h)
  | .setsockopt _ opt, h => if h.optFails opt then ((-1 : Int), h) else ((0 : Int), h)
  | .sys call, h =>
      if call.sock < 0 then (badDescriptor call, h)
      else
        let r := Conn.handle call (h.conn call.sock.toNat)
        (r.1, h.setConn call.sock.toNat r.2)

end Host

def hostSocket : HostProg Int := Prog.perform HostCall.socket

def hostInetPton (src : CStr) : HostProg (Int × Option Ipv4) :=
  Prog.perform (HostCall.inetPton src)

def hostConnect (sock : Int) (servAddr : SockAddr) : HostProg Int :=
  Prog.perform (HostCall.connect sock servAddr)

def hostSetsockopt (sock : Int) (opt : SockOpt) : HostProg Int :=
  Prog.perform (HostCall.setsockopt sock opt)

/-- A call on a socket is a call of the host. -/
def hostSyscall (call : Syscall) : HostProg call.Res := Prog.perform (HostCall.sys call)

/-- How `rconnect` fails. -/
inductive ConnectWhy where
  | argument
  | syscall
  | recv (why : Why)
  | short
  | ident
  deriving DecidableEq

def ConnectWhy.code : ConnectWhy → Int
  | .recv why => why.code
  | _ => -1

theorem ConnectWhy.code_neg (why : ConnectWhy) : why.code < 0 := by
  cases why with
  | recv why => exact why.code_neg
  | _ => decide

/-- The body of `rconnect`; its variable is the caller's `*ptr_sock`. -/
abbrev ConnectBody (α : Type) := Proc HostCall HostCall.Res Int ConnectWhy α

/-- `Rsrv0103QAP1` -/
def idString : Bytes := [82, 115, 114, 118, 48, 49, 48, 51, 81, 65, 80, 49]

/-- The port that is left of an `int` in `uint16_t`. -/
def htons (portnum : Int) : UInt16 := UInt16.ofNat (portnum % 65536).toNat

/-- One option and its `cBYE`. -/
def setOpt (sock : Int) (opt : SockOpt) : ConnectBody Unit := do
  let result ← Proc.lift (hostSetsockopt sock opt)
  Proc.exitIf (result < 0) .syscall

/-- A timeout is only set when it is positive. -/
def setTimeo (sock sec : Int) (opt : SockOpt) : ConnectBody Unit :=
  if 0 < sec then setOpt sock opt else pure ()

def setOpts (sock sndTimeoutSec rcvTimeoutSec : Int) : ConnectBody Unit := do
  setOpt sock .noDelay
  setTimeo sock rcvTimeoutSec (.rcvTimeo rcvTimeoutSec)
  setTimeo sock sndTimeoutSec (.sndTimeo sndTimeoutSec)

/-- The checks on the greeting: all 32 bytes are there, and they begin with the ID. -/
def checkGreeting (r : Recv) : Except ConnectWhy Unit :=
  match r.status with
  | .bad why => .error (.recv why)
  | .ok =>
      if r.numRead ≠ some 32 then .error .short
      else if r.got.take idString.length ≠ idString then .error .ident
      else .ok ()

def recvGreeting (sock : Int) : ConnectBody Unit := do
  let r ← Proc.lift ((getBufFromSock sock false 32).via hostSyscall)
  Proc.ofExcept (checkGreeting r)

/-- What is done with a connected socket: only when the greeting is right it is handed out. -/
def greetSocket (sock sndTimeoutSec rcvTimeoutSec : Int) : ConnectBody Unit := do
  setOpts sock sndTimeoutSec rcvTimeoutSec
  recvGreeting sock
  Proc.update fun _ => sock

/-- What is done with a socket that was opened. -/
def connectSocket (sock : Int) (server : CStr) (portnum sndTimeoutSec rcvTimeoutSec : Int) :
    ConnectBody Unit := do
  let status ← Proc.lift (hostInetPton server)
  Proc.exitIf (status.1 < 0) .syscall
  let servAddr : SockAddr := ⟨status.2.getD Ipv4.zero, htons portnum⟩
  let status ← Proc.lift (hostConnect sock servAddr)
  Proc.exitIf (status < 0) .syscall
  greetSocket sock sndTimeoutSec rcvTimeoutSec

def rconnectBody (server : Option CStr) (portnum sndTimeoutSec rcvTimeoutSec : Int) :
    ConnectBody Unit :=
  match server with
  | none => Proc.exit .argument
  | some server => do
      Proc.exitIf (portnum ≤ 0) .argument
      let sock ← Proc.lift hostSocket
      Proc.exitIf (sock < 0) .syscall
      connectSocket sock server portnum sndTimeoutSec rcvTimeoutSec

/-- The status and `*ptr_sock`. -/
def rconnect (server : Option CStr) (portnum sndTimeoutSec rcvTimeoutSec ptrSock : Int) :
    HostProg (Int × Int) :=
  (rconnectBody server portnum sndTimeoutSec rcvTimeoutSec).finish ptrSock fun exit sock =>
    match exit with
    | .ok _ => (0, sock)
    | .error why => (why.code, sock)

/-- The connection behind a descriptor, as a part of the host. -/
def connView (fd : Nat) : View Host Conn where
  get h := h.conn fd
  set c h := h.setConn fd c
  get_set c h := by
    rw [Host.setConn]
    exact Function.update_self _ _ _
  set_get h := by
    rw [Host.setConn, Function.update_eq_self]
  set_set c₁ c₂ h := by
    simp only [Host.setConn, Function.update_idem]

theorem run_hostSyscall {fd : Nat} {call : Syscall} (h : Host) (hsock : call.sock = fd) :
    Prog.run Host.handle (hostSyscall call) h =
      ((Conn.handle call (h.conn fd)).1, h.setConn fd (Conn.handle call (h.conn fd)).2) := by
  have hneg : ¬ call.sock < 0 := by omega
  have hrun : Prog.run Host.handle (hostSyscall call) h = Host.handle (.sys call) h := rfl
  rw [hrun, Host.handle, if_neg hneg, hsock, Int.toNat_natCast]
  rfl

section Reads

variable {Q : Syscall → Prop} {sock : Int} (hread : ∀ count, Q (.read sock count))
include hread

theorem only_recvLoop (numToRead fuel buflen : Nat) (got : Bytes) :
    (recvLoop sock numToRead fuel buflen got).Only Q := by
  induction fuel generalizing buflen got with
  | zero => trivial
  | succ fuel ih =>
      refine ⟨hread buflen, ?_⟩
      rintro (_ | _ | ⟨b, bs⟩)
      · trivial
      · trivial
      · change Prog.Only _ (if _ then _ else _)
        split
        · trivial
        · exact ih _ _

/-- Reading makes no system calls but reads from the socket. -/
theorem only_getBufFromSock (bufIsNull : Bool) (buflen : Int) :
    (getBufFromSock sock bufIsNull buflen).Only Q := by
  rw [getBufFromSock]
  split_ifs
  · trivial
  · trivial
  · trivial
  · trivial
  · exact only_recvLoop hread _ _ _ _

end Reads

/-- The greeting is read from the new socket. -/
theorem only_greeting (fd : Nat) :
    (getBufFromSock fd false 32).Only fun call => call.sock = (fd : Int) :=
  only_getBufFromSock (fun _ => rfl) false 32

/-- A program that keeps to one socket runs on the host as on its connection. -/
theorem run_via_hostSyscall {α : Type} {fd : Nat} {p : SysProg α}
    (hp : p.Only fun call => call.sock = (fd : Int)) (h : Host) :
    Prog.run Host.handle (p.via hostSyscall) h =
      ((Prog.run Conn.handle p (h.conn fd)).1,
        h.setConn fd (Prog.run Conn.handle p (h.conn fd)).2) :=
  Prog.run_via (h := Conn.handle) (connView fd) (fun _ h hsock => run_hostSyscall h hsock) hp h

/-- The peer sends 32 bytes, and they begin with the ID. -/
def Greets (inc : List (Arrival UInt8)) : Prop :=
  32 ≤ (avail inc).length ∧ (avail inc).take idString.length = idString

instance (inc : List (Arrival UInt8)) : Decidable (Greets inc) :=
  inferInstanceAs (Decidable (_ ∧ _))

/-- Whatever the segmentation, the greeting passes exactly if it is the right one. -/
theorem checkGreeting_ok_iff (inc : List (Arrival UInt8)) :
    checkGreeting (recvOf [] (readAll 32 inc)) = .ok () ↔ Greets inc := by
  rcases Nat.lt_or_ge (avail inc).length 32 with hshort | hall
  · rw [readAll_short hshort]
    refine iff_of_false ?_ fun hgreets => absurd hgreets.1 (Nat.not_le.mpr hshort)
    have hne := stop_ne_whole inc
    cases hstop : stop inc with
    | whole => exact absurd hstop hne
    | closed => exact nofun
    | fault => exact nofun
  · rw [readAll_whole hall]
    have hlen : ((avail inc).take 32).length = 32 := by
      rw [List.length_take]
      omega
    have hrecv : recvOf [] (.whole, (avail inc).take 32, skip 32 inc) =
        ⟨.ok, (avail inc).take 32, some ((avail inc).take 32).length⟩ := rfl
    have htake : ((avail inc).take 32).take idString.length =
        (avail inc).take idString.length := by
      rw [List.take_take]
      rfl
    rw [hrecv, hlen, checkGreeting]
    dsimp only
    rw [if_neg (not_not.mpr rfl), htake]
    by_cases hid : (avail inc).take idString.length = idString
    · rw [if_neg (not_not.mpr hid)]
      exact iff_of_true rfl ⟨hall, hid⟩
    · rw [if_pos hid]
      exact iff_of_false nofun fun hgreets => hid hgreets.2

theorem exec_recvGreeting {h : Host} {fd : Nat} (hopen : (h.conn fd).isOpen = true) (v : Int) :
    ∃ inc', Proc.exec Host.handle (recvGreeting fd) v h =
      ⟨checkGreeting (recvOf [] (readAll 32 (h.conn fd).inc)), v,
        h.setConn fd ((h.conn fd).withInc inc')⟩ := by
  have hrun := run_via_hostSyscall (only_greeting fd) h
  have hrecv := run_getBufFromSock (Int.natCast_nonneg fd) (n := 32) (by decide) hopen
  rw [Nat.cast_ofNat] at hrecv
  rw [hrecv] at hrun
  refine ⟨(readAll 32 (h.conn fd).inc).2.2, ?_⟩
  rw [recvGreeting, Proc.exec_lift_bind hrun]
  cases checkGreeting (recvOf [] (readAll 32 (h.conn fd).inc)) with
  | ok => exact Proc.exec_ofExcept_ok _ _ _ _
  | error why => exact Proc.exec_ofExcept_error _ _ _ _

/-- The options asked for can be set. -/
structure Host.OptsPass (h : Host) (sndTimeoutSec rcvTimeoutSec : Int) : Prop where
  noDelay : h.optFails .noDelay = false
  rcvTimeo : 0 < rcvTimeoutSec → h.optFails (.rcvTimeo rcvTimeoutSec) = false
  sndTimeo : 0 < sndTimeoutSec → h.optFails (.sndTimeo sndTimeoutSec) = false

theorem exec_setOpt (sock : Int) (opt : SockOpt) (v : Int) (h : Host) :
    Proc.exec Host.handle (setOpt sock opt) v h =
      if h.optFails opt then ⟨.error .syscall, v, h⟩ else ⟨.ok (), v, h⟩ := by
  have hrun : Prog.run Host.handle (hostSetsockopt sock opt) h =
      ((if h.optFails opt then -1 else 0 : Int), h) := by
    change Host.handle (.setsockopt sock opt) h = _
    rw [Host.handle]
    split <;> rfl
  rw [setOpt, Proc.exec_lift_bind hrun, Proc.exec_exitIf]
  split <;> rfl

theorem exec_setTimeo (sock sec : Int) (opt : SockOpt) (v : Int) (h : Host) :
    Proc.exec Host.handle (setTimeo sock sec opt) v h =
      if 0 < sec ∧ h.optFails opt = true then ⟨.error .syscall, v, h⟩ else ⟨.ok (), v, h⟩ := by
  rw [setTimeo]
  by_cases hsec : 0 < sec
  · rw [if_pos hsec, exec_setOpt]
    simp only [hsec, true_and]
  · rw [if_neg hsec, if_neg fun hand => hsec hand.1, Proc.exec_pure]

/-- The options change nothing that the host keeps track of. -/
theorem exec_setOpts (sock sndTimeoutSec rcvTimeoutSec : Int) (v : Int) (h : Host) :
    ∃ exit, Proc.exec Host.handle (setOpts sock sndTimeoutSec rcvTimeoutSec) v h = ⟨exit, v, h⟩ ∧
      (exit = .ok () ↔ h.OptsPass sndTimeoutSec rcvTimeoutSec) := by
  have hdelay := exec_setOpt sock .noDelay v h
  have hrcv := exec_setTimeo sock rcvTimeoutSec (.rcvTimeo rcvTimeoutSec) v h
  have hsnd := exec_setTimeo sock sndTimeoutSec (.sndTimeo sndTimeoutSec) v h
  rw [setOpts]
  by_cases hd : h.optFails .noDelay = true
  · rw [if_pos hd] at hdelay
    refine ⟨_, Proc.exec_bind_error hdelay, iff_of_false (by nofun) fun hpass => ?_⟩
    rw [hpass.noDelay] at hd
    cases hd
  · rw [if_neg hd] at hdelay
    rw [Proc.exec_bind_ok hdelay]
    by_cases hr : 0 < rcvTimeoutSec ∧ h.optFails (.rcvTimeo rcvTimeoutSec) = true
    · rw [if_pos hr] at hrcv
      refine ⟨_, Proc.exec_bind_error hrcv, iff_of_false (by nofun) fun hpass => ?_⟩
      have hfails := hr.2
      rw [hpass.rcvTimeo hr.1] at hfails
      cases hfails
    · rw [if_neg hr] at hrcv
      rw [Proc.exec_bind_ok hrcv, hsnd]
      by_cases hs : 0 < sndTimeoutSec ∧ h.optFails (.sndTimeo sndTimeoutSec) = true
      · rw [if_pos hs]
        refine ⟨_, rfl, iff_of_false (by nofun) fun hpass => ?_⟩
        have hfails := hs.2
        rw [hpass.sndTimeo hs.1] at hfails
        cases hfails
      · rw [if_neg hs]
        refine ⟨_, rfl, iff_of_true rfl ⟨Bool.eq_false_of_not_eq_true hd, ?_, ?_⟩⟩
        · exact fun hpos => Bool.eq_false_of_not_eq_true fun hfails => hr ⟨hpos, hfails⟩
        · exact fun hpos => Bool.eq_false_of_not_eq_true fun hfails => hs ⟨hpos, hfails⟩

/-- A descriptor is open, and no other has changed. -/
structure Host.Opened (h : Host) (fd : Nat) (h' : Host) : Prop where
  isOpen : (h'.conn fd).isOpen = true
  others : ∀ fd', fd' ≠ fd → h'.conn fd' = h.conn fd'

@[simp] theorem Host.conn_setConn (h : Host) (fd : Nat) (c : Conn) :
    (h.setConn fd c).conn fd = c := Function.update_self _ _ _

theorem Host.opened_setConn (h : Host) (fd : Nat) {c : Conn} (hc : c.isOpen = true) :
    h.Opened fd (h.setConn fd c) where
  isOpen := by
    rw [Host.conn_setConn, hc]
  others _ hne := Function.update_of_ne hne _ _

theorem Host.Opened.trans {h h' h'' : Host} {fd : Nat} (h₁ : h.Opened fd h')
    (h₂ : h'.Opened fd h'') : h.Opened fd h'' :=
  ⟨h₂.isOpen, fun fd' hne => (h₂.others fd' hne).trans (h₁.others fd' hne)⟩

theorem Host.opened_withSocket (h : Host) (fd : Nat) : h.Opened fd (h.withSocket fd) :=
  ⟨(h.opened_setConn fd (c := Conn.fresh []) rfl).isOpen, (h.opened_setConn fd rfl).others⟩

theorem Host.opened_withPeer (h : Host) (fd : Nat) (servAddr : SockAddr)
    (inc : List (Arrival UInt8)) : h.Opened fd (h.withPeer fd servAddr inc) :=
  ⟨(h.opened_setConn fd (c := Conn.fresh inc) rfl).isOpen, (h.opened_setConn fd rfl).others⟩

/-- On a connected socket only the options and the greeting decide. -/
theorem exec_greetSocket {h : Host} {fd : Nat} {inc : List (Arrival UInt8)}
    (hconn : h.conn fd = Conn.fresh inc) (sndTimeoutSec rcvTimeoutSec v : Int) :
    ∃ r, Proc.exec Host.handle (greetSocket fd sndTimeoutSec rcvTimeoutSec) v h = r ∧
      h.Opened fd r.world ∧ r.world.connectedTo = h.connectedTo ∧
      (((h.OptsPass sndTimeoutSec rcvTimeoutSec ∧ Greets inc) ∧ r.exit = .ok () ∧ r.vars = fd) ∨
        (¬ (h.OptsPass sndTimeoutSec rcvTimeoutSec ∧ Greets inc) ∧ (∃ why, r.exit = .error why) ∧
          r.vars = v)) := by
  have hopen : (h.conn fd).isOpen = true := by rw [hconn]; rfl
  obtain ⟨exit, hopts, hpass⟩ := exec_setOpts fd sndTimeoutSec rcvTimeoutSec v h
  obtain ⟨inc', hgreeting⟩ := exec_recvGreeting hopen v
  have hcheck := checkGreeting_ok_iff inc
  have ho := h.opened_setConn fd (c := (Conn.fresh inc).withInc inc') rfl
  rw [hconn] at hgreeting
  rw [greetSocket]
  cases exit with
  | error why =>
      rw [Proc.exec_bind_error hopts]
      refine ⟨_, rfl, ⟨hopen, fun _ _ => rfl⟩, rfl, Or.inr ⟨fun hacc => ?_, ⟨_, rfl⟩, rfl⟩⟩
      cases hpass.mpr hacc.1
  | ok =>
      rw [Proc.exec_bind_ok hopts]
      cases hexit : checkGreeting (recvOf [] (readAll 32 inc)) with
      | error why =>
          rw [hexit] at hcheck
          have hend := hgreeting.trans (congrArg (Final.mk · v _) hexit)
          rw [Proc.exec_bind_error hend]
          refine ⟨_, rfl, ho, rfl, Or.inr ⟨fun hacc => ?_, ⟨_, rfl⟩, rfl⟩⟩
          cases hcheck.mpr hacc.2
      | ok =>
          have hend := hgreeting.trans (congrArg (Final.mk · v _) hexit)
          rw [Proc.exec_bind_ok hend, Proc.exec_update]
          exact ⟨_, rfl, ho, rfl, Or.inl ⟨⟨hpass.mp rfl, hcheck.mp hexit⟩, rfl, rfl⟩⟩

/-- The address and the port that `connect` is given. -/
def usedAddr (server : CStr) (portnum : Int) : SockAddr :=
  ⟨(Ipv4.parse server.bytes).getD Ipv4.zero, htons portnum⟩

/-- Every call after `socket` succeeds, and the peer at the address used greets. -/
structure Host.Accepts (h : Host) (server : CStr) (portnum sndTimeoutSec rcvTimeoutSec : Int) :
    Prop where
  pton : h.ptonFails = false
  opts : h.OptsPass sndTimeoutSec rcvTimeoutSec
  greets : ∃ inc, h.peers (usedAddr server portnum) = some inc ∧ Greets inc

theorem Host.optsPass_withPeer_iff {h : Host} {fd : Nat} {servAddr : SockAddr}
    {inc : List (Arrival UInt8)} {sndTimeoutSec rcvTimeoutSec : Int} :
    (h.withPeer fd servAddr inc).OptsPass sndTimeoutSec rcvTimeoutSec ↔
      h.OptsPass sndTimeoutSec rcvTimeoutSec :=
  ⟨fun hp => ⟨hp.1, hp.2, hp.3⟩, fun hp => ⟨hp.1, hp.2, hp.3⟩⟩

theorem Host.accepts_withSocket_iff {h : Host} {fd : Nat} {server : CStr}
    {portnum sndTimeoutSec rcvTimeoutSec : Int} :
    (h.withSocket fd).Accepts server portnum sndTimeoutSec rcvTimeoutSec ↔
      h.Accepts server portnum sndTimeoutSec rcvTimeoutSec :=
  ⟨fun ⟨hpton, ⟨hd, hr, hs⟩, hgreets⟩ => ⟨hpton, ⟨hd, hr, hs⟩, hgreets⟩,
    fun ⟨hpton, ⟨hd, hr, hs⟩, hgreets⟩ => ⟨hpton, ⟨hd, hr, hs⟩, hgreets⟩⟩

/-- An `inet_pton` that does not fail leaves the address of the string, or zero, and a number
that is not negative. -/
theorem run_hostInetPton {h : Host} (hpton : h.ptonFails = false) (server : CStr) :
    ∃ n : Int, ¬ n < 0 ∧
      Prog.run Host.handle (hostInetPton server) h = ((n, Ipv4.parse server.bytes), h) := by
  have hrun : Prog.run Host.handle (hostInetPton server) h =
      Host.handle (.inetPton server) h := rfl
  rw [Host.handle, hpton, if_neg Bool.false_ne_true] at hrun
  cases hparse : Ipv4.parse server.bytes with
  | some addr =>
      rw [hparse] at hrun
      exact ⟨1, by decide, hrun⟩
  | none =>
      rw [hparse] at hrun
      exact ⟨0, by decide, hrun⟩

section ConnectSocket

variable {h : Host} {fd : Nat} {server : CStr} {portnum : Int} (sndTimeoutSec rcvTimeoutSec v : Int)

theorem exec_connectSocket_ptonFails (hfails : h.ptonFails = true) :
    Proc.exec Host.handle (connectSocket fd server portnum sndTimeoutSec rcvTimeoutSec) v h =
      ⟨.error .syscall, v, h⟩ := by
  have hpton : Prog.run Host.handle (hostInetPton server) h =
      Host.handle (.inetPton server) h := rfl
  rw [Host.handle, if_pos hfails] at hpton
  rw [connectSocket, Proc.exec_lift_bind hpton]
  exact Proc.exec_exitIf_pos (by decide)

theorem exec_connectSocket_refused (hpton : h.ptonFails = false)
    (hpeer : h.peers (usedAddr server portnum) = none) :
    Proc.exec Host.handle (connectSocket fd server portnum sndTimeoutSec rcvTimeoutSec) v h =
      ⟨.error .syscall, v, h⟩ := by
  obtain ⟨n, hn, hpton⟩ := run_hostInetPton hpton server
  have hconnect : Prog.run Host.handle (hostConnect fd (usedAddr server portnum)) h =
      Host.handle (.connect fd (usedAddr server portnum)) h := rfl
  rw [Host.handle, hpeer] at hconnect
  rw [connectSocket, Proc.exec_lift_bind hpton, Proc.exec_exitIf_neg hn]
  exact (Proc.exec_lift_bind hconnect).trans (Proc.exec_exitIf_pos (by decide))

/-- A socket that is connected goes on to the options and the greeting. -/
theorem exec_connectSocket_connected {inc : List (Arrival UInt8)} (hpton : h.ptonFails = false)
    (hpeer : h.peers (usedAddr server portnum) = some inc) :
    Proc.exec Host.handle (connectSocket fd server portnum sndTimeoutSec rcvTimeoutSec) v h =
      Proc.exec Host.handle (greetSocket fd sndTimeoutSec rcvTimeoutSec) v
        (h.withPeer fd (usedAddr server portnum) inc) := by
  obtain ⟨n, hn, hpton⟩ := run_hostInetPton hpton server
  have hconnect : Prog.run Host.handle (hostConnect fd (usedAddr server portnum)) h =
      Host.handle (.connect fd (usedAddr server portnum)) h := rfl
  rw [Host.handle, hpeer, Int.toNat_natCast] at hconnect
  rw [connectSocket, Proc.exec_lift_bind hpton, Proc.exec_exitIf_neg hn]
  exact (Proc.exec_lift_bind hconnect).trans (Proc.exec_exitIf_neg (by decide))

/-- A socket, once open, stays open however the call goes on, and is connected to nothing but
the address used. -/
theorem exec_connectSocket (hopen : (h.conn fd).isOpen = true) (hnone : h.connectedTo fd = none)
    (server : CStr) (portnum : Int) :
    ∃ r, Proc.exec Host.handle
        (connectSocket fd server portnum sndTimeoutSec rcvTimeoutSec) v h = r ∧
      h.Opened fd r.world ∧
      (r.world.connectedTo fd = none ∨
        r.world.connectedTo fd = some (usedAddr server portnum)) ∧
      ((h.Accepts server portnum sndTimeoutSec rcvTimeoutSec ∧ r.exit = .ok () ∧ r.vars = fd ∧
          r.world.connectedTo fd = some (usedAddr server portnum)) ∨
        (¬ h.Accepts server portnum sndTimeoutSec rcvTimeoutSec ∧ (∃ why, r.exit = .error why) ∧
          r.vars = v)) := by
  have hself : h.Opened fd h := ⟨hopen, fun _ _ => rfl⟩
  cases hpton : h.ptonFails with
  | true =>
      refine ⟨_, exec_connectSocket_ptonFails sndTimeoutSec rcvTimeoutSec v hpton, hself,
        Or.inl hnone, Or.inr ⟨fun hacc => ?_, ⟨_, rfl⟩, rfl⟩⟩
      cases hpton.symm.trans hacc.pton
  | false =>
      cases hpeer : h.peers (usedAddr server portnum) with
      | none =>
          refine ⟨_, exec_connectSocket_refused sndTimeoutSec rcvTimeoutSec v hpton hpeer, hself,
            Or.inl hnone, Or.inr ⟨fun hacc => ?_, ⟨_, rfl⟩, rfl⟩⟩
          obtain ⟨inc, hsome, _⟩ := hacc.greets
          cases hpeer.symm.trans hsome
      | some inc =>
          have hto : (h.withPeer fd (usedAddr server portnum) inc).connectedTo fd =
              some (usedAddr server portnum) := Function.update_self _ _ _
          obtain ⟨r, hexec, ho, hconnected, hend⟩ := exec_greetSocket
            (h := h.withPeer fd (usedAddr server portnum) inc) (h.conn_setConn fd (Conn.fresh inc))
            sndTimeoutSec rcvTimeoutSec v
          rw [← exec_connectSocket_connected sndTimeoutSec rcvTimeoutSec v hpton hpeer] at hexec
          rw [← hconnected] at hto
          refine ⟨r, hexec, (h.opened_withPeer fd _ inc).trans ho, Or.inr hto, ?_⟩
          rcases hend with ⟨⟨hopts, hgreets⟩, hok, hvars⟩ | ⟨hnot, herror, hvars⟩
          · exact Or.inl ⟨⟨hpton, Host.optsPass_withPeer_iff.mp hopts, inc, hpeer, hgreets⟩, hok,
              hvars, hto⟩
          · refine Or.inr ⟨fun hacc => hnot ?_, herror, hvars⟩
            obtain ⟨inc', hsome, hgreets⟩ := hacc.greets
            obtain rfl := Option.some.inj (hpeer.symm.trans hsome)
            exact ⟨Host.optsPass_withPeer_iff.mpr hacc.opts, hgreets⟩

end ConnectSocket

/-- The call gets no socket, be it for its arguments or because there is none left. -/
def Host.Refuses (h : Host) (server : Option CStr) (portnum : Int) : Prop :=
  server = none ∨ portnum ≤ 0 ∨ h.newSocket = none

theorem Host.not_refuses {h : Host} {s : CStr} {portnum : Int} {fd : Nat} (hpos : 0 < portnum)
    (hfd : h.newSocket = some fd) : ¬ h.Refuses (some s) portnum := by
  rintro (hnull | hneg | hnone)
  · cases hnull
  · exact absurd hneg (Int.not_le.mpr hpos)
  · cases hfd.symm.trans hnone

theorem Host.of_not_refuses {h : Host} {server : Option CStr} {portnum : Int}
    (hgoes : ¬ h.Refuses server portnum) :
    ∃ s fd, server = some s ∧ 0 < portnum ∧ h.newSocket = some fd := by
  rw [Refuses, not_or, not_or, Int.not_le] at hgoes
  obtain ⟨hnull, hpos, hnone⟩ := hgoes
  obtain ⟨s, hs⟩ := Option.ne_none_iff_exists'.mp hnull
  obtain ⟨fd, hfd⟩ := Option.ne_none_iff_exists'.mp hnone
  exact ⟨s, fd, hs, hpos, hfd⟩

/-- Without a socket nothing has happened. -/
theorem run_rconnect_refused {h : Host} {server : Option CStr} {portnum : Int}
    (hrefused : h.Refuses server portnum)
    (sndTimeoutSec rcvTimeoutSec ptrSock : Int) :
    Prog.run Host.handle (rconnect server portnum sndTimeoutSec rcvTimeoutSec ptrSock) h =
      ((-1, ptrSock), h) := by
  rw [rconnect]
  suffices hexec : ∃ why : ConnectWhy, why.code = -1 ∧
      Proc.exec Host.handle (rconnectBody server portnum sndTimeoutSec rcvTimeoutSec) ptrSock h =
        ⟨.error why, ptrSock, h⟩ by
    obtain ⟨why, hcode, hexec⟩ := hexec
    rw [Proc.run_finish_of_exec hexec]
    dsimp only
    rw [hcode]
  cases server with
  | none => exact ⟨.argument, rfl, Proc.exec_exit _ _ _ _⟩
  | some server =>
      rw [rconnectBody]
      by_cases hport : portnum ≤ 0
      · exact ⟨.argument, rfl, Proc.exec_exitIf_pos hport⟩
      · have hnone : h.newSocket = none := by
          rcases hrefused with hnull | hneg | hnone
          · cases hnull
          · exact absurd hneg hport
          · exact hnone
        have hsocket : Prog.run Host.handle hostSocket h = Host.handle .socket h := rfl
        rw [Host.handle, hnone] at hsocket
        rw [Proc.exec_exitIf_neg hport, Proc.exec_lift_bind hsocket]
        exact ⟨.syscall, rfl, Proc.exec_exitIf_pos (by decide)⟩

/-- With a socket opened the call ends well exactly if all calls do, and the socket stays open
in any case. -/
theorem run_rconnect {h : Host} {fd : Nat} {portnum : Int} (hfd : h.newSocket = some fd)
    (hport : 0 < portnum) (server : CStr) (sndTimeoutSec rcvTimeoutSec ptrSock : Int) :
    ∃ r, Prog.run Host.handle
        (rconnect (some server) portnum sndTimeoutSec rcvTimeoutSec ptrSock) h = r ∧
      h.Opened fd r.2 ∧
      (r.2.connectedTo fd = none ∨ r.2.connectedTo fd = some (usedAddr server portnum)) ∧
      ((h.Accepts server portnum sndTimeoutSec rcvTimeoutSec ∧ r.1 = (0, (fd : Int)) ∧
          r.2.connectedTo fd = some (usedAddr server portnum)) ∨
        (¬ h.Accepts server portnum sndTimeoutSec rcvTimeoutSec ∧ r.1.1 < 0 ∧
          r.1.2 = ptrSock)) := by
  have hsocket : Prog.run Host.handle hostSocket h = Host.handle .socket h := rfl
  rw [Host.handle, hfd] at hsocket
  obtain ⟨r, hexec, ho, hconnected, hend⟩ := exec_connectSocket sndTimeoutSec rcvTimeoutSec ptrSock
    (h.opened_withSocket fd).isOpen (Function.update_self _ _ _) server portnum
  have hbody : Proc.exec Host.handle
      (rconnectBody (some server) portnum sndTimeoutSec rcvTimeoutSec) ptrSock h = r := by
    rw [rconnectBody, Proc.exec_exitIf_neg (Int.not_le.mpr hport), Proc.exec_lift_bind hsocket,
      Proc.exec_exitIf_neg (Int.not_lt.mpr (Int.natCast_nonneg fd)), hexec]
  have hopened : h.Opened fd r.world := (h.opened_withSocket fd).trans ho
  rw [rconnect, Proc.run_finish, hbody]
  refine ⟨_, rfl, hopened, hconnected, ?_⟩
  rcases hend with ⟨hacc, hok, hvars, hto⟩ | ⟨hnot, ⟨why, herror⟩, hvars⟩
  · left
    refine ⟨Host.accepts_withSocket_iff.mp hacc, ?_, hto⟩
    rw [hok, hvars]
  · right
    refine ⟨fun hacc => hnot (Host.accepts_withSocket_iff.mpr hacc), ?_, ?_⟩
    · rw [herror]
      exact why.code_neg
    · rw [herror]
      exact hvars

end RserveClient
