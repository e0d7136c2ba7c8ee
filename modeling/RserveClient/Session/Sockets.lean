import RserveClient.Client.Phases
import RserveClient.Foundation.Threads

/-!
# Threads with a socket each

No function of the library keeps anything outside its arguments and its socket. So any
number of threads, each at work on a socket of its own, get on as if each were alone, in
whatever order the host performs their system calls.

## Implementation notes

A connection is the same to its thread whenever the thread has its turn: what arrives on it
and how its sends end are fixed beforehand for each descriptor. No socket is opened while
the threads run, so a number that `rshutdown` closes is not handed out again.
-/

namespace RserveClient

open Interaction

/-- System calls performed by the host. -/
def Host.sysHandle : Handler Syscall Syscall.Res Host := fun call h => Host.handle (.sys call) h

/-- Descriptors that differ are parts of the host. -/
def connParts {ι : Type} (fd : ι → Nat) (hfd : Function.Injective fd) :
    Parts ι Host.sysHandle Conn.handle fun i call => call.sock = (fd i : Int) where
  view i := connView (fd i)
  apart := by
    intro i j hij c h
    change Function.update h.conn (fd i) c (fd j) = h.conn (fd j)
    exact Function.update_of_ne (fun hsame => hij (hfd hsame.symm)) _ _
  answers hcall h := run_hostSyscall h hcall

section Sockets

variable {ι : Type} {fd : ι → Nat} (past : Nat → UInt8)

/-- Threads that each make calls on their own socket. -/
def sockets (fd : ι → Nat) (work : ι → List ApiCall) (h : Host) :
    Pool ι Syscall Syscall.Res (List ApiRet) Host :=
  ⟨fun i => session past (fd i) (work i), h⟩

/-- The thread on its connection alone. -/
def alone (fd : ι → Nat) (work : ι → List ApiCall) (h : Host) (i : ι) : List ApiRet × Conn :=
  (session past (fd i) (work i)).run Conn.handle (h.conn (fd i))

/-- The system calls the thread makes alone. -/
def turns (fd : ι → Nat) (work : ι → List ApiCall) (h : Host) (i : ι) : Nat :=
  (session past (fd i) (work i)).calls Conn.handle (h.conn (fd i))

theorem keep_sockets (fd : ι → Nat) (work : ι → List ApiCall) (h : Host) :
    (sockets past fd work h).Keep fun i call => call.sock = (fd i : Int) :=
  fun i => only_session past (fd i) (work i)

/-- Under every schedule a thread that had its turns has the results it gets alone and leaves
its connection as it leaves it alone; on the way it is where its turns take it alone; and no
other descriptor has changed. -/
theorem sockets_independent [DecidableEq ι] (hfd : Function.Injective fd)
    (work : ι → List ApiCall) (h : Host) (schedule : List ι) :
    let s := (sockets past fd work h).run Host.sysHandle schedule
    (∀ i, (s.thread i, s.world.conn (fd i)) =
        (Prog.tick Conn.handle)^[schedule.count i]
          (session past (fd i) (work i), h.conn (fd i))) ∧
      (∀ i, turns past fd work h i ≤ schedule.count i →
        s.thread i = .ret (alone past fd work h i).1 ∧
          s.world.conn (fd i) = (alone past fd work h i).2) ∧
      ∀ sock, (∀ i, sock ≠ fd i) → s.world.conn sock = h.conn sock := by
  have hkeep := keep_sockets past fd work h
  refine ⟨fun i => ?_, fun i hturns => ?_, fun sock hsock => ?_⟩
  · exact Pool.state_run (connParts fd hfd) hkeep schedule i
  · exact Pool.run_of_enough (connParts fd hfd) hkeep hturns
  · have hobs : ∀ i c h', (Host.setConn h' (fd i) c).conn sock = h'.conn sock :=
      fun i c h' => Function.update_of_ne (hsock i) _ _
    exact Pool.frame_run (connParts fd hfd) (fun h' => h'.conn sock) hobs hkeep schedule

end Sockets

/-- A host whose sockets all have a byte waiting. -/
def busyHost : Host where
  conn _ := Conn.fresh [.piece 0 []]
  connectedTo _ := none
  offer := none
  ptonFails := false
  optFails _ := false
  peers _ := none

/-- The sockets of two threads. -/
def twoFds : Bool → Nat
  | false => 3
  | true => 4

/-- Two threads that shut down, with their system calls mixed. -/
theorem sockets_independent_twoShutdowns :
    let work := fun _ : Bool => [ApiCall.exchange .rshutdown]
    let s := (sockets (fun _ => 0) twoFds work busyHost).run Host.sysHandle
      [false, true, true, false, false, true]
    s.thread false = .ret [.exchange ⟨.ok, .nothing⟩] ∧
      s.thread true = .ret [.exchange ⟨.ok, .nothing⟩] ∧
      (s.world.conn 3).isOpen = false ∧ (s.world.conn 5).isOpen = true := by
  have hfd : Function.Injective twoFds := by
    intro i j hij
    cases i <;> cases j <;> first | rfl | cases hij
  obtain ⟨_, hdone, hframe⟩ := sockets_independent (fun _ => 0) hfd
    (fun _ : Bool => [ApiCall.exchange .rshutdown]) busyHost
    [false, true, true, false, false, true]
  have hfalse := hdone false (by decide)
  have htrue := hdone true (by decide)
  have hother := hframe 5 (by decide)
  refine ⟨hfalse.1, htrue.1, ?_, ?_⟩
  · exact (congrArg Conn.isOpen hfalse.2).trans (by decide)
  · exact (congrArg Conn.isOpen hother).trans rfl

end RserveClient
