import RserveClient.Client.Phases
import RserveClient.Client.Sends

/-!
# The life of a descriptor

`rconnect` opens a socket early on and none of its later exits closes it, so every failure
after that point leaves a descriptor behind. `rshutdown` closes its socket only after a
request that was taken whole and a reply that was not empty.
-/

namespace RserveClient

open Interaction Arrivals

namespace Host

theorem mem_opens_iff (h : Host) (fd : Nat) : (fd : Int) ∈ h.opens ↔ (h.conn fd).isOpen = true := by
  constructor
  · rintro ⟨fd', hcast, hopen⟩
    obtain rfl := Int.ofNat_inj.mp hcast
    exact hopen
  · exact fun hopen => ⟨fd, rfl, hopen⟩

/-- A socket that was opened is one descriptor more. -/
theorem Opened.opens_eq {h h' : Host} {fd : Nat} (ho : h.Opened fd h') :
    h'.opens = insert (fd : Int) h.opens := by
  ext sock
  rw [Set.mem_insert_iff]
  constructor
  · rintro ⟨fd', rfl, hopen⟩
    by_cases hsame : fd' = fd
    · exact Or.inl (congrArg Nat.cast hsame)
    · rw [ho.others fd' hsame] at hopen
      exact Or.inr ((h.mem_opens_iff fd').mpr hopen)
  · rintro (rfl | ⟨fd', rfl, hopen⟩)
    · exact (h'.mem_opens_iff fd).mpr ho.isOpen
    · by_cases hsame : fd' = fd
      · rw [hsame]
        exact (h'.mem_opens_iff fd).mpr ho.isOpen
      · rw [← ho.others fd' hsame] at hopen
        exact (h'.mem_opens_iff fd').mpr hopen

/-- The descriptor of a new socket is not one that is open. -/
theorem notMem_opens_of_newSocket {h : Host} {fd : Nat} (hfd : h.newSocket = some fd) :
    (fd : Int) ∉ h.opens := by
  have hclosed := (Option.filter_eq_some_iff.mp hfd).2
  rw [mem_opens_iff]
  simpa using hclosed

end Host

/-- A negative status leaves the open descriptors as they were. A status of 0 adds the one
that is handed out. -/
structure KeepsDescriptors (h : Host) (r : (Int × Int) × Host) : Prop where
  failure : r.1.1 < 0 → r.2.opens = h.opens
  success : r.1.1 = 0 → r.1.2 ∉ h.opens ∧ r.2.opens = insert r.1.2 h.opens

theorem keepsDescriptors_rconnect_iff (server : Option CStr)
    (portnum sndTimeoutSec rcvTimeoutSec ptrSock : Int) (h : Host) :
    KeepsDescriptors h (Prog.run Host.handle
        (rconnect server portnum sndTimeoutSec rcvTimeoutSec ptrSock) h) ↔
      ∀ s fd, server = some s → 0 < portnum → h.newSocket = some fd →
        h.Accepts s portnum sndTimeoutSec rcvTimeoutSec := by
  by_cases hrefused : h.Refuses server portnum
  · rw [run_rconnect_refused hrefused]
    refine iff_of_true ⟨fun _ => rfl, nofun⟩ ?_
    rintro s fd rfl hpos hfd
    exact absurd hrefused (Host.not_refuses hpos hfd)
  · obtain ⟨s, fd, rfl, hpos, hfd⟩ := Host.of_not_refuses hrefused
    obtain ⟨r, hrun, ho, _, hend⟩ :=
      run_rconnect hfd hpos s sndTimeoutSec rcvTimeoutSec ptrSock
    have hopens := ho.opens_eq
    have hnew := Host.notMem_opens_of_newSocket hfd
    rw [hrun]
    rcases hend with ⟨hacc, hr, _⟩ | ⟨hnot, hneg, _⟩
    · refine iff_of_true ⟨fun hneg => ?_, fun _ => ?_⟩ ?_
      · rw [hr] at hneg
        cases hneg
      · rw [hr]
        exact ⟨hnew, hopens⟩
      · intro s' fd' hs _ _
        obtain rfl := Option.some.inj hs
        exact hacc
    · refine iff_of_false (fun hkeeps => hnew ?_) fun hall => hnot (hall s fd rfl hpos hfd)
      rw [← hkeeps.failure hneg, hopens]
      exact Set.mem_insert _ _

theorem only_rshutdown (sock : Int) : (rshutdown sock).Only fun call => call.sock = sock := by
  apply Proc.Only.finish
  refine (Proc.only_ofExcept _).bind fun ph => ?_
  exact (only_sendBuf (fun _ => rfl) ph.bytes hdrLen).bind fun _ =>
    only_rshutdownReply (fun _ => rfl) rfl

theorem length_shutdownRequest : shutdownRequest.length = 16 := Phdr.length_bytes _

/-- The reply half closes an open socket exactly if something arrives. -/
theorem isOpen_rshutdownReply_iff {sock : Int} (hsock : 0 ≤ sock) {c : Conn}
    (hopen : c.isOpen = true) :
    (execOn (rshutdownReply sock) () c).world.isOpen = false ↔ 0 < (front c.inc).length := by
  rcases Nat.eq_zero_or_pos (front c.inc).length with hnone | hfront
  · obtain ⟨why, inc', hexec, _⟩ := exec_rshutdownReply_none sock hopen hnone ()
    rw [hexec]
    refine iff_of_false (fun hclosed => ?_) (Nat.not_lt.mpr hnone.le)
    cases hopen.symm.trans hclosed
  · rw [exec_rshutdownReply hsock hopen hfront]
    exact iff_of_true rfl hfront

/-- On its connection the call leaves the socket closed exactly if it was, or if the request
is taken whole and something arrives. -/
theorem isOpen_run_rshutdown_iff {sock : Int} (hsock : 0 ≤ sock) (c : Conn) :
    (Prog.run Conn.handle (rshutdown sock) c).2.isOpen = false ↔
      (c.isOpen = true → c.sendsAll 16 ∧ 0 < (front c.inc).length) := by
  have hbody := exec_rshutdownBody_pieces c sock ()
  rw [rshutdown, Proc.run_finish]
  change (execOn (rshutdownBody sock) () c).world.isOpen = false ↔ _
  rw [hbody, sentPieces, Conn.sendPieces, length_shutdownRequest]
  have hcases := c.send_cases shutdownRequest
  rw [length_shutdownRequest] at hcases
  rcases hcases with ⟨hall, _, hsent⟩ | ⟨hcut, k, hsent, _⟩
  · have hopen := hsent.isOpen.trans hall.1
    rw [if_pos hall, Conn.sendPieces, if_pos rfl, isOpen_rshutdownReply_iff hsock hopen, hsent.inc]
    exact ⟨fun hfront _ => ⟨hall, hfront⟩, fun himp => (himp hall.1).2⟩
  · rw [if_neg hcut, if_neg Bool.false_ne_true]
    dsimp only
    rw [hsent.isOpen]
    constructor
    · intro hclosed hopen
      cases hopen.symm.trans hclosed
    · exact fun himp => Bool.eq_false_of_not_eq_true fun hopen => hcut (himp hopen).1

theorem closed_rshutdown_iff (sock : Int) (h : Host) :
    sock ∉ (Prog.run Host.handle ((rshutdown sock).via hostSyscall) h).2.opens ↔
      (sock ∈ h.opens → (h.conn sock.toNat).sendsAll 16 ∧
        0 < (front (h.conn sock.toNat).inc).length) := by
  rcases lt_or_ge sock 0 with hneg | hsock
  · -- a negative number is no descriptor
    have hno : ∀ h' : Host, sock ∉ h'.opens := by
      rintro h' ⟨fd, rfl, _⟩
      exact absurd hneg (Int.not_lt.mpr (Int.natCast_nonneg fd))
    exact iff_of_true (hno _) fun hmem => absurd hmem (hno h)
  · obtain ⟨fd, rfl⟩ := Int.eq_ofNat_of_zero_le hsock
    rw [run_via_hostSyscall (only_rshutdown fd), Host.mem_opens_iff, Host.mem_opens_iff,
      Host.conn_setConn, Bool.not_eq_true, isOpen_run_rshutdown_iff hsock, Int.toNat_natCast]

/-- No descriptor is lost by `rconnect` unless something fails after `socket`, and none is left
by `rshutdown` unless the request is cut or nothing is read. -/
theorem descriptors_kept_iff (server : Option CStr)
    (portnum sndTimeoutSec rcvTimeoutSec ptrSock sock : Int) (h : Host) :
    (KeepsDescriptors h (Prog.run Host.handle
        (rconnect server portnum sndTimeoutSec rcvTimeoutSec ptrSock) h) ↔
      ∀ s fd, server = some s → 0 < portnum → h.newSocket = some fd →
        h.Accepts s portnum sndTimeoutSec rcvTimeoutSec) ∧
    (sock ∉ (Prog.run Host.handle ((rshutdown sock).via hostSyscall) h).2.opens ↔
      (sock ∈ h.opens → (h.conn sock.toNat).sendsAll 16 ∧
        0 < (front (h.conn sock.toNat).inc).length)) :=
  ⟨keepsDescriptors_rconnect_iff server portnum sndTimeoutSec rcvTimeoutSec ptrSock h,
    closed_rshutdown_iff sock h⟩

/-- A host on which nobody listens, and with one socket whose peer has gone. -/
def desertedHost : Host where
  conn fd := { Conn.fresh [] with isOpen := fd == 4 }
  connectedTo _ := none
  offer := some 3
  ptonFails := false
  optFails _ := false
  peers _ := none

/-- `127.0.0.1` -/
def loopback : CStr := ⟨[49, 50, 55, 46, 48, 46, 48, 46, 49], by decide⟩

/-- A refused connection leaves its socket open, and so does a shutdown that reads nothing. -/
theorem descriptors_lost :
    (Prog.run Host.handle (rconnect (some loopback) 6311 0 0 (-1)) desertedHost).1 = (-1, -1) ∧
      (3 : Int) ∉ desertedHost.opens ∧
      (3 : Int) ∈
        (Prog.run Host.handle (rconnect (some loopback) 6311 0 0 (-1)) desertedHost).2.opens ∧
      ¬ KeepsDescriptors desertedHost
        (Prog.run Host.handle (rconnect (some loopback) 6311 0 0 (-1)) desertedHost) ∧
      (4 : Int) ∈ (Prog.run Host.handle ((rshutdown 4).via hostSyscall) desertedHost).2.opens := by
  have hclosed : (3 : Int) ∉ desertedHost.opens := fun hmem =>
    absurd ((desertedHost.mem_opens_iff 3).mp hmem) (by decide)
  have hopen : (3 : Int) ∈
      (Prog.run Host.handle (rconnect (some loopback) 6311 0 0 (-1)) desertedHost).2.opens :=
    (Host.mem_opens_iff _ 3).mpr (by decide)
  refine ⟨by decide, hclosed, hopen, fun hkeeps => hclosed ?_, (Host.mem_opens_iff _ 4).mpr ?_⟩
  · rw [← hkeeps.failure (by decide)]
    exact hopen
  · decide

end RserveClient
