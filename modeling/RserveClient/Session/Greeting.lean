import RserveClient.Client.Connect

/-!
# The server that was asked for

A status of 0 should mean that the caller has got a socket connected to the address and the
port he named, on which the server has introduced itself. The greeting is always checked.
The address is not: a string that is no dotted address counts as `0.0.0.0`, and of the port
only the low 16 bits are used.
-/

namespace RserveClient

open Interaction Arrivals

/-- The port that `htons` leaves is the one asked for exactly if it is a port number. -/
theorem toNat_htons_iff {portnum : Int} (hpos : 0 < portnum) :
    ((htons portnum).toNat : Int) = portnum ↔ portnum < 65536 := by
  have hval : (htons portnum).toNat = (portnum % 65536).toNat % 65536 := UInt16.toNat_ofNat'
  rw [hval]
  omega

/-- The address used is the one that was asked for. -/
theorem usedAddr_iff {server : CStr} {portnum : Int} (hpos : 0 < portnum) :
    (∃ addr port, Ipv4.parse server.bytes = some addr ∧ (port.toNat : Int) = portnum ∧
        usedAddr server portnum = ⟨addr, port⟩) ↔
      Ipv4.parse server.bytes ≠ none ∧ portnum < 65536 := by
  constructor
  · rintro ⟨addr, port, hparse, hport, hused⟩
    have hhtons : htons portnum = port := congrArg SockAddr.port hused
    refine ⟨?_, (toNat_htons_iff hpos).mp ?_⟩
    · rw [hparse]
      exact Option.some_ne_none addr
    · rw [hhtons, hport]
  · rintro ⟨hparse, hport⟩
    obtain ⟨addr, hparse⟩ := Option.ne_none_iff_exists'.mp hparse
    refine ⟨addr, htons portnum, hparse, (toNat_htons_iff hpos).mpr hport, ?_⟩
    rw [usedAddr, hparse, Option.getD_some]

/-- A status of 0 comes with a socket that is connected to the server asked for, which has
greeted. A peer that does not greet makes the status negative. -/
structure ConnectsAsAsked (server : Option CStr) (portnum : Int) (h : Host)
    (r : (Int × Int) × Host) : Prop where
  success : r.1.1 = 0 → ∃ s addr, ∃ fd : Nat, ∃ port inc, server = some s ∧
    Ipv4.parse s.bytes = some addr ∧ (port.toNat : Int) = portnum ∧ r.1.2 = (fd : Int) ∧
    r.2.connectedTo fd = some ⟨addr, port⟩ ∧ h.peers ⟨addr, port⟩ = some inc ∧ Greets inc
  refusal : ∀ fd peer inc, h.newSocket = some fd → r.2.connectedTo fd = some peer →
    h.peers peer = some inc → ¬ Greets inc → r.1.1 < 0

/-- Where the call succeeds, only the address and the port can be wrong. -/
theorem connectsAsAsked_run_iff {h : Host} {fd : Nat} {portnum : Int}
    (hfd : h.newSocket = some fd) (hpos : 0 < portnum) {s : CStr}
    {sndTimeoutSec rcvTimeoutSec : Int} (ptrSock : Int)
    (hacc : h.Accepts s portnum sndTimeoutSec rcvTimeoutSec) :
    ConnectsAsAsked (some s) portnum h (Prog.run Host.handle
        (rconnect (some s) portnum sndTimeoutSec rcvTimeoutSec ptrSock) h) ↔
      Ipv4.parse s.bytes ≠ none ∧ portnum < 65536 := by
  obtain ⟨r, hrun, _, _, hend⟩ :=
    run_rconnect hfd hpos s sndTimeoutSec rcvTimeoutSec ptrSock
  obtain ⟨inc, hpeer, hgreets⟩ := hacc.greets
  rcases hend with ⟨_, hr, hto⟩ | ⟨hnot, _, _⟩
  · rw [hrun, ← usedAddr_iff hpos]
    constructor
    · intro hasked
      obtain ⟨s', addr, fd', port, _, hs, hparse, hport, hfd', hto', _⟩ :=
        hasked.success (congrArg Prod.fst hr)
      obtain rfl := Option.some.inj hs
      have hsame : fd' = fd := by
        rw [hr] at hfd'
        exact (Int.ofNat_inj.mp hfd').symm
      rw [hsame, hto] at hto'
      exact ⟨addr, port, hparse, hport, Option.some.inj hto'⟩
    · rintro ⟨addr, port, hparse, hport, hused⟩
      rw [hused] at hto hpeer
      refine ⟨fun _ => ⟨s, addr, fd, port, inc, rfl, hparse, hport, congrArg Prod.snd hr, hto,
        hpeer, hgreets⟩, ?_⟩
      intro fd' peer inc' hnew hto' hpeer' hno
      obtain rfl := Option.some.inj (hfd.symm.trans hnew)
      obtain rfl := Option.some.inj (hto.symm.trans hto')
      obtain rfl := Option.some.inj (hpeer.symm.trans hpeer')
      exact absurd hgreets hno
  · exact absurd hacc hnot

/-- A call with a negative status promises nothing. -/
theorem connectsAsAsked_of_neg {server : Option CStr} {portnum : Int} {h : Host}
    {r : (Int × Int) × Host} (hneg : r.1.1 < 0) : ConnectsAsAsked server portnum h r where
  success hzero := by
    rw [hzero] at hneg
    cases hneg
  refusal _ _ _ _ _ _ _ := hneg

/-- `rconnect` connects as asked unless every call succeeds for a string that is no dotted
address or for a number that is no port. -/
theorem rconnect_asAsked_iff (server : Option CStr)
    (portnum sndTimeoutSec rcvTimeoutSec ptrSock : Int) (h : Host) :
    ConnectsAsAsked server portnum h (Prog.run Host.handle
        (rconnect server portnum sndTimeoutSec rcvTimeoutSec ptrSock) h) ↔
      ∀ s fd, server = some s → 0 < portnum → h.newSocket = some fd →
        h.Accepts s portnum sndTimeoutSec rcvTimeoutSec →
        Ipv4.parse s.bytes ≠ none ∧ portnum < 65536 := by
  by_cases hrefused : h.Refuses server portnum
  · rw [run_rconnect_refused hrefused]
    refine iff_of_true (connectsAsAsked_of_neg neg_one_lt_zero) ?_
    rintro s fd rfl hpos hfd
    exact absurd hrefused (Host.not_refuses hpos hfd)
  · obtain ⟨s, fd, rfl, hpos, hfd⟩ := Host.of_not_refuses hrefused
    by_cases hacc : h.Accepts s portnum sndTimeoutSec rcvTimeoutSec
    · rw [connectsAsAsked_run_iff hfd hpos ptrSock hacc]
      constructor
      · intro hgood s' fd' hs _ _ _
        obtain rfl := Option.some.inj hs
        exact hgood
      · exact fun hall => hall s fd rfl hpos hfd hacc
    · obtain ⟨r, hrun, _, _, hend⟩ :=
        run_rconnect hfd hpos s sndTimeoutSec rcvTimeoutSec ptrSock
      rcases hend with ⟨hyes, _, _⟩ | ⟨_, hneg, _⟩
      · exact absurd hyes hacc
      · rw [hrun]
        refine iff_of_true (connectsAsAsked_of_neg hneg) ?_
        intro s' fd' hs _ _ hyes
        obtain rfl := Option.some.inj hs
        exact absurd hyes hacc

/-- A host whose only server listens at the address zero. -/
def anyAddrHost : Host where
  conn _ := { Conn.fresh [] with isOpen := false }
  connectedTo _ := none
  offer := some 3
  ptonFails := false
  optFails _ := false
  peers peer :=
    if peer = ⟨Ipv4.zero, 6311⟩ then some [.piece 82 (idString.tail ++ List.replicate 20 45)]
    else none

/-- `localhost` -/
def localhostName : CStr := ⟨[108, 111, 99, 97, 108, 104, 111, 115, 116], by decide⟩

/-- `localhost` is no dotted address, and yet the call succeeds. -/
theorem localhost_connects_to_zero :
    Ipv4.parse localhostName.bytes = none ∧
      (Prog.run Host.handle (rconnect (some localhostName) 6311 0 0 (-1)) anyAddrHost).1 = (0, 3) ∧
      (Prog.run Host.handle (rconnect (some localhostName) 6311 0 0 (-1)) anyAddrHost).2.connectedTo
        3 = some ⟨Ipv4.zero, 6311⟩ ∧
      ¬ ConnectsAsAsked (some localhostName) 6311 anyAddrHost
        (Prog.run Host.handle (rconnect (some localhostName) 6311 0 0 (-1)) anyAddrHost) := by
  have hparse : Ipv4.parse localhostName.bytes = none := by decide
  refine ⟨hparse, by decide, by decide, fun hasked => ?_⟩
  obtain ⟨s, addr, _, _, _, hs, hsome, _⟩ := hasked.success (by decide)
  obtain rfl := Option.some.inj hs
  cases hparse.symm.trans hsome

end RserveClient
