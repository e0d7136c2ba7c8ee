import RserveClient.Session.Live
import RserveClient.Session.Segmentation
import RserveClient.Session.Workspace

/-!
# Sessions and the cutting of replies

`exec_str` and `set_vec` read by `get_buf_from_sock` only. What a session of such calls
returns, what it sends and what becomes of the server do not depend on how the answers of the
server are cut into pieces.
-/

namespace RserveClient

open Interaction Arrivals Framing

/-- The same bytes come, the same sends are ahead, and the same bytes have gone out. -/
def Conn.SameStream (c c' : Conn) : Prop :=
  c.SameBytes c' ∧ (c.outc, c.sent) = (c'.outc, c'.sent)

section Programs

variable {σ α : Type} {sock : Int}

theorem blind_execStrReply (sock : Int) (ptrOutput : Bool) (xt : Int) :
    BlindToCuts (execStrReply sock ptrOutput xt) := by
  refine (blind_readHdr sock).bind fun ph => ?_
  cases ptrOutput with
  | false => exact Proc.respects_pure ()
  | true =>
      refine (Proc.respects_update _).bind fun _ => (Proc.respects_exitIf _ _).bind fun _ =>
        (Proc.respects_exitIf _ _).bind fun _ => (blind_recvBuf sock 8).bind fun hdr => ?_
      exact (Proc.respects_exitIf _ _).bind fun _ => (Proc.respects_exitIf _ _).bind fun _ =>
        (blind_recvBuf sock _).bind fun _ => Proc.respects_update _

theorem blind_setVecReply (sock : Int) : BlindToCuts (setVecReply sock : Body σ Unit) :=
  (blind_readHdr sock).bind fun _ => Proc.respects_exitIf _ _

/-- What is only read leaves the sends as they are. -/
theorem respects_reads {p : Body σ α} (hblind : BlindToCuts p)
    (hreads : Proc.Only (Syscall.reads sock) p) :
    Proc.Respects Conn.handle Conn.SameStream p := by
  refine hblind.and_frame (fun c => (c.outc, c.sent)) ?_ hreads
  rintro (⟨s, buf⟩ | ⟨s, count⟩ | s) hop c
  · exact hop.elim
  · change ((c.read count).2.outc, (c.read count).2.sent) = _
    unfold Conn.read
    split <;> rfl
  · exact hop.elim

theorem sends_alike (sock : Int) :
    AnswersAlike Conn.handle Conn.SameStream (Syscall.sends sock) := by
  rintro (⟨s, buf⟩ | ⟨s, count⟩ | s) hop c c' ⟨hbytes, hout⟩
  · obtain ⟨houtc, hsent⟩ := Prod.mk.inj hout
    change (c.send buf).1 = (c'.send buf).1 ∧ (c.send buf).2.SameStream (c'.send buf).2
    unfold Conn.send
    simp only [hbytes.isOpen, hbytes.isOpen', ← houtc, if_true]
    rcases c.outc with _ | ⟨_ | k | _, os⟩
    · exact ⟨rfl, ⟨hbytes.isOpen, hbytes.isOpen', hbytes.inc⟩,
        Prod.ext houtc (congrArg (· ++ buf) hsent)⟩
    · exact ⟨rfl, ⟨hbytes.isOpen, hbytes.isOpen', hbytes.inc⟩,
        Prod.ext rfl (congrArg (· ++ buf) hsent)⟩
    · exact ⟨rfl, ⟨hbytes.isOpen, hbytes.isOpen', hbytes.inc⟩,
        Prod.ext rfl (congrArg (· ++ buf.take k) hsent)⟩
    · exact ⟨rfl, ⟨rfl, rfl, hbytes.inc⟩, Prod.ext rfl hsent⟩
  · exact hop.elim
  · exact hop.elim

/-- Two runs end alike from any two such connections. -/
abbrev RunsAlike (p : SysProg α) : Prop :=
  ∀ ⦃c c' : Conn⦄, c.SameStream c' →
    (p.run Conn.handle c).1 = (p.run Conn.handle c').1 ∧
      (p.run Conn.handle c).2.SameStream (p.run Conn.handle c').2

theorem RunsAlike.bind {β : Type} {p : SysProg α} (hp : RunsAlike p) (f : α → β) :
    RunsAlike (p.bind fun a => .ret (f a)) := by
  intro c c' hc
  obtain ⟨hval, hconn⟩ := hp hc
  rw [Prog.run_bind', Prog.run_bind', Prog.run_ret, Prog.run_ret]
  exact ⟨congrArg f hval, hconn⟩

theorem runsAlike_finish {β : Type} {p : Body σ α}
    (hp : Proc.Respects Conn.handle Conn.SameStream p) (s : σ) (bye : Except Why α → σ → β) :
    RunsAlike (p.finish s bye) := by
  intro c c' hc
  obtain ⟨hexit, hvars, hworld⟩ := hp s c c' hc
  rw [Proc.run_finish, Proc.run_finish, hexit, hvars]
  exact ⟨rfl, hworld⟩

theorem runsAlike_execStr (str : Option CStr) (ptrOutput : Bool) (xt : Int) (v : OutVars) :
    RunsAlike (execStr sock str ptrOutput xt v) := by
  have hsend : ∀ buf, Syscall.sends sock (.send sock buf) := fun _ => rfl
  have hread : ∀ count, Syscall.reads sock (.read sock count) := fun _ => rfl
  have hreply := respects_reads (blind_execStrReply sock ptrOutput xt)
    (only_execStrReply hread ptrOutput xt)
  apply runsAlike_finish
  refine (Proc.respects_exitIf _ _).bind fun _ => (Proc.respects_exitIf _ _).bind fun _ =>
    ((Proc.only_ofExcept _).respects (sends_alike sock)).bind fun param1 => ?_
  exact ((only_sendRequest hsend _ param1).respects (sends_alike sock)).bind fun _ => hreply

theorem runsAlike_setVec (name qtype : Option CStr) (data : Option Bytes) (n inWidth : UInt32) :
    RunsAlike (setVec sock name qtype data n inWidth) := by
  have hsend : ∀ buf, Syscall.sends sock (.send sock buf) := fun _ => rfl
  have hread : ∀ count, Syscall.reads sock (.read sock count) := fun _ => rfl
  have hreply : Proc.Respects Conn.handle Conn.SameStream (setVecReply sock : Body Unit Unit) :=
    respects_reads (blind_setVecReply sock) (only_setVecReply hread)
  apply runsAlike_finish
  refine ((Proc.only_ofExcept _).respects (sends_alike sock)).bind fun p => ?_
  exact ((only_sendParams hsend p).respects (sends_alike sock)).bind fun _ => hreply

/-- The calls that read by `get_buf_from_sock` only. -/
def ApiCall.ReadsAll : ApiCall → Prop
  | .exchange (.execStr _ _ _ _) => True
  | .exchange (.setVec _ _ _ _ _) => True
  | .exchange _ => False
  | .ask _ => True

theorem ApiCall.runsAlike (past : Nat → UInt8) {call : ApiCall} (hcall : call.ReadsAll) :
    RunsAlike (call.prog past sock) := by
  cases call with
  | exchange call =>
      cases call with
      | execStr str ptrOutput xt out =>
          exact ((runsAlike_execStr str ptrOutput xt out).bind _).bind _
      | setVec name qtype data n inWidth =>
          exact ((runsAlike_setVec name qtype data n inWidth).bind _).bind _
      | _ => exact hcall.elim
  | ask f =>
      rw [ApiCall.prog, f.prog_eq]
      unfold evaluation
      cases f.cmd sock with
      | error why =>
          intro c c' hc
          exact ⟨rfl, hc⟩
      | ok rcmd => exact ((runsAlike_execStr (some rcmd) true f.xt ⟨none, 0⟩).bind _).bind _

end Programs

section Sessions

variable {σ τ : Type} {server : Server σ} {server' : Server τ} {R : σ → τ → Prop}

/-- In related states the two servers answer a packet with the same bytes, in whatever
pieces, and go on to related states. -/
def Recut (R : σ → τ → Prop) (server : Server σ) (server' : Server τ) : Prop :=
  ∀ s t, R s t → ∀ request,
    R (server s request).1 (server' t request).1 ∧
      SameElems (server s request).2 (server' t request).2

/-- Both have collected the same part of a packet, and are in related states. -/
def HeardAlike (R : σ → τ → Prop) (st : Bytes × σ) (st' : Bytes × τ) : Prop :=
  st.1 = st'.1 ∧ R st.2 st'.2

theorem feedAll_recut (hcut : Recut R server server') {st : Bytes × σ} {st' : Bytes × τ}
    (hst : HeardAlike R st st') (bs : Bytes) :
    HeardAlike R (packetFormat.feedAll server st bs).1 (packetFormat.feedAll server' st' bs).1 ∧
      SameElems (packetFormat.feedAll server st bs).2 (packetFormat.feedAll server' st' bs).2 := by
  induction bs generalizing st st' with
  | nil => exact ⟨hst, clean_nil, clean_nil, rfl⟩
  | cons b bs ih =>
      suffices hfeed : HeardAlike R (packetFormat.feed server st b).1
          (packetFormat.feed server' st' b).1 ∧
          SameElems (packetFormat.feed server st b).2 (packetFormat.feed server' st' b).2 by
        obtain ⟨hheard, hsame⟩ := ih hfeed.1
        exact ⟨hheard, hfeed.2.append hsame⟩
      obtain ⟨hbuf, hrel⟩ := hst
      unfold Format.feed
      rw [← hbuf]
      by_cases hcomplete : packetFormat.Complete (st.1 ++ [b])
      · simp only [if_pos hcomplete]
        obtain ⟨hnext, hsame⟩ := hcut _ _ hrel (st.1 ++ [b])
        exact ⟨⟨rfl, hnext⟩, hsame⟩
      · simp only [if_neg hcomplete]
        exact ⟨⟨rfl, hrel⟩, clean_nil, clean_nil, rfl⟩

theorem Conn.SameStream.arrive {c c' : Conn} (hc : c.SameStream c') {es es' : List (Arrival UInt8)}
    (hes : SameElems es es') : (c.arrive es).SameStream (c'.arrive es') :=
  ⟨⟨hc.1.isOpen, hc.1.isOpen', hc.1.inc.append hes⟩, hc.2⟩

/-- One program beside the one server and beside the other. -/
theorem run_live_recut {α : Type} {p : SysProg α} {sock : Int}
    (hphases : p.Phases (Syscall.sends sock) (Syscall.hears sock)) (halike : RunsAlike p)
    (hcut : Recut R server server') {c c' : Conn} {st : Bytes × σ} {st' : Bytes × τ}
    (hconn : c.SameStream c') (hheard : HeardAlike R st st') :
    let r := p.run (liveHandle server sock) (c, st)
    let r' := p.run (liveHandle server' sock) (c', st')
    r.1 = r'.1 ∧ r.2.1.SameStream r'.2.1 ∧ HeardAlike R r.2.2 r'.2.2 := by
  obtain ⟨bs, hsent, hlive⟩ := run_live_prog server sock hphases (c, st)
  obtain ⟨bs', hsent', hlive'⟩ := run_live_prog server' sock hphases (c', st')
  -- what goes out does not depend on what is there to be read
  have hsame : bs = bs' := by
    have hall := congrArg Prod.snd (halike hconn).2.2
    have hbefore : c.sent = c'.sent := congrArg Prod.snd hconn.2
    dsimp only at hall hsent hsent'
    rw [hsent, hsent', hbefore] at hall
    exact List.append_cancel_left hall
  obtain ⟨hnext, harrive⟩ := feedAll_recut hcut hheard bs
  rw [hlive, hlive', ← hsame]
  obtain ⟨hval, hafter⟩ := halike (hconn.arrive harrive)
  exact ⟨hval, hafter, hnext⟩

/-- A session of such calls returns the same, sends the same and leaves the server the same,
however the server's answers are cut. -/
theorem session_recut (past : Nat → UInt8) (sock : Int) {calls : List ApiCall}
    (hcalls : ∀ call ∈ calls, call.ReadsAll) (hcut : Recut R server server') {c c' : Conn}
    {st : Bytes × σ} {st' : Bytes × τ} (hconn : c.SameStream c') (hheard : HeardAlike R st st') :
    let r := (session past sock calls).run (liveHandle server sock) (c, st)
    let r' := (session past sock calls).run (liveHandle server' sock) (c', st')
    r.1 = r'.1 ∧ r.2.1.SameStream r'.2.1 ∧ HeardAlike R r.2.2 r'.2.2 := by
  induction calls generalizing c c' st st' with
  | nil => exact ⟨rfl, hconn, hheard⟩
  | cons call calls ih =>
      obtain ⟨hval, hconn₁, hheard₁⟩ := run_live_recut (call.phases_prog past sock)
        (ApiCall.runsAlike past (hcalls call List.mem_cons_self)) hcut hconn hheard
      obtain ⟨hvals, hconn', hheard'⟩ :=
        ih (fun c hc => hcalls c (List.mem_cons_of_mem call hc)) hconn₁ hheard₁
      rw [run_session_cons, run_session_cons]
      exact ⟨congrArg₂ List.cons hval hvals, hconn', hheard'⟩

end Sessions

/-- Every byte is a piece of its own. -/
def oneByOne (bs : Bytes) : List (Arrival UInt8) := bs.map fun b => .piece b []

theorem sameElems_oneByOne {inc : List (Arrival UInt8)} (hclean : Clean inc) :
    SameElems inc (oneByOne (elems inc)) := by
  refine ⟨hclean, fun hmem => ?_, ?_⟩
  · obtain ⟨b, _, heq⟩ := List.mem_map.mp hmem
    cases heq
  · generalize elems inc = bs
    induction bs with
    | nil => rfl
    | cons b bs ih => exact congrArg (b :: ·) ih

/-- The server with a workspace, on a network that brings its answers byte by byte. -/
def answerSlowly (ws : Workspace) (request : Bytes) : Workspace × List (Arrival UInt8) :=
  ((answerText ws request).1, oneByOne (elems (answerText ws request).2))

theorem clean_answerText (ws : Workspace) (request : Bytes) :
    Clean (answerText ws request).2 := by
  have htwo : ∀ reply, Clean (inTwoPieces reply) := fun reply => clean_nil.pushBack.pushBack
  unfold answerText
  split
  · split
    · exact htwo (bareReply respOk)
    · exact htwo (bareReply respErr)
  · split
    · rename_i text _
      split
      · exact htwo (bareReply respOk)
      · exact htwo (replyOf (evaluateText ws text).2)
    · exact htwo (bareReply respErr)

/-- The logical that is set comes back, as it does when the answers come in two pieces. -/
theorem session_recut_slowly :
    ((session (fun _ => 0) 3 [.ask (.setBool nameX true), .ask (.getBool (some nameX) false)]).run
        (liveHandle answerSlowly 3) (Conn.fresh [], [], fun _ => none)).1 =
      [.ask (.done .ok), .ask (.logical .ok true)] := by
  have hcut : Recut Eq answerText answerSlowly := by
    rintro ws _ rfl request
    exact ⟨rfl, sameElems_oneByOne (clean_answerText ws request)⟩
  have hcalls : ∀ call ∈ [ApiCall.ask (.setBool nameX true), .ask (.getBool (some nameX) false)],
      call.ReadsAll := by
    simp only [List.mem_cons, List.not_mem_nil, or_false, forall_eq_or_imp, forall_eq,
      ApiCall.ReadsAll, and_self]
  have hconn : (Conn.fresh []).SameStream (Conn.fresh []) :=
    ⟨⟨rfl, rfl, clean_nil, clean_nil, rfl⟩, rfl⟩
  have hheard : HeardAlike Eq (([], fun _ => none) : Bytes × Workspace) ([], fun _ => none) :=
    ⟨rfl, rfl⟩
  obtain ⟨hval, _⟩ := session_recut (fun _ => 0) 3 hcalls hcut hconn hheard
  rw [← hval]
  rfl

end RserveClient
