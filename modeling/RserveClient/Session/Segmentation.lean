import RserveClient.Encoding.CanonicalReply

/-!
# How the bytes of a reply are cut into reads

The typed getters on two streams that bring the same bytes in different pieces.
Everything that goes through `get_buf_from_sock` is blind to the pieces; the
two type words and the value of a scalar are taken by a single `read` each.
-/

namespace RserveClient

open Interaction Arrivals

/-- Two open connections on which the same bytes come, in whatever pieces. -/
structure Conn.SameBytes (c c' : Conn) : Prop where
  isOpen : c.isOpen = true
  isOpen' : c'.isOpen = true
  inc : SameElems c.inc c'.inc

theorem Conn.SameBytes.skip {c c' : Conn} {n : Nat} (h : c.SameBytes c')
    (hn : n ≤ (avail c.inc).length) : (c.skip n).SameBytes (c'.skip n) :=
  ⟨h.isOpen, h.isOpen', h.inc.skip hn⟩

section Repeated

variable {σ : Type}

/-- The body does not tell connections apart on which the same bytes come. -/
abbrev BlindToCuts {α : Type} (p : Body σ α) : Prop :=
  Proc.Respects Conn.handle Conn.SameBytes p

theorem run_getBufFromSock_same (sock buflen : Int) {c c' : Conn} (h : c.SameBytes c') :
    (Prog.run Conn.handle (getBufFromSock sock false buflen) c).1 =
        (Prog.run Conn.handle (getBufFromSock sock false buflen) c').1 ∧
      (Prog.run Conn.handle (getBufFromSock sock false buflen) c).2.SameBytes
        (Prog.run Conn.handle (getBufFromSock sock false buflen) c').2 := by
  by_cases hpos : 0 ≤ sock ∧ 0 < buflen
  · obtain ⟨n, rfl⟩ := Int.eq_ofNat_of_zero_le (Int.le_of_lt hpos.2)
    have hn : 0 < n := by omega
    obtain ⟨hstop, hgot, hrest⟩ := h.inc.readAll n
    rw [run_getBufFromSock hpos.1 hn h.isOpen, run_getBufFromSock hpos.1 hn h.isOpen']
    refine ⟨?_, h.isOpen, h.isOpen', hrest⟩
    simp only [recvOf, hstop, hgot]
  · -- refused, or nothing is asked for
    simp only [getBufFromSock, Bool.false_eq_true, if_false]
    split_ifs with hsock hneg hzero
    · exact ⟨rfl, h⟩
    · exact ⟨rfl, h⟩
    · exact ⟨rfl, h⟩
    · omega

theorem blind_cBye (status : Status) : BlindToCuts (cBye status : Body σ Unit) := by
  cases status with
  | ok => exact Proc.respects_pure ()
  | bad why => exact Proc.respects_exit why

theorem blind_recvBuf (sock buflen : Int) : BlindToCuts (recvBuf sock buflen : Body σ Bytes) :=
  (Proc.respects_lift fun _ _ h => run_getBufFromSock_same sock buflen h).bind fun r =>
    (blind_cBye r.status).bind fun _ => Proc.respects_pure r.got

theorem blind_readHdr (sock : Int) : BlindToCuts (readHdr sock : Body σ Phdr) :=
  (blind_recvBuf sock hdrLen).bind fun buf => Proc.respects_pure (Phdr.ofBytes buf)

theorem blind_recvCountWord (sock : Int) (q : QType) (numLeftToRead : Int) :
    BlindToCuts (recvCountWord sock q numLeftToRead : Body σ Int) := by
  unfold recvCountWord
  split
  · exact (blind_recvBuf sock 4).bind fun _ => Proc.respects_pure _
  · exact Proc.respects_pure numLeftToRead

theorem blind_recvElements (sock : Int) (q : QType) (numLeftToRead : Int) :
    BlindToCuts (recvElements sock q numLeftToRead) := by
  unfold recvElements
  apply Proc.Respects.bind (Proc.respects_update _)
  intro _
  apply Proc.Respects.bind (Proc.respects_exitIf _ _)
  intro _
  exact (blind_recvBuf sock _).bind fun _ => Proc.respects_update _

end Repeated

/-- The bytes of the two type words that their read meets. -/
def wordsMet (inc : List (Arrival UInt8)) : Nat := min 8 (front (skip hdrLen inc)).length

/-- Where the final read of a scalar meets any byte of it, it meets all of them. -/
def scalarWhole (q : QType) (inc : List (Arrival UInt8)) : Prop :=
  scalarAccepted q inc → q.width ≤ (front (skip 24 inc)).length

instance (q : QType) (inc : List (Arrival UInt8)) : Decidable (scalarWhole q inc) :=
  inferInstanceAs (Decidable (_ → _))

theorem skip_short {n : Nat} {inc : List (Arrival UInt8)} (hclean : Clean inc)
    (hshort : (avail inc).length < n) : skip n inc = [] := by
  rw [skip, readAll_short hshort]
  exact hclean.afterFault_eq

theorem headArrives_iff {inc : List (Arrival UInt8)} (hclean : Clean inc) :
    headArrives inc ↔ wordsMet inc = 8 := by
  rw [headArrives, wordsMet]
  constructor
  · rintro ⟨_, h8⟩
    omega
  · intro hwords
    refine ⟨Nat.le_of_not_lt fun hshort => ?_, by omega⟩
    rw [skip_short hclean hshort] at hwords
    cases hwords

/-- Their read meets nothing just where the stream ends with the header. -/
theorem wordsMet_eq_zero_iff {inc : List (Arrival UInt8)} (hclean : Clean inc) :
    wordsMet inc = 0 ↔ (elems inc).length ≤ 16 := by
  have hdr : hdrLen = 16 := rfl
  have hlen := congrArg List.length hclean.avail_eq
  have hzero : wordsMet inc = 0 ↔ (front (skip hdrLen inc)).length = 0 := by
    rw [wordsMet]
    omega
  rw [hzero]
  rcases Nat.lt_or_ge (avail inc).length hdrLen with hshort | hlong
  · rw [skip_short hclean hshort]
    exact ⟨fun _ => by omega, fun _ => rfl⟩
  · rw [hclean.skip.front_eq_nil_iff, elems_skip hlong, List.drop_eq_nil_iff]

section Head

variable {σ : Type} {sock : Int} {c c' : Conn}

/-- A single read of the same size in front brings the same. -/
theorem sysRead_alike (h : c.SameBytes c') (sock : Int) {count : Nat} (hpos : 0 < count)
    (hfront : min count (front c.inc).length = min count (front c'.inc).length) (s : σ) :
    (execOn (Proc.lift (sysRead sock count)) s c).Alike Conn.SameBytes
      (execOn (Proc.lift (sysRead sock count)) s c') := by
  obtain ⟨hgot, hrest⟩ := h.inc.read hpos hfront
  simp only [execOn, Proc.exec_lift, run_sysRead, Conn.read_open h.isOpen,
    Conn.read_open h.isOpen', hgot]
  exact ⟨rfl, rfl, h.isOpen, h.isOpen', hrest⟩

/-- The same pieces of the type words lead to the same check of them. -/
theorem recvVecHead_alike (hsock : 0 ≤ sock) (h : c.SameBytes c')
    (hwords : wordsMet c.inc = wordsMet c'.inc) (xt : Nat) (s : σ) :
    (execOn (recvVecHead sock xt) s c).Alike Conn.SameBytes
      (execOn (recvVecHead sock xt) s c') := by
  rw [execOn, execOn, recvVecHead, Proc.exec_bind, Proc.exec_bind]
  apply (blind_readHdr sock s c c' h).andThen
  intro ph hok
  have hlong : hdrLen ≤ (avail c.inc).length := by
    by_contra hshort
    have hstop := exec_readHdr_short hsock h.isOpen (Nat.lt_of_not_le hshort) s
    rw [execOn] at hstop
    rw [hstop] at hok
    cases hok
  have hhdr := exec_readHdr hsock h.isOpen hlong s
  have hhdr' := exec_readHdr hsock h.isOpen' (h.inc.avail ▸ hlong) s
  rw [execOn] at hhdr hhdr'
  rw [hhdr, hhdr']
  have hread := sysRead_alike (h.skip hlong) sock (by decide : 0 < 8) hwords s
  apply Proc.exec_bind_alike
  · rw [readOnce]
    apply Proc.exec_bind_alike hread
    intro got
    cases got with
    | none => exact Proc.respects_exit Why.fault
    | some buf =>
        exact (Proc.respects_exitIf _ _).bind fun _ =>
          (Proc.respects_exitIf _ _).bind fun _ => Proc.respects_pure buf
  · intro hdr
    exact (Proc.respects_exitIf _ _).bind fun _ => (Proc.respects_exitIf _ _).bind fun _ =>
      (Proc.respects_exitIf _ _).bind fun _ => Proc.respects_pure _

end Head

section Replies

variable {sock : Int} {c c' : Conn} {q : QType}

theorem getVecReply_alike (hsock : 0 ≤ sock) (h : c.SameBytes c')
    (hwords : wordsMet c.inc = wordsMet c'.inc) (v : VecFrame) :
    (execOn (getVecReply sock q) v c).Alike Conn.SameBytes
      (execOn (getVecReply sock q) v c') := by
  apply Proc.exec_bind_alike (recvVecHead_alike hsock h hwords q.xt v)
  intro numLeftToRead
  exact (blind_recvCountWord sock q numLeftToRead).bind fun n => blind_recvElements sock q n

theorem recvScalar_alike (h : c.SameBytes c') (hq : q ≠ .SC)
    (hfront : min q.width (front c.inc).length = min q.width (front c'.inc).length) (v : Bytes) :
    (execOn (recvScalar q sock) v c).Alike Conn.SameBytes (execOn (recvScalar q sock) v c') := by
  rw [recvScalar]
  apply Proc.exec_bind_alike (sysRead_alike h sock (QType.width_pos hq) hfront v)
  intro got
  cases got with
  | none => exact Proc.respects_exit Why.fault
  | some buf => exact (Proc.respects_update _).bind fun _ => Proc.respects_exitIf _ _

theorem replyHeadAccepted_same {xt : Nat} {inc inc' : List (Arrival UInt8)}
    (h : SameElems inc inc') : replyHeadAccepted xt inc ↔ replyHeadAccepted xt inc' := by
  rw [replyHeadAccepted, replyHdr, h.avail]
  rfl

theorem xtLen_same {inc inc' : List (Arrival UInt8)} (h : SameElems inc inc') :
    xtLen inc = xtLen inc' := by
  rw [xtLen, h.avail]
  rfl

/-- The final reads of an accepted reply meet the whole value, or there is none of it. -/
theorem valueMet_eq {inc inc' : List (Arrival UInt8)} (h : SameElems inc inc')
    (hhead : headArrives inc) (hhead' : headArrives inc') (hgood : replyHeadAccepted q.xt inc)
    (hone : xtLen inc / q.width = 1) (hwhole : scalarWhole q inc)
    (hwhole' : scalarWhole q inc') :
    min q.width (front (skip 24 inc)).length = min q.width (front (skip 24 inc')).length := by
  have hrest := h.skip hhead.le_length
  rcases Nat.eq_zero_or_pos (front (skip 24 inc)).length with hnone | hsome
  · have hempty := hrest.clean.front_eq_nil_iff.mp hnone
    rw [hnone, hrest.clean'.front_eq_nil_iff.mpr (hrest.elems.symm.trans hempty)]
  · have hsome' : 0 < (front (skip 24 inc')).length := by
      apply Nat.pos_of_ne_zero
      intro hnone
      have hempty := hrest.clean'.front_eq_nil_iff.mp hnone
      have hzero := hrest.clean.front_eq_nil_iff.mpr (hrest.elems.trans hempty)
      omega
    have hacc : scalarAccepted q inc := ⟨hhead, hgood, hone, hsome⟩
    have hacc' : scalarAccepted q inc' :=
      ⟨hhead', (replyHeadAccepted_same h).mp hgood, xtLen_same h ▸ hone, hsome'⟩
    rw [Nat.min_eq_left (hwhole hacc), Nat.min_eq_left (hwhole' hacc')]

theorem getScalarReply_alike (hsock : 0 ≤ sock) (h : c.SameBytes c') (hq : q ≠ .SC)
    (hwords : wordsMet c.inc = wordsMet c'.inc) (hwhole : scalarWhole q c.inc)
    (hwhole' : scalarWhole q c'.inc) (v : Bytes) :
    (execOn (getScalarReply q sock) v c).Alike Conn.SameBytes
      (execOn (getScalarReply q sock) v c') := by
  have hrecv := recvVecHead_alike hsock h hwords q.xt v
  by_cases hhead : headArrives c.inc
  · have hhead' : headArrives c'.inc := by
      rw [headArrives_iff h.inc.clean', ← hwords, ← headArrives_iff h.inc.clean]
      exact hhead
    have hskip := h.skip hhead.le_length
    rw [exec_getScalarReply hsock h.isOpen hhead, exec_getScalarReply hsock h.isOpen' hhead',
      ← xtLen_same h.inc]
    by_cases hgood : replyHeadAccepted q.xt c.inc
    swap
    · rw [if_pos hgood, if_pos (mt (replyHeadAccepted_same h.inc).mpr hgood)]
      exact ⟨rfl, rfl, hskip⟩
    rw [if_neg (not_not_intro hgood),
      if_neg (not_not_intro ((replyHeadAccepted_same h.inc).mp hgood))]
    by_cases hone : xtLen c.inc / q.width = 1
    · rw [if_neg (not_not_intro hone), if_neg (not_not_intro hone)]
      exact recvScalar_alike hskip hq
        (valueMet_eq h.inc hhead hhead' hgood hone hwhole hwhole') v
    · rw [if_pos hone, if_pos hone]
      exact ⟨rfl, rfl, hskip⟩
  · obtain ⟨why, inc', hstop, _⟩ := exec_recvVecHead_transport (s := v) hsock h.isOpen hhead q.xt
    rw [execOn, execOn, getScalarReply, Proc.exec_bind, Proc.exec_bind]
    apply hrecv.andThen
    intro a hok
    rw [hstop] at hok
    cases hok

end Replies

/-- No program puts bytes back into the stream. -/
theorem length_elems_run_le {α : Type} (p : SysProg α) (c : Conn) :
    (elems (Prog.run Conn.handle p c).2.inc).length ≤ (elems c.inc).length := by
  refine Prog.run_le (fun c : Conn => (elems c.inc).length) ?_ p c
  intro op c
  cases op with
  | send sock buf =>
      simp only [Conn.handle, Conn.send]
      split_ifs
      · split <;> exact Nat.le_refl _
      · exact Nat.le_refl _
  | read sock count =>
      simp only [Conn.handle, Conn.read]
      split_ifs
      · exact length_elems_read_le count c.inc
      · exact Nat.le_refl _
  | close sock =>
      simp only [Conn.handle, Conn.close]
      split_ifs <;> exact Nat.le_refl _

section Taken

variable {σ : Type} {sock : Int} {c c' : Conn} (xt : Nat)

/-- The connection after the type words have been read and checked is where the read left
it. -/
theorem world_readOnce (sock : Int) (count : Nat) (s : σ) (c : Conn) :
    (execOn (readOnce sock count) s c).world = (c.read count).2 := by
  rw [execOn, readOnce, Proc.exec_bind, Proc.exec_lift, Final.andThen_ok, run_sysRead]
  cases (c.read count).1 with
  | none => rfl
  | some buf =>
      dsimp only
      by_cases hempty : buf.length = 0
      · rw [Proc.exec_exitIf_pos hempty]
      · rw [Proc.exec_exitIf_neg hempty]
        by_cases hcount : buf.length = count
        · rw [Proc.exec_exitIf_neg (not_not_intro hcount)]
          rfl
        · rw [Proc.exec_exitIf_pos hcount]

/-- Type words that do not come in one piece end the reply where their read ends. -/
theorem consumed_cut (hsock : 0 ≤ sock) (hopen : c.isOpen = true) (hclean : Clean c.inc)
    (hcut : ¬ headArrives c.inc) (rest : Int → Body σ Unit) (s : σ) :
    consumed c.inc (execOn (recvVecHead sock xt >>= rest) s c).world.inc =
      if (elems c.inc).length < 16 then (elems c.inc).length else 16 + wordsMet c.inc := by
  have hdr : hdrLen = 16 := rfl
  have hlen := congrArg List.length hclean.avail_eq
  have hworld : (execOn (recvVecHead sock xt >>= rest) s c).world =
      (execOn (recvVecHead sock xt) s c).world := by
    obtain ⟨why, inc', hstop, _⟩ := exec_recvVecHead_transport (s := s) hsock hopen hcut xt
    rw [hstop, execOn, Proc.exec_bind_error hstop]
  rw [hworld]
  rcases Nat.lt_or_ge (avail c.inc).length hdrLen with hshort | hlong
  · have hstop := exec_readHdr_short hsock hopen hshort s
    rw [if_pos (by omega), execOn, recvVecHead, Proc.exec_bind_error hstop, consumed]
    change (elems c.inc).length - (elems (afterFault c.inc)).length = _
    rw [hclean.afterFault_eq]
    rfl
  · have hread := length_elems_read (k := 8) (hclean.skip (n := hdrLen))
    obtain ⟨why, inc', hstop, _⟩ := exec_readOnce_short (c := c.skip hdrLen) hopen
      (Nat.lt_of_not_le fun h8 => hcut ⟨hlong, h8⟩) sock s
    have hafter := world_readOnce sock 8 s (c.skip hdrLen)
    rw [hstop, Conn.read_open (by exact hopen)] at hafter
    have hinc : inc' = (read 8 (skip hdrLen c.inc)).2 := congrArg Conn.inc hafter
    rw [elems_skip hlong, List.length_drop, ← hinc] at hread
    rw [if_neg (by omega), execOn, recvVecHead,
      Proc.exec_bind_ok (exec_readHdr hsock hopen hlong s), Proc.exec_bind_error hstop, consumed,
      wordsMet]
    change (elems c.inc).length - (elems inc').length = _
    omega

/-- Type words that do are passed, whatever comes after. -/
theorem le_consumed (hsock : 0 ≤ sock) (hopen : c.isOpen = true) (hhead : headArrives c.inc)
    (rest : Int → Body σ Unit) (s : σ) :
    24 ≤ consumed c.inc (execOn (recvVecHead sock xt >>= rest) s c).world.inc := by
  have hrecv := exec_recvVecHead (s := s) hsock hopen hhead xt
  have hle := length_avail_le c.inc
  have h24 := hhead.le_length
  have hskip : (elems (c.skip 24).inc).length = (elems c.inc).length - 24 := by
    rw [Conn.inc_skip, elems_skip h24, List.length_drop]
  rw [consumed]
  by_cases hgood : replyHeadAccepted xt c.inc
  · rw [if_pos hgood] at hrecv
    have hrest := length_elems_run_le (rest (xtLen c.inc) s) (c.skip 24)
    rw [execOn, Proc.exec_bind_ok hrecv]
    change 24 ≤ _ - (elems (Prog.run Conn.handle (rest (xtLen c.inc) s) (c.skip 24)).2.inc).length
    omega
  · rw [if_neg hgood] at hrecv
    rw [execOn, Proc.exec_bind_error hrecv]
    change 24 ≤ _ - (elems (c.skip 24).inc).length
    omega

/-- So the bytes taken tell how the type words were cut. -/
theorem wordsMet_eq_of_consumed (hsock : 0 ≤ sock) (h : c.SameBytes c')
    (rest : Int → Body σ Unit) (s : σ)
    (htaken : consumed c.inc (execOn (recvVecHead sock xt >>= rest) s c).world.inc =
      consumed c'.inc (execOn (recvVecHead sock xt >>= rest) s c').world.inc) :
    wordsMet c.inc = wordsMet c'.inc := by
  have hzero := wordsMet_eq_zero_iff h.inc.clean
  have hzero' := wordsMet_eq_zero_iff h.inc.clean'
  have hlen := congrArg List.length h.inc.elems
  have h8 : wordsMet c.inc ≤ 8 := Nat.min_le_left _ _
  have h8' : wordsMet c'.inc ≤ 8 := Nat.min_le_left _ _
  have hiff := headArrives_iff h.inc.clean
  have hiff' := headArrives_iff h.inc.clean'
  by_cases hhead : headArrives c.inc
  · have hle := le_consumed xt hsock h.isOpen hhead rest s
    by_cases hhead' : headArrives c'.inc
    · rw [hiff.mp hhead, hiff'.mp hhead']
    · have hcut' := consumed_cut xt hsock h.isOpen' h.inc.clean' hhead' rest s
      have hne := mt hiff'.mpr hhead'
      split_ifs at hcut' <;> omega
  · have hcut := consumed_cut xt hsock h.isOpen h.inc.clean hhead rest s
    have hne := mt hiff.mpr hhead
    by_cases hhead' : headArrives c'.inc
    · have hle' := le_consumed xt hsock h.isOpen' hhead' rest s
      split_ifs at hcut <;> omega
    · have hcut' := consumed_cut xt hsock h.isOpen' h.inc.clean' hhead' rest s
      split_ifs at hcut hcut' <;> omega

end Taken

/-- What a call shows of a run: its status, the caller's memory, and the number of bytes
it has taken from the stream. -/
structure Observed where
  code : Int
  output : Output
  taken : Nat
  deriving DecidableEq

def observe (sock : Int) (call : Call) (c : Conn) (inc : List (Arrival UInt8)) : Observed :=
  let run := Prog.run Conn.handle (call.prog sock) (c.withInc inc)
  ⟨run.1.status.code, run.1.output, consumed inc run.2.inc⟩

namespace Call

def isTypedGetter : Call → Prop
  | getVec _ _ _ | getF8 _ _ | getI4 _ _ => True
  | _ => False

/-- All bytes of the scalar have been stored where status 0 reports it. -/
def scalarFilled (q : QType) (dval : Bytes) (inc : List (Arrival UInt8)) (o : Observed) : Prop :=
  o.taken = 24 + q.width ∧
    o.output = .scalar (overwrite dval (((elems inc).drop 24).take q.width))

/-- Status 0 comes with all bytes of the value. -/
def Filled (call : Call) (inc : List (Arrival UInt8)) (o : Observed) : Prop :=
  o.code = 0 →
    match call with
    | getVec _ qtype _ => ∃ q data, ∃ n : Nat, getVecType qtype = .ok q ∧
        o.output = .vec ⟨some data, n⟩ ∧ data.length = n * q.width
    | getF8 _ dval => scalarFilled .F8 dval inc o
    | getI4 _ dval => scalarFilled .I4 dval inc o
    | _ => True

/-- The getter finds no part of a scalar where it does not find the whole. -/
def valueWhole : Call → List (Arrival UInt8) → Prop
  | getF8 _ _, inc => scalarWhole .F8 inc
  | getI4 _ _, inc => scalarWhole .I4 inc
  | _, _ => True

end Call

/-- Two ways of cutting the stream show the same run of the call, and in both of them
status 0 comes with all bytes of the value. -/
def SegmentationImmaterial (sock : Int) (call : Call) (c : Conn)
    (inc inc' : List (Arrival UInt8)) : Prop :=
  observe sock call c inc = observe sock call c inc' ∧
    call.Filled inc (observe sock call c inc) ∧ call.Filled inc' (observe sock call c inc')

/-- The single reads meet the same: as much of the type words in both ways, and never a
part of a scalar only. -/
def CutsImmaterial (call : Call) (inc inc' : List (Arrival UInt8)) : Prop :=
  wordsMet inc = wordsMet inc' ∧ call.valueWhole inc ∧ call.valueWhole inc'

section TwoRuns

variable {sock : Int} {call : Call} {c : Conn} {bs : Bytes} {inc inc' : List (Arrival UInt8)}

/-- The reply half of a typed getter checks the head, and sees the cuts of a scalar only
after that. -/
theorem reply_of_typedGetter (hsock : 0 ≤ sock) (hget : call.isTypedGetter)
    (hreq : call.request sock = some bs) :
    ∃ (σ : Type) (s : σ) (xt : Nat) (rest : Int → Body σ Unit) (bye : Except Why Unit → σ → Ret),
      call.reply sock = Proc.finish (recvVecHead sock xt >>= rest) s bye ∧
        ∀ {c c' : Conn}, c.SameBytes c' → wordsMet c.inc = wordsMet c'.inc →
          call.valueWhole c.inc → call.valueWhole c'.inc →
          (execOn (recvVecHead sock xt >>= rest) s c).Alike Conn.SameBytes
            (execOn (recvVecHead sock xt >>= rest) s c') := by
  cases call with
  | getVec name qtype out =>
      obtain ⟨_, q, _, hq, _, _⟩ := getVecRequest_eq_some hreq
      refine ⟨VecFrame, .start out, q.xt,
        fun n => recvCountWord sock q n >>= recvElements sock q,
        fun exit v => ⟨(getVecBye exit v).1, .vec (getVecBye exit v).2⟩, ?_, ?_⟩
      · simp only [Call.reply, hq]
        rfl
      · intro c c' h hwords _ _
        exact getVecReply_alike hsock h hwords _
  | getF8 name dval =>
      refine ⟨Bytes, dval, QType.F8.xt, _, fun exit v => ⟨Status.ofExit exit, .scalar v⟩, rfl, ?_⟩
      intro c c' h hwords hwhole hwhole'
      exact getScalarReply_alike hsock h (by decide) hwords hwhole hwhole' dval
  | getI4 name dval =>
      refine ⟨Bytes, dval, QType.I4.xt, _, fun exit v => ⟨Status.ofExit exit, .scalar v⟩, rfl, ?_⟩
      intro c c' h hwords hwhole hwhole'
      exact getScalarReply_alike hsock h (by decide) hwords hwhole hwhole' dval
  | execStr _ _ _ _ => exact hget.elim
  | getNamedVecF8 _ _ _ _ => exact hget.elim
  | setVec _ _ _ _ _ => exact hget.elim
  | rshutdown => exact hget.elim

/-- A scalar is filled where status 0 means that the final read met all of it. -/
theorem scalarFilled_iff {q : QType} {dval : Bytes} {o : Observed}
    (hclean : Clean inc) (hcode : o.code = 0 ↔ scalarAccepted q inc)
    (hrun : scalarAccepted q inc →
      o.output = .scalar (scalarOut q inc dval) ∧ o.taken = 24 + scalarRead q inc) :
    (o.code = 0 → Call.scalarFilled q dval inc o) ↔ scalarWhole q inc := by
  rw [hcode, scalarWhole]
  apply imp_congr_right
  intro hacc
  obtain ⟨hout, htaken⟩ := hrun hacc
  have hread : scalarRead q inc = min q.width (front (skip 24 inc)).length := rfl
  rw [Call.scalarFilled, htaken]
  constructor
  · rintro ⟨hfull, _⟩
    omega
  · intro hwhole
    have hfull : scalarRead q inc = q.width := by omega
    refine ⟨by rw [hfull], ?_⟩
    rw [hout, scalarOut, hfull, hclean.avail_eq]

/-- The status, the output and the bytes taken after an accepted reply. -/
theorem observe_ok (hsock : 0 ≤ sock) (hc : c.Ready) (hdata : call.HoldsVector)
    (hreq : call.request sock = some bs) (hacc : call.accepts inc) :
    observe sock call c inc =
      ⟨0, call.output inc, consumed inc (skip (call.taken inc) inc)⟩ := by
  have hrun := run_prog_ok (c := c.withInc inc) hsock (hc.withInc inc) hdata hreq hacc
  rw [observe, hrun, Call.inc_after]
  rfl

theorem filled_iff (hsock : 0 ≤ sock) (hc : c.Ready) (hget : call.isTypedGetter)
    (hreq : call.request sock = some bs) (hclean : Clean inc) :
    call.Filled inc (observe sock call c inc) ↔ call.valueWhole inc := by
  have hdata : call.HoldsVector := by
    cases call <;> trivial
  have hcode : (observe sock call c inc).code = 0 ↔ call.accepts inc :=
    (Status.code_eq_zero_iff _).trans
      (status_ok_iff (c := c.withInc inc) hsock (hc.withInc inc) hdata hreq)
  have hrun : call.accepts inc → observe sock call c inc = _ := observe_ok hsock hc hdata hreq
  have hscalar : ∀ q : QType, scalarAccepted q inc →
      consumed inc (skip (24 + scalarRead q inc) inc) = 24 + scalarRead q inc := by
    intro q hacc
    have hle := length_front_le (skip 24 inc)
    have h24 := hacc.1.le_length
    rw [avail_skip h24, List.length_drop] at hle
    apply consumed_skip
    rw [scalarRead]
    omega
  cases call with
  | getVec name qtype out =>
      refine ⟨fun _ => trivial, fun _ hzero => ?_⟩
      obtain ⟨q, hq, hhead, hgood, hcount, hall⟩ := hcode.mp hzero
      refine ⟨q, vecData q inc, q.count (xtLen inc), hq, ?_, ?_⟩
      · rw [hrun (hcode.mp hzero)]
        simp only [Call.output, hq]
      · rw [vecTaken] at hall
        rw [vecData, List.length_take, List.length_drop]
        omega
  | getF8 name dval =>
      apply scalarFilled_iff hclean hcode
      intro hacc
      rw [hrun hacc]
      exact ⟨rfl, hscalar .F8 hacc⟩
  | getI4 name dval =>
      apply scalarFilled_iff hclean hcode
      intro hacc
      rw [hrun hacc]
      exact ⟨rfl, hscalar .I4 hacc⟩
  | execStr _ _ _ _ => exact hget.elim
  | getNamedVecF8 _ _ _ _ => exact hget.elim
  | setVec _ _ _ _ _ => exact hget.elim
  | rshutdown => exact hget.elim

end TwoRuns

/-- The pieces in which a reply comes are immaterial exactly where the reads that are not
repeated meet the same of it. -/
theorem segmentation_immaterial_iff {sock : Int} {call : Call} {c : Conn} {bs : Bytes}
    {inc inc' : List (Arrival UInt8)} (hsock : 0 ≤ sock) (hc : c.Ready)
    (hget : call.isTypedGetter) (hreq : call.request sock = some bs) (hclean : Clean inc)
    (hclean' : Clean inc') (helems : elems inc = elems inc') :
    SegmentationImmaterial sock call c inc inc' ↔ CutsImmaterial call inc inc' := by
  have hdata : call.HoldsVector := by
    cases call <;> trivial
  obtain ⟨σ, s, xt, rest, bye, hreply, halike⟩ := reply_of_typedGetter hsock hget hreq
  have hrun : ∀ inc, Prog.run Conn.handle (call.prog sock) (c.withInc inc) =
      Prog.run Conn.handle (Proc.finish (recvVecHead sock xt >>= rest) s bye)
        ((c.withInc inc).push bs) := by
    intro inc
    rw [run_prog hsock (hc.withInc inc) hdata hreq, hreply]
  have hsame : ((c.withInc inc).push bs).SameBytes ((c.withInc inc').push bs) :=
    ⟨hc.isOpen, hc.isOpen, hclean, hclean', helems⟩
  rw [SegmentationImmaterial, filled_iff hsock hc hget hreq hclean,
    filled_iff hsock hc hget hreq hclean', CutsImmaterial]
  constructor
  · rintro ⟨hobs, hwhole, hwhole'⟩
    refine ⟨?_, hwhole, hwhole'⟩
    have htaken := congrArg Observed.taken hobs
    simp only [observe, hrun, Proc.run_finish] at htaken
    exact wordsMet_eq_of_consumed xt hsock hsame rest s htaken
  · rintro ⟨hwords, hwhole, hwhole'⟩
    obtain ⟨hexit, hvars, hworld⟩ := halike hsame hwords hwhole hwhole'
    have htaken : consumed inc (execOn (recvVecHead sock xt >>= rest) s
          ((c.withInc inc).push bs)).world.inc =
        consumed inc' (execOn (recvVecHead sock xt >>= rest) s
          ((c.withInc inc').push bs)).world.inc := by
      rw [consumed, consumed, helems, hworld.inc.elems]
    refine ⟨?_, hwhole, hwhole'⟩
    simp only [execOn] at hexit hvars htaken
    simp only [observe, hrun, Proc.run_finish, hexit, hvars, htaken]

/-- The reply `1.0`, cut in the middle of the value. -/
def doubleCut : List (Arrival UInt8) :=
  pushBack ((vecReply 0 xtArrayDouble [0, 0, 0, 0, 0, 0, 240, 63]).bytes.take 28)
    (pushBack ((vecReply 0 xtArrayDouble [0, 0, 0, 0, 0, 0, 240, 63]).bytes.drop 28) [])

/-- Read `x` into memory that holds zeros. -/
def getX : Call := .getF8 (some nameX) (List.replicate 8 0)

theorem segmentation_immaterial_iff_double :
    SegmentationImmaterial 3 getX (Conn.fresh []) oneDouble doubleCut ↔
      CutsImmaterial getX oneDouble doubleCut :=
  segmentation_immaterial_iff (by decide) ⟨rfl, rfl⟩ trivial
    (show getX.request 3 = some (requestBytes .eval nameX) by decide)
    (by decide) (by decide) (by decide)

/-- Four of the eight bytes of the value are reported with status 0. -/
theorem segmentation_matters :
    elems doubleCut = elems oneDouble ∧
      observe 3 getX (Conn.fresh []) oneDouble = ⟨0, .scalar [0, 0, 0, 0, 0, 0, 240, 63], 32⟩ ∧
      observe 3 getX (Conn.fresh []) doubleCut = ⟨0, .scalar [0, 0, 0, 0, 0, 0, 0, 0], 28⟩ ∧
      ¬ SegmentationImmaterial 3 getX (Conn.fresh []) oneDouble doubleCut := by
  refine ⟨by decide, by decide, by decide, ?_⟩
  rintro ⟨hobs, _⟩
  exact absurd hobs (by decide)

end RserveClient
