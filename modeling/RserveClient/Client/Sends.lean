import RserveClient.Client.Replies

/-!
# Requests that are cut short

A request goes out in two or four sends, each of which may take all of its
bytes, some of them, or none. The operations give up at the first send that
does not take all.
-/

namespace RserveClient

open Interaction Arrivals

namespace Conn

/-- The next send takes all of `len` bytes. -/
def sendsAll (len : Nat) (c : Conn) : Prop :=
  c.isOpen = true ∧
    match c.outc with
    | [] => True
    | .all :: _ => True
    | .part count :: _ => len ≤ count
    | .fail :: _ => False

instance (len : Nat) (c : Conn) : Decidable (c.sendsAll len) := by
  unfold sendsAll
  split <;> infer_instance

/-- Only what was sent, and the outcomes still to come, differ. -/
structure SentOn (c : Conn) (bs : Bytes) (c' : Conn) : Prop where
  sent : c'.sent = c.sent ++ bs
  inc : c'.inc = c.inc
  isOpen : c'.isOpen = c.isOpen

theorem SentOn.refl (c : Conn) : c.SentOn [] c := ⟨(List.append_nil _).symm, rfl, rfl⟩

theorem SentOn.trans {c c' c'' : Conn} {as bs : Bytes} (h : c.SentOn as c')
    (h' : c'.SentOn bs c'') : c.SentOn (as ++ bs) c'' := by
  refine ⟨?_, h'.inc.trans h.inc, h'.isOpen.trans h.isOpen⟩
  rw [h'.sent, h.sent, List.append_assoc]

/-- A send takes all of its bytes, or returns another number. -/
theorem send_cases (bs : Bytes) (c : Conn) :
    (c.sendsAll bs.length ∧ (c.send bs).1 = bs.length ∧ c.SentOn bs (c.send bs).2) ∨
      (¬ c.sendsAll bs.length ∧ ∃ k, c.SentOn (bs.take k) (c.send bs).2 ∧
        ((c.send bs).1 = -1 ∨ ((c.send bs).1 = k ∧ k < bs.length))) := by
  cases hopen : c.isOpen with
  | false =>
      have hsend : c.send bs = (-1, c) := by simp [send, hopen]
      refine Or.inr ⟨fun hall => ?_, 0, ?_, Or.inl ?_⟩
      · rw [hall.1] at hopen
        cases hopen
      · rw [hsend]
        exact SentOn.refl c
      · rw [hsend]
  | true =>
      cases hout : c.outc with
      | nil =>
          have hsend : c.send bs = ((bs.length : Int), c.push bs) := by simp [send, hopen, hout]
          rw [hsend]
          exact Or.inl ⟨⟨hopen, by rw [hout]; trivial⟩, rfl, ⟨rfl, rfl, rfl⟩⟩
      | cons o os =>
          cases o with
          | all =>
              have hsend : c.send bs = ((bs.length : Int), { c.push bs with outc := os }) := by
                simp [send, hopen, hout]
              rw [hsend]
              exact Or.inl ⟨⟨hopen, by rw [hout]; trivial⟩, rfl, ⟨rfl, rfl, rfl⟩⟩
          | part count =>
              have hsend : c.send bs =
                  (((bs.take count).length : Int), { c.push (bs.take count) with outc := os }) := by
                simp [send, hopen, hout]
              rw [hsend]
              by_cases hle : bs.length ≤ count
              · rw [List.take_of_length_le hle]
                exact Or.inl ⟨⟨hopen, by rw [hout]; exact hle⟩, rfl, ⟨rfl, rfl, rfl⟩⟩
              · have hlt : count < bs.length := Nat.lt_of_not_le hle
                refine Or.inr ⟨fun hall => ?_, count, ⟨rfl, rfl, rfl⟩, Or.inr ⟨?_, hlt⟩⟩
                · have hpart := hall.2
                  rw [hout] at hpart
                  exact hle hpart
                · rw [List.length_take, Nat.min_eq_left hlt.le]
          | fail =>
              have hsend : c.send bs = (-1, { c with outc := os }) := by simp [send, hopen, hout]
              rw [hsend]
              refine Or.inr ⟨fun hall => ?_, 0, ⟨(List.append_nil _).symm, rfl, rfl⟩, Or.inl rfl⟩
              have hfail := hall.2
              rw [hout] at hfail
              exact hfail

/-- Send pieces one after another, up to the first that is not taken whole. -/
def sendPieces : List Bytes → Conn → Bool × Conn
  | [], c => (true, c)
  | piece :: pieces, c =>
      if c.sendsAll piece.length then sendPieces pieces (c.send piece).2
      else (false, (c.send piece).2)

/-- What goes out is the beginning of the pieces, and all of them unless one was cut. -/
theorem sendPieces_sentOn (pieces : List Bytes) (c : Conn) :
    ∃ bs, bs <+: pieces.flatten ∧ c.SentOn bs (c.sendPieces pieces).2 ∧
      ((c.sendPieces pieces).1 = true → bs = pieces.flatten) := by
  induction pieces generalizing c with
  | nil => exact ⟨[], List.prefix_rfl, SentOn.refl c, fun _ => rfl⟩
  | cons piece pieces ih =>
      rw [sendPieces, List.flatten_cons]
      rcases send_cases piece c with ⟨hall, _, hsent⟩ | ⟨hcut, k, hsent, _⟩
      · obtain ⟨bs, hprefix, hrest, hwhole⟩ := ih (c.send piece).2
        rw [if_pos hall]
        refine ⟨piece ++ bs, (List.prefix_append_right_inj piece).mpr hprefix,
          hsent.trans hrest, ?_⟩
        intro hok
        rw [hwhole hok]
      · rw [if_neg hcut]
        refine ⟨piece.take k, ?_, hsent, fun hok => by cases hok⟩
        exact (List.take_prefix k piece).trans (List.prefix_append piece pieces.flatten)

/-- The first piece is taken on an open socket only. -/
theorem isOpen_of_sendPieces {pieces : List Bytes} {c : Conn} (hne : pieces ≠ [])
    (hok : (c.sendPieces pieces).1 = true) : c.isOpen = true := by
  cases pieces with
  | nil => exact absurd rfl hne
  | cons piece pieces =>
      rw [sendPieces] at hok
      by_cases hall : c.sendsAll piece.length
      · exact hall.1
      · rw [if_neg hall] at hok
        cases hok

end Conn

section Pieces

variable {σ : Type}

/-- Go on once all pieces are sent, or leave at the one that was cut. -/
def sentPieces {α : Type} (pieces : List Bytes) (s : σ) (c : Conn)
    (next : Conn → Final Why σ Conn α) : Final Why σ Conn α :=
  if (c.sendPieces pieces).1 then next (c.sendPieces pieces).2
  else ⟨.error .send, s, (c.sendPieces pieces).2⟩

/-- The pieces after the first are sent from where the first has been. -/
theorem sentPieces_cons {α : Type} (piece : Bytes) (pieces : List Bytes) (s : σ) (c : Conn)
    (next : Conn → Final Why σ Conn α) :
    sentPieces (piece :: pieces) s c next =
      sentPieces [piece] s c fun c' => sentPieces pieces s c' next := by
  by_cases hall : c.sendsAll piece.length
  · simp only [sentPieces, Conn.sendPieces, if_pos hall, if_true]
  · simp only [sentPieces, Conn.sendPieces, if_neg hall, Bool.false_eq_true, if_false]

@[simp] theorem andThen_sentPieces {α β : Type} (pieces : List Bytes) (s : σ) (c : Conn)
    (next : Conn → Final Why σ Conn α) (f : α → σ → Conn → Final Why σ Conn β) :
    (sentPieces pieces s c next).andThen f =
      sentPieces pieces s c fun c' => (next c').andThen f := by
  rw [sentPieces, sentPieces, Final.andThen_ite, Final.andThen_error]

/-- The body sends one piece and leaves unless all of it is taken. -/
def SendsPiece (p : Body σ Unit) (piece : Bytes) : Prop :=
  ∀ s c, execOn p s c = sentPieces [piece] s c fun c' => ⟨.ok (), s, c'⟩

theorem SendsPiece.exec_bind {p : Body σ Unit} {piece : Bytes} (hp : SendsPiece p piece)
    {α : Type} (rest : Unit → Body σ α) (s : σ) (c : Conn) :
    execOn (p >>= rest) s c = sentPieces [piece] s c fun c' => execOn (rest ()) s c' := by
  have hfirst := hp s c
  rw [execOn] at hfirst
  rw [execOn, Proc.exec_bind, hfirst, andThen_sentPieces]
  rfl

/-- A send whose count is checked: the check has to tell the whole length from the
counts of a send that was cut. -/
theorem sendsPiece_of_check (sock : Int) {buf : Bytes} {bad : Int → Prop} [DecidablePred bad]
    (hwhole : ¬ bad buf.length) (hfail : bad (-1)) (hcut : ∀ k : Nat, k < buf.length → bad k) :
    SendsPiece (σ := σ) (do
      let numSent ← Proc.lift (sysSend sock buf)
      Proc.exitIf (bad numSent) .send) buf := by
  intro s c
  have hrun : Prog.run Conn.handle (sysSend sock buf) c = ((c.send buf).1, (c.send buf).2) := rfl
  rw [execOn, Proc.exec_lift_bind hrun, Proc.exec_exitIf, sentPieces, Conn.sendPieces]
  rcases Conn.send_cases buf c with ⟨hall, hcount, _⟩ | ⟨hpart, k, _, hcount⟩
  · rw [if_pos hall, hcount, if_neg hwhole]
    rfl
  · have hbad : bad (c.send buf).1 := by
      rcases hcount with hcount | ⟨hcount, hlt⟩
      · rw [hcount]
        exact hfail
      · rw [hcount]
        exact hcut k hlt
    rw [if_neg hpart, if_pos hbad, if_neg Bool.false_ne_true]

theorem sendsPiece_sendBuf (sock : Int) (buf : Bytes) (hlen : buf.length < 2 ^ 63) :
    SendsPiece (σ := σ) (sendBuf sock buf buf.length) buf := by
  apply sendsPiece_of_check sock
  · rw [CInt.toSizeT_natCast (by omega), not_not]
  · rw [CInt.toSizeT]
    omega
  · intro k hk
    rw [CInt.toSizeT_natCast (by omega)]
    omega

theorem exec_sendRequest_pieces (sock : Int) (command : Command) {name : CStr}
    (hmem : 4 + lenName name ≤ ptrdiffMax) (s : σ) (c : Conn) :
    execOn (sendRequest sock command (nameParam name)) s c =
      if requestFits name then
        sentPieces [(requestHdr command (4 + lenName name)).bytes, nameParam name] s c
          fun c' => ⟨.ok (), s, c'⟩
      else ⟨.error .argument, s, c⟩ := by
  by_cases hfits : requestFits name
  · have hhdr : (requestHdr command (4 + lenName name)).bytes.length = hdrLen :=
      Phdr.length_bytes _
    have hsend1 := sendsPiece_sendBuf (σ := σ) sock
      (requestHdr command (4 + lenName name)).bytes (by rw [hhdr]; decide)
    have hsend2 := sendsPiece_sendBuf (σ := σ) sock (nameParam name) (by
      rw [length_nameParam]
      rw [ptrdiffMax] at hmem
      omega)
    rw [hhdr] at hsend1
    rw [length_nameParam] at hsend2
    rw [if_pos hfits, execOn, sendRequest, length_nameParam, mkHdr_eq, if_pos hfits.2,
      Proc.exec_bind_ok (Proc.exec_ofExcept_ok _ _ _ _), sentPieces_cons]
    exact (hsend1.exec_bind _ s c).trans (congrArg _ (funext (hsend2 s)))
  · rw [if_neg hfits]
    exact exec_sendName_refused sock command hmem hfits s c

/-- The four sends of `set_vec`. -/
theorem exec_sendParams_pieces {sock : Int} {name qtype : Option CStr} {data : Option Bytes}
    {n inWidth : UInt32} {p : SetVecParams} {str : CStr} {d : Bytes} {q : QType} {width : Nat}
    (h : Encodes sock name qtype data n inWidth str d q width p)
    (hdata : d.length = n.toNat * width) (s : σ) (c : Conn) :
    execOn (sendParams sock p) s c =
      sentPieces [p.ph.bytes, p.param1, p.hdrParam2, p.elems.take p.cumLen] s c
        fun c' => ⟨.ok (), s, c'⟩ := by
  obtain ⟨hcum, helems⟩ := h.length_elems hdata
  have hmem := h.mem
  have hhdr2 := length_mkHdrParam2 q n.toNat width p.cumLen (lenParam2 q p.cumLen)
  have hcount : q.countLen ≤ 4 := by cases q <;> decide
  rw [← h.hdrParam2_eq] at hhdr2
  have hsend1 := sendsPiece_sendBuf (σ := σ) sock p.ph.bytes
    (by rw [Phdr.length_bytes]; decide)
  have hsend2 := sendsPiece_sendBuf (σ := σ) sock p.param1 (by
    rw [h.param1_eq, length_nameParam]
    rw [ptrdiffMax] at hmem
    omega)
  have hsend3 : SendsPiece (σ := σ) (do
      let numSent ← Proc.lift (sysSend sock p.hdrParam2)
      Proc.exitIf (CInt.toInt (CInt.toSizeT numSent) ≠ p.hdrParam2.length) .send)
      p.hdrParam2 := by
    apply sendsPiece_of_check sock
    · rw [CInt.toSizeT_natCast (by omega), not_not]
      exact CInt.toInt_eq (by omega) (by omega)
    · rw [CInt.toSizeT, CInt.toInt]
      omega
    · intro k hk
      rw [CInt.toSizeT_natCast (by omega), CInt.toInt_eq (by omega) (by omega)]
      omega
  have hsend4 := sendsPiece_sendBuf (σ := σ) sock (p.elems.take p.cumLen) (by omega)
  rw [Phdr.length_bytes] at hsend1
  rw [helems] at hsend4
  -- the check of the third count is part of its piece
  have hthird : ∀ c, execOn (do
      let numSent ← Proc.lift (sysSend sock p.hdrParam2)
      Proc.exitIf (CInt.toInt (CInt.toSizeT numSent) ≠ p.hdrParam2.length) .send
      sendBuf sock (p.elems.take p.cumLen) p.cumLen) s c =
      sentPieces [p.hdrParam2] s c fun c' =>
        execOn (sendBuf sock (p.elems.take p.cumLen) p.cumLen) s c' := by
    intro c
    have hbind := hsend3.exec_bind (fun _ => sendBuf sock (p.elems.take p.cumLen) p.cumLen) s c
    simp only [execOn, Proc.exec_bind, Proc.exec_lift, Final.andThen_ok] at hbind ⊢
    exact hbind
  rw [sentPieces_cons]
  refine (hsend1.exec_bind _ s c).trans (congrArg _ (funext ?_))
  intro c1
  rw [sentPieces_cons]
  refine (hsend2.exec_bind _ s c1).trans (congrArg _ (funext ?_))
  intro c2
  rw [sentPieces_cons]
  exact (hthird c2).trans (congrArg _ (funext (hsend4 s)))

end Pieces

/-- The two sends of a request with one string. -/
def requestPieces (command : Command) (name : CStr) : List Bytes :=
  [(requestHdr command (4 + lenName name)).bytes, nameParam name]

theorem flatten_requestPieces (command : Command) (name : CStr) :
    (requestPieces command name).flatten = requestBytes command name := by
  rw [requestPieces, List.flatten_cons, List.flatten_cons, List.flatten_nil, List.append_nil]
  rfl

section Bodies

variable {sock : Int} {s : CStr} (c : Conn)

theorem exec_sendName_pieces {σ : Type} (sock : Int) (command : Command) (hfits : requestFits s)
    (v : σ) : execOn (sendRequest sock command (nameParam s)) v c =
      sentPieces (requestPieces command s) v c fun c' => ⟨.ok (), v, c'⟩ := by
  rw [exec_sendRequest_pieces sock command hfits.1, if_pos hfits]
  rfl

/-- What follows the two sends runs once both are whole. -/
theorem exec_sendName_bind {σ α : Type} (sock : Int) (command : Command) (hfits : requestFits s)
    (rest : Unit → Body σ α) (v : σ) :
    execOn (sendRequest sock command (nameParam s) >>= rest) v c =
      sentPieces (requestPieces command s) v c fun c' => execOn (rest ()) v c' := by
  have hsend := exec_sendName_pieces c sock command hfits v
  rw [execOn] at hsend
  rw [execOn, Proc.exec_bind, hsend, andThen_sentPieces]
  rfl

theorem exec_execStrBody_pieces (hsock : 0 ≤ sock) (hfits : requestFits s) (ptrOutput : Bool)
    (xt : Int) (v : OutVars) :
    execOn (execStrBody sock (some s) ptrOutput xt) v c =
      sentPieces (requestPieces (evalCommand ptrOutput) s) v c
        fun c' => execOn (execStrReply sock ptrOutput xt) v c' := by
  rw [execOn, execStrBody, Proc.exec_exitIf_neg (Int.not_lt.mpr hsock),
    Proc.exec_exitIf_neg (by simp), mkDtString_some, if_neg (Nat.not_lt.mpr hfits.1),
    Proc.exec_bind_ok (Proc.exec_ofExcept_ok _ _ _ _)]
  exact exec_sendName_bind c sock _ hfits _ v

theorem exec_getVecBody_pieces (sock : Int) {qtype : Option CStr} {q : QType}
    (hq : getVecType qtype = .ok q) (hfits : requestFits s) (v : VecFrame) :
    execOn (getVecBody sock (some s) qtype) v c =
      sentPieces (requestPieces .eval s) v.allocParam1 c
        fun c' => execOn (getVecReply sock q) v.allocParam1.freeParam1 c' := by
  rw [execOn, getVecBody, mkDtString_some, if_neg (Nat.not_lt.mpr hfits.1),
    Proc.exec_bind_ok (Proc.exec_ofExcept_ok _ _ _ _), Proc.exec_update_bind,
    Proc.exec_exitIf_neg (by simp), hq, Proc.exec_bind_ok (Proc.exec_ofExcept_ok _ _ _ _)]
  exact exec_sendName_bind c sock .eval hfits _ v.allocParam1

theorem exec_getScalarBody_pieces (sock : Int) (q : QType) (hfits : requestFits s) (v : Bytes) :
    execOn (getScalarBody q sock (some s)) v c =
      sentPieces (requestPieces .eval s) v c fun c' => execOn (getScalarReply q sock) v c' := by
  rw [execOn, getScalarBody, mkDtString_some, if_neg (Nat.not_lt.mpr hfits.1),
    Proc.exec_bind_ok (Proc.exec_ofExcept_ok _ _ _ _)]
  exact exec_sendName_bind c sock .eval hfits _ v

theorem exec_getNamedVecF8Body_pieces (sock : Int) (szKeyBlob szVals : UInt32)
    (hfits : requestFits s) (v : NamedVars) :
    execOn (getNamedVecF8Body sock (some s) szKeyBlob szVals) v c =
      sentPieces (requestPieces .eval s) (v.cleared szKeyBlob szVals) c
        fun c' => execOn (getNamedVecReply sock szKeyBlob szVals)
          (v.cleared szKeyBlob szVals) c' := by
  rw [execOn, getNamedVecF8Body, mkDtString_some, if_neg (Nat.not_lt.mpr hfits.1),
    Proc.exec_bind_ok (Proc.exec_ofExcept_ok _ _ _ _), Proc.exec_update_bind]
  exact exec_sendName_bind c sock .eval hfits _ _

theorem exec_setVecBody_pieces {σ : Type} {name qtype : Option CStr} {data : Option Bytes}
    {n inWidth : UInt32} {p : SetVecParams} {d : Bytes} {q : QType} {width : Nat}
    (h : Encodes sock name qtype data n inWidth s d q width p)
    (hdata : d.length = n.toNat * width) (v : σ) :
    execOn (setVecBody sock name qtype data n inWidth) v c =
      sentPieces [p.ph.bytes, p.param1, p.hdrParam2, p.elems.take p.cumLen] v c
        fun c' => execOn (setVecReply sock) v c' := by
  have hsend := exec_sendParams_pieces h hdata v c
  rw [execOn] at hsend
  rw [execOn, setVecBody, h.setVecParams_eq, Proc.exec_bind_ok (Proc.exec_ofExcept_ok _ _ _ _),
    Proc.exec_bind, hsend, andThen_sentPieces]
  rfl

theorem exec_rshutdownBody_pieces {σ : Type} (sock : Int) (v : σ) :
    execOn (rshutdownBody sock) v c =
      sentPieces [shutdownRequest] v c fun c' => execOn (rshutdownReply sock) v c' := by
  have hsend := sendsPiece_sendBuf (σ := σ) sock shutdownRequest (by decide)
  exact hsend.exec_bind (fun _ => rshutdownReply sock) v c

end Bodies

section Requested

variable {sock : Int} {name : Option CStr} {c c' : Conn}

/-- The request of `name` has gone out whole, and the reply is read from `c'`. -/
structure Requested (sock : Int) (name : Option CStr) (c c' : Conn) : Prop where
  sock_nonneg : 0 ≤ sock
  sent : ∃ s, name = some s ∧ requestFits s ∧ c.sendPieces (requestPieces .eval s) = (true, c')

theorem Requested.isOpen_inc (h : Requested sock name c c') :
    c'.isOpen = true ∧ c'.inc = c.inc := by
  obtain ⟨s, _, _, hsent⟩ := h.sent
  obtain ⟨bs, _, hon, _⟩ := Conn.sendPieces_sentOn (requestPieces .eval s) c
  rw [hsent] at hon
  refine ⟨?_, hon.inc⟩
  rw [hon.isOpen]
  exact Conn.isOpen_of_sendPieces (List.cons_ne_nil _ _) (congrArg Prod.fst hsent)

theorem Requested.isOpen (h : Requested sock name c c') : c'.isOpen = true := h.isOpen_inc.1

theorem Requested.exec_getScalarBody (h : Requested sock name c c') (q : QType)
    (v : Bytes) :
    execOn (getScalarBody q sock name) v c = execOn (getScalarReply q sock) v c' := by
  obtain ⟨s, rfl, hfits, hsent⟩ := h.sent
  rw [exec_getScalarBody_pieces c sock q hfits, sentPieces, hsent, if_pos rfl]

theorem Requested.exec_getVecBody (h : Requested sock name c c') {qtype : Option CStr}
    (hq : getVecType qtype = .ok q) (v : VecFrame) :
    execOn (getVecBody sock name qtype) v c =
      execOn (getVecReply sock q) v.allocParam1.freeParam1 c' := by
  obtain ⟨s, rfl, hfits, hsent⟩ := h.sent
  rw [exec_getVecBody_pieces c sock hq hfits, sentPieces, hsent, if_pos rfl]

/-- A scalar getter reads a reply to such a request, or fails. -/
theorem exec_getScalarBody_cases (sock : Int) (name : Option CStr) (c : Conn) (q : QType)
    (v : Bytes) :
    (∃ c', Requested sock name c c') ∨
      ∃ why v' c', execOn (getScalarBody q sock name) v c = ⟨.error why, v', c'⟩ := by
  cases hreq : nameRequest .eval name with
  | none =>
      obtain ⟨why, hexec⟩ := exec_nameRequest_refused (c := c) sock hreq v (getScalarReply q sock)
      exact Or.inr ⟨why, v, c, hexec⟩
  | some bs =>
      obtain ⟨s, rfl, hfits, rfl⟩ := nameRequest_eq_some hreq
      rw [exec_getScalarBody_pieces c sock q hfits, sentPieces]
      by_cases hsent : (c.sendPieces (requestPieces .eval s)).1 = true
      · rw [if_pos hsent]
        rcases Int.lt_or_le sock 0 with hneg | hsock
        · exact Or.inr ⟨_, _, _, Proc.exec_bind_error (exec_recvVecHead_negative hneg _ v)⟩
        · exact Or.inl ⟨_, hsock, s, rfl, hfits, Prod.ext hsent rfl⟩
      · rw [if_neg hsent]
        exact Or.inr ⟨_, _, _, rfl⟩

/-- So does `get_vec`, and then `data` is as it was. -/
theorem exec_getVecBody_cases (sock : Int) (name qtype : Option CStr) (c : Conn) (v : VecFrame) :
    (∃ q c', getVecType qtype = .ok q ∧ Requested sock name c c') ∨
      ∃ why v' c', execOn (getVecBody sock name qtype) v c = ⟨.error why, v', c'⟩ ∧
        v'.data = v.data := by
  cases hreq : getVecRequest name qtype with
  | none =>
      obtain ⟨why, v', hexec, hdata⟩ := exec_getVecBody_refused (c := c) sock hreq v
      exact Or.inr ⟨why, v', c, hexec, hdata⟩
  | some bs =>
      obtain ⟨s, q, rfl, hq, hfits, rfl⟩ := getVecRequest_eq_some hreq
      rw [exec_getVecBody_pieces c sock hq hfits, sentPieces]
      by_cases hsent : (c.sendPieces (requestPieces .eval s)).1 = true
      · rw [if_pos hsent]
        rcases Int.lt_or_le sock 0 with hneg | hsock
        · exact Or.inr ⟨_, _, _, Proc.exec_bind_error (exec_recvVecHead_negative hneg _ _), rfl⟩
        · exact Or.inl ⟨q, _, hq, hsock, s, rfl, hfits, Prod.ext hsent rfl⟩
      · rw [if_neg hsent]
        exact Or.inr ⟨_, _, _, rfl, rfl⟩

end Requested

namespace Call

/-- The caller's memory when the request was cut short. -/
def unsent : Call → Output
  | execStr _ _ _ out => .buffer out
  | getVec _ _ _ => .vec ⟨none, 0⟩
  | getF8 _ dval => .scalar dval
  | getI4 _ dval => .scalar dval
  | getNamedVecF8 _ szKeyBlob szVals vars => .named (vars.cleared szKeyBlob szVals)
  | setVec _ _ _ _ _ => .nothing
  | rshutdown => .nothing

end Call

section Run

variable {sock : Int} {call : Call} {bs : Bytes}

/-- An accepted call sends its request piece by piece. At a piece that is cut it gives up,
and after the last it runs its reply half. -/
theorem run_prog_pieces (hsock : 0 ≤ sock) (hdata : call.HoldsVector)
    (hreq : call.request sock = some bs) :
    ∃ pieces, pieces ≠ [] ∧ pieces.flatten = bs ∧ ∀ c, Prog.run Conn.handle (call.prog sock) c =
      if (c.sendPieces pieces).1 then
        Prog.run Conn.handle (call.reply sock) (c.sendPieces pieces).2
      else (⟨.bad .send, call.unsent⟩, (c.sendPieces pieces).2) := by
  cases call with
  | execStr str ptrOutput xt out =>
      obtain ⟨s, rfl, hfits, rfl⟩ := nameRequest_eq_some hreq
      refine ⟨requestPieces (evalCommand ptrOutput) s, List.cons_ne_nil _ _,
        flatten_requestPieces _ s, fun c => ?_⟩
      have h := exec_execStrBody_pieces c hsock hfits ptrOutput xt out
      simp only [Call.prog, Call.reply, Prog.run_bind, execStr, Proc.run_finish, Prog.run_pure, h,
        sentPieces]
      split <;> rfl
  | getVec name qtype out =>
      obtain ⟨s, q, rfl, hq, hfits, rfl⟩ := getVecRequest_eq_some hreq
      refine ⟨requestPieces .eval s, List.cons_ne_nil _ _, flatten_requestPieces _ s, fun c => ?_⟩
      have h := exec_getVecBody_pieces c sock hq hfits (.start out)
      simp only [Call.prog, Call.reply, Prog.run_bind, getVec, Proc.run_finish, Prog.run_pure, h,
        sentPieces, hq, VecFrame.start_sent]
      split <;> rfl
  | getF8 name dval =>
      obtain ⟨s, rfl, hfits, rfl⟩ := nameRequest_eq_some hreq
      refine ⟨requestPieces .eval s, List.cons_ne_nil _ _, flatten_requestPieces _ s, fun c => ?_⟩
      have h := exec_getScalarBody_pieces c sock .F8 hfits dval
      simp only [Call.prog, Call.reply, Prog.run_bind, getF8, getScalar, Proc.run_finish,
        Prog.run_pure, h, sentPieces]
      split <;> rfl
  | getI4 name dval =>
      obtain ⟨s, rfl, hfits, rfl⟩ := nameRequest_eq_some hreq
      refine ⟨requestPieces .eval s, List.cons_ne_nil _ _, flatten_requestPieces _ s, fun c => ?_⟩
      have h := exec_getScalarBody_pieces c sock .I4 hfits dval
      simp only [Call.prog, Call.reply, Prog.run_bind, getI4, getScalar, Proc.run_finish,
        Prog.run_pure, h, sentPieces]
      split <;> rfl
  | getNamedVecF8 name szKeyBlob szVals vars =>
      obtain ⟨s, rfl, hfits, rfl⟩ := nameRequest_eq_some hreq
      refine ⟨requestPieces .eval s, List.cons_ne_nil _ _, flatten_requestPieces _ s, fun c => ?_⟩
      have h := exec_getNamedVecF8Body_pieces c sock szKeyBlob szVals hfits vars
      simp only [Call.prog, Call.reply, Prog.run_bind, getNamedVecF8, Proc.run_finish,
        Prog.run_pure, h, sentPieces]
      split <;> rfl
  | setVec name qtype data n inWidth =>
      obtain ⟨p, hp, rfl⟩ := setVecRequest_eq_some hreq
      obtain ⟨s, d, q, width, henc⟩ := setVecParams_ok hp
      refine ⟨[p.ph.bytes, p.param1, p.hdrParam2, p.elems.take p.cumLen], List.cons_ne_nil _ _, ?_,
        fun c => ?_⟩
      · simp [SetVecParams.bytes]
      · have h := exec_setVecBody_pieces c henc (henc.holdsVector hdata) ()
        simp only [Call.prog, Call.reply, Prog.run_bind, setVec, Proc.run_finish, Prog.run_pure, h,
          sentPieces]
        split <;> rfl
  | rshutdown =>
      obtain rfl := Option.some.inj hreq
      refine ⟨[shutdownRequest], List.cons_ne_nil _ _, List.append_nil _, fun c => ?_⟩
      have h := exec_rshutdownBody_pieces c sock ()
      simp only [Call.prog, Call.reply, Prog.run_bind, rshutdown, Proc.run_finish, Prog.run_pure, h,
        sentPieces]
      split <;> rfl

/-- A call adds to the stream the beginning of its request, and all of it if it returns 0. -/
theorem sent_run_prog_prefix (hsock : 0 ≤ sock) (hdata : call.HoldsVector)
    (hreq : call.request sock = some bs) (c : Conn) :
    ∃ sent, sent <+: bs ∧ (Prog.run Conn.handle (call.prog sock) c).2.sent = c.sent ++ sent ∧
      ((Prog.run Conn.handle (call.prog sock) c).1.status = .ok → sent = bs) := by
  obtain ⟨pieces, hne, rfl, hrun⟩ := run_prog_pieces hsock hdata hreq
  obtain ⟨sent, hprefix, hon, hwhole⟩ := Conn.sendPieces_sentOn pieces c
  refine ⟨sent, hprefix, ?_, ?_⟩
  · rw [hrun]
    by_cases hall : (c.sendPieces pieces).1 = true
    · have hopen : (c.sendPieces pieces).2.isOpen = true := by
        rw [hon.isOpen]
        exact Conn.isOpen_of_sendPieces hne hall
      rw [if_pos hall, ← hon.sent]
      by_cases hacc : call.accepts (c.sendPieces pieces).2.inc
      · rw [run_reply_ok hsock hopen hacc, Call.sent_after]
      · obtain ⟨why, out, inc', hbad⟩ := run_reply_bad hsock hopen hacc
        rw [hbad, Conn.sent_withInc]
    · rw [if_neg hall, hon.sent]
  · intro hok
    apply hwhole
    by_contra hcut
    rw [hrun, if_neg hcut] at hok
    cases hok

end Run

end RserveClient
