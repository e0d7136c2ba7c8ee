import RserveClient.Session.WordServer

/-!
# The library as a workspace of values

Seen from a C program, the library and the R server behind it are a workspace: vectors and
logicals are bound to names, and come back when they are asked for. Any session of such calls
returns what the abstract workspace returns.

## Implementation notes

The abstract machine is partial: it has no step where R would report an error, which
`get_vec` and the scalar getters do not survive with the connection intact.
-/

namespace RserveClient

open Interaction Arrivals Framing
open LittleEndian (encode word)

/-- What a C program asks of the workspace. -/
inductive StoreOp where
  | set (name : CStr) (v : Numeric) (n inWidth : UInt32)
  | get (name : CStr) (q : QType) (out : VecOut)
  | getF8 (name : CStr) (dval : Bytes)
  | getI4 (name : CStr) (dval : Bytes)
  | exists1 (name : CStr) (x : Bool)
  | exists2 (name : CStr) (x : Bool)
  | len (name : CStr) (n : Int)
  | setBool (name : CStr) (x : Bool)
  | getBool (name : CStr) (x : Bool)

namespace StoreOp

/-- The function of the library that it calls. -/
def call : StoreOp → ApiCall
  | set name v n inWidth =>
      .exchange (.setVec (some name) (some v.q.str) (some v.data) n inWidth)
  | get name q out => .exchange (.getVec (some name) (some q.str) out)
  | getF8 name dval => .exchange (.getF8 (some name) dval)
  | getI4 name dval => .exchange (.getI4 (some name) dval)
  | exists1 name x => .ask (.exists1 (some name) x)
  | exists2 name x => .ask (.exists2 (some name) x)
  | len name n => .ask (.getVecLen name n)
  | setBool name x => .ask (.setBool name x)
  | getBool name x => .ask (.getBool (some name) x)

def name : StoreOp → CStr
  | set name _ _ _ => name
  | get name _ _ => name
  | getF8 name _ => name
  | getI4 name _ => name
  | exists1 name _ => name
  | exists2 name _ => name
  | len name _ => name
  | setBool name _ => name
  | getBool name _ => name

/-- A vector that is set has as many elements as its caller says, one at least, and its packet
fits the length field. -/
def VectorFits : StoreOp → Prop
  | set name v n _ =>
      n ≠ 0 ∧ v.data.length = n.toNat * v.q.width ∧
        (4 + lenName name) + (8 + v.data.length) < 2 ^ 24
  | _ => True

instance : (op : StoreOp) → Decidable op.VectorFits
  | set _ _ _ _ => inferInstanceAs (Decidable (_ ∧ _ ∧ _))
  | get _ _ _ | getF8 _ _ | getI4 _ _ | exists1 _ _ | exists2 _ _ | len _ _ | setBool _ _
  | getBool _ _ => isTrue trivial

/-- The vector a workspace has under a name, if it has that type. -/
def vectorAt (ws : Workspace) (name : CStr) (q : QType) : Option Numeric :=
  match ws name.bytes with
  | some (.vector v) => if v.q = q then some v else none
  | _ => none

theorem vectorAt_eq_some {ws : Workspace} {name : CStr} {q : QType} {v : Numeric}
    (h : vectorAt ws name q = some v) : ws name.bytes = some (.vector v) ∧ v.q = q := by
  unfold vectorAt at h
  split at h
  · rename_i v' hbound
    by_cases hq : v'.q = q
    · rw [if_pos hq] at h
      obtain rfl := Option.some.inj h
      exact ⟨hbound, hq⟩
    · rw [if_neg hq] at h
      cases h
  · cases h

/-- The abstract workspace: what the operation returns and what is bound then. -/
def step (ws : Workspace) : StoreOp → Option (ApiRet × Workspace)
  | set name v _ _ =>
      some (.exchange ⟨.ok, .nothing⟩, Function.update ws name.bytes (some (.vector v)))
  | get name q _ =>
      (vectorAt ws name q).map fun v => (.exchange ⟨.ok, .vec ⟨some v.data, v.count⟩⟩, ws)
  | getF8 name dval =>
      ((vectorAt ws name .F8).filter fun v => v.count = 1).map fun v =>
        (.exchange ⟨.ok, .scalar (overwrite dval v.data)⟩, ws)
  | getI4 name dval =>
      ((vectorAt ws name .I4).filter fun v => v.count = 1).map fun v =>
        (.exchange ⟨.ok, .scalar (overwrite dval v.data)⟩, ws)
  | exists1 name _ => some (.ask (.logical .ok (ws name.bytes).isSome), ws)
  | exists2 name _ => some (.ask (.logical .ok (ws name.bytes).isSome), ws)
  | len name _ =>
      match ws name.bytes with
      | some (.vector v) => some (.ask (.length .ok v.count), ws)
      | _ => none
  | setBool name x =>
      some (.ask (.done .ok), Function.update ws name.bytes (some (.logical x)))
  | getBool name _ =>
      match ws name.bytes with
      | some (.logical x) => some (.ask (.logical .ok x), ws)
      | _ => none

/-- One operation after another. -/
def run : Workspace → List StoreOp → Option (List ApiRet × Workspace)
  | ws, [] => some ([], ws)
  | ws, op :: ops => do
      let r ← op.step ws
      let rest ← run r.2 ops
      return (r.1 :: rest.1, rest.2)

end StoreOp

section Refinement

variable {σ : Type} {R : RServer σ} {past : Nat → UInt8} {sock : Int}

/-- The library and the server do what the abstract workspace does. -/
def Refines (R : RServer σ) (past : Nat → UInt8) (sock : Int) (call : ApiCall)
    (v : Conn × (Bytes × σ)) (r : ApiRet × Workspace) : Prop :=
  ∃ v', (call.prog past sock).run (liveHandle R.answer sock) v = (r.1, v') ∧ Idle v' ∧
    R.workspace v'.2.2 = r.2

theorem refines_set (hR : R.Rules) (hsock : 0 ≤ sock) {name : CStr} {vec : Numeric}
    {n inWidth : UInt32} {v : Conn × (Bytes × σ)} (hv : Idle v) (hname : name.bytes ≠ [])
    (hn : n ≠ 0) (hlen : vec.data.length = n.toNat * vec.q.width)
    (hsize : (4 + lenName name) + (8 + vec.data.length) < 2 ^ 24) :
    Refines R past sock (StoreOp.set name vec n inWidth).call v
      (.exchange ⟨.ok, .nothing⟩,
        Function.update (R.workspace v.2.2) name.bytes (some (.vector vec))) := by
  obtain ⟨hws, cmd, hdeliver⟩ := hR.set v.2.2 name.bytes vec _ (sets_setFrame hsize)
  have hbare : Bare (R.answer v.2.2 (setFrame name vec).bytes).2 :=
    ⟨hdeliver.clean, ⟨cmd, 0, 0, 0⟩, rfl, hdeliver.elems⟩
  obtain ⟨v', hrun, hidle, hstate⟩ :=
    run_live_set R.answer hsock hv hname hn hlen hsize hbare
  exact ⟨v', ApiCall.run_exchange past hrun, hidle, by rw [hstate, hws]⟩

/-- A name is asked for, and its vector arrives. -/
theorem vector_arrives (hR : R.Rules) {name : CStr} {vec : Numeric} (s : σ)
    (hname : R.IsName name) (hfit : 4 + lenName name < 2 ^ 24)
    (hbound : R.workspace s name.bytes = some (.vector vec)) :
    R.workspace (R.answer s (askFrame name).bytes).1 = R.workspace s ∧
      ∃ msgId, Delivers (vecReply msgId vec.q.xt vec.data).bytes
        (R.answer s (askFrame name).bytes).2 :=
  hR.name s name _ _ hname hbound rfl _ (asksFor_askFrame hfit)

theorem refines_get (hR : R.Rules) (hsock : 0 ≤ sock) {name : CStr} {vec : Numeric} (out : VecOut)
    {v : Conn × (Bytes × σ)} (hv : Idle v) (hname : R.IsName name)
    (hfit : 4 + lenName name < 2 ^ 24)
    (hbound : R.workspace v.2.2 name.bytes = some (.vector vec)) :
    Refines R past sock (StoreOp.get name vec.q out).call v
      (.exchange ⟨.ok, .vec ⟨some vec.data, vec.count⟩⟩, R.workspace v.2.2) := by
  obtain ⟨hws, msgId, hdeliver⟩ := vector_arrives hR v.2.2 hname hfit hbound
  have hq := vec.numeric.getVecType
  have hreq : (Call.getVec (some name) (some vec.q.str) out).request sock =
      some (askFrame name).bytes := getVecRequest_numeric vec.numeric hfit
  have hcountLen := vec.numeric.countLen
  have hvec : BringsVec vec.q.xt vec.data (R.answer v.2.2 (askFrame name).bytes).2 :=
    hdeliver.bringsVec
  have hacc : (Call.getVec (some name) (some vec.q.str) out).accepts
      (R.answer v.2.2 (askFrame name).bytes).2 := by
    refine ⟨vec.q, hq, (hvec.vecAccepted_iff vec.fits ?_).mpr ?_⟩
    · rw [hcountLen]
      exact Nat.zero_le _
    · have hfront := hdeliver.front_ge
      omega
  have hxtLen := (hvec.xtWord vec.fits vec.q.xt_lt).2
  have hcount : vec.q.count vec.data.length = vec.count := by
    rw [QType.count, hcountLen, Nat.sub_zero, Numeric.count]
  have hwhole : vec.count * vec.q.width = vec.data.length := Nat.div_mul_cancel vec.whole
  have htaken : (Call.getVec (some name) (some vec.q.str) out).taken
      (R.answer v.2.2 (askFrame name).bytes).2 =
        (elems (R.answer v.2.2 (askFrame name).bytes).2).length := by
    rw [hdeliver.length_eq]
    simp only [Call.taken, hq, vecTaken, hxtLen, hcount, hcountLen, hwhole, Nat.add_zero]
  have hout : (Call.getVec (some name) (some vec.q.str) out).output
      (R.answer v.2.2 (askFrame name).bytes).2 = .vec ⟨some vec.data, vec.count⟩ := by
    simp only [Call.output, hq, hxtLen, hcount, hvec.vecData_eq vec.fits, hcountLen, hwhole,
      List.drop_zero, List.take_length]
  obtain ⟨v', hrun, hidle, hstate⟩ := run_live_ok R.answer hsock hv
    (show (Call.getVec (some name) (some vec.q.str) out).HoldsVector from trivial) hreq
    (asksFor_askFrame hfit).valid (by rintro ⟨⟩) hacc hdeliver.clean htaken
  rw [hout] at hrun
  exact ⟨v', ApiCall.run_exchange past hrun, hidle, by rw [hstate, hws]⟩

/-- A single number arrives whole, and with it the end of the reply. -/
theorem scalar_arrives {vec : Numeric} {msgId : Int32} {inc : List (Arrival UInt8)}
    (hone : vec.count = 1)
    (hdeliver : Delivers (vecReply msgId vec.q.xt vec.data).bytes inc) (dval : Bytes) :
    scalarAccepted vec.q inc ∧ 24 + scalarRead vec.q inc = (elems inc).length ∧
      scalarOut vec.q inc dval = overwrite dval vec.data := by
  have hvec : BringsVec vec.q.xt vec.data inc :=
    hdeliver.bringsVec
  have hfront := hdeliver.front_ge
  have hlen := hdeliver.length_eq
  have hav := hdeliver.clean.avail_eq
  have hxtLen := (hvec.xtWord vec.fits vec.q.xt_lt).2
  have hwhole : vec.count * vec.q.width = vec.data.length := Nat.div_mul_cancel vec.whole
  have hwidth : vec.data.length = vec.q.width := by
    rw [hone, Nat.one_mul] at hwhole
    exact hwhole.symm
  have hsmall : vec.q.width ≤ 8 := by
    rcases vec.numeric with hq | hq <;> rw [hq] <;> decide
  have hpos := QType.width_pos vec.numeric.ne_SC
  have hle : 24 ≤ (avail inc).length := by
    rw [hav]
    omega
  have hskip : skip 8 (skip hdrLen inc) = skip 24 inc := skip_skip (n := hdrLen) (m := 8) hle
  have hpiece : vec.q.width ≤ (front (skip 24 inc)).length := by
    rw [← hskip, front_skip (by omega), List.length_drop]
    omega
  have hread : scalarRead vec.q inc = vec.q.width := Nat.min_eq_left hpiece
  refine ⟨⟨⟨?_, ?_⟩, hvec.headAccepted vec.fits vec.q.xt_lt, ?_, by omega⟩, ?_, ?_⟩
  · rw [hdrLen]
    omega
  · omega
  · rw [hxtLen]
    exact hone
  · omega
  · obtain ⟨rest, hdrop⟩ := hvec.drop_head
    rw [scalarOut, hread, hdrop, ← hwidth, List.take_left]

/-- What the two scalar getters have in common: the request, the accepted replies, how far a
reply is read, and what is returned. -/
structure ScalarGetter (q : QType) (name : CStr) (dval : Bytes) (call : Call) : Prop where
  request : ∀ sock, call.request sock = nameRequest .eval (some name)
  holds : call.HoldsVector
  ne_rshutdown : call ≠ .rshutdown
  accepts : ∀ inc, scalarAccepted q inc → call.accepts inc
  taken : ∀ inc, call.taken inc = 24 + scalarRead q inc
  output : ∀ inc, call.output inc = .scalar (scalarOut q inc dval)

theorem scalarGetter_getF8 (name : CStr) (dval : Bytes) :
    ScalarGetter .F8 name dval (.getF8 (some name) dval) :=
  ⟨fun _ => rfl, trivial, by rintro ⟨⟩, fun _ h => h, fun _ => rfl, fun _ => rfl⟩

theorem scalarGetter_getI4 (name : CStr) (dval : Bytes) :
    ScalarGetter .I4 name dval (.getI4 (some name) dval) :=
  ⟨fun _ => rfl, trivial, by rintro ⟨⟩, fun _ h => h, fun _ => rfl, fun _ => rfl⟩

theorem refines_scalar (hR : R.Rules) (hsock : 0 ≤ sock) {q : QType} {name : CStr}
    {dval : Bytes} {call : Call} (hgetter : ScalarGetter q name dval call)
    {v : Conn × (Bytes × σ)} (hv : Idle v) (hname : R.IsName name)
    (hfit : 4 + lenName name < 2 ^ 24) {r : ApiRet × Workspace}
    (hstep : ((StoreOp.vectorAt (R.workspace v.2.2) name q).filter fun vec => vec.count = 1).map
      (fun vec => (.exchange ⟨.ok, .scalar (overwrite dval vec.data)⟩, R.workspace v.2.2)) =
        some r) :
    Refines R past sock (.exchange call) v r := by
  obtain ⟨vec, hat, rfl⟩ := Option.map_eq_some_iff.mp hstep
  obtain ⟨hat, hone⟩ := Option.filter_eq_some_iff.mp hat
  obtain ⟨hbound, rfl⟩ := StoreOp.vectorAt_eq_some hat
  obtain ⟨hws, msgId, hdeliver⟩ := vector_arrives hR v.2.2 hname hfit hbound
  obtain ⟨hacc, htaken, hout⟩ := scalar_arrives (of_decide_eq_true hone) hdeliver dval
  have hreq : call.request sock = some (askFrame name).bytes :=
    (hgetter.request sock).trans (if_pos (requestFits_of_lt hfit))
  obtain ⟨v', hrun, hidle, hstate⟩ := run_live_ok R.answer hsock hv hgetter.holds hreq
    (asksFor_askFrame hfit).valid hgetter.ne_rshutdown (hgetter.accepts _ hacc) hdeliver.clean
    ((hgetter.taken _).trans htaken)
  rw [hgetter.output, hout] at hrun
  exact ⟨v', ApiCall.run_exchange past hrun, hidle, by rw [hstate, hws]⟩

theorem lenName_le (s : CStr) : lenName s ≤ s.bytes.length + 8 := by
  have h := Padding.roundUp_lt (k := 8) (by decide) (s.bytes.length + 1)
  rw [lenName_eq]
  omega

/-- A command about a short name is built and can be sent. -/
theorem build_short {b : CmdBuilder} {name : CStr} {slack : Nat} (hb : b.buffer = .block slack)
    (hshort : name.bytes.length ≤ 10000) (hslack : slack ≤ 100) :
    b.build name = .ok (b.format.paste name) :=
  CmdBuilder.build_block hb (by omega)

theorem fits_paste {f : CmdFormat} {name : CStr} (hshort : name.bytes.length ≤ 10000)
    (hf : f.head.bytes.length + f.tail.bytes.length ≤ 100) :
    4 + lenName (f.paste name) < 2 ^ 24 := by
  have hle := lenName_le (f.paste name)
  have hlen : (f.paste name).bytes.length =
      f.head.bytes.length + (name.bytes.length + f.tail.bytes.length) := by
    rw [CmdFormat.paste, List.length_append, List.length_append]
  omega

/-- A command that the server evaluates to a value of the type asked for. -/
theorem refines_ask (past : Nat → UInt8) (hsock : 0 ≤ sock) {f : Asking} {rcmd : CStr}
    {stored : Stored} {ws : Workspace} {v : Conn × (Bytes × σ)} (hv : Idle v)
    (hcmd : f.cmd sock = .ok rcmd) (hfit : 4 + lenName rcmd < 2 ^ 24)
    (heval : R.Evaluates v.2.2 rcmd.bytes ws stored) (hlen : stored.elems.length < 2 ^ 24)
    (hxt : stored.xt < 256) (hasked : 0 ≤ f.xt → (stored.xt : Int) = f.xt) :
    Refines R past sock (.ask f) v
      (.ask (f.answer past (.ok, ⟨some stored.elems, stored.elems.length⟩)), ws) := by
  obtain ⟨hws, msgId, hdeliver⟩ := heval _ (asksFor_askFrame hfit)
  obtain ⟨v', hrun, hidle, hstate⟩ := run_live_execStr_value R.answer hsock ⟨none, 0⟩ hv hfit hlen
    hxt hasked hdeliver.clean hdeliver.elems
  exact ⟨v', ApiCall.run_ask past (Asking.run_prog past hcmd hrun), hidle, by rw [hstate, hws]⟩

theorem length_logicalContent (x : Bool) : (logicalContent x).length = 8 := by
  rw [logicalContent, length_boolContent]
  rfl

/-- A command that the server evaluates to a logical. -/
theorem refines_logical (past : Nat → UInt8) (hsock : 0 ≤ sock) {f : Asking} {rcmd : CStr}
    {x : Bool} {ws : Workspace} {v : Conn × (Bytes × σ)} (hv : Idle v)
    (hcmd : f.cmd sock = .ok rcmd) (hfit : 4 + lenName rcmd < 2 ^ 24)
    (hasked : 0 ≤ f.xt → (xtArrayBool : Int) = f.xt)
    (heval : R.Evaluates v.2.2 rcmd.bytes ws ⟨xtArrayBool, logicalContent x⟩) :
    Refines R past sock (.ask f) v
      (.ask (f.answer past (.ok, ⟨some (logicalContent x), (logicalContent x).length⟩)), ws) := by
  refine refines_ask past hsock hv hcmd hfit heval ?_ (show xtArrayBool < 256 by decide) hasked
  dsimp only
  rw [length_logicalContent]
  decide

/-- A single logical is read as what it is, by either way of reading it. -/
theorem logicalAnswer_logicalContent (past : Nat → UInt8) (x y : Bool) :
    logicalAnswer oneLogical y
        (Status.ok, ⟨some (logicalContent x), (logicalContent x).length⟩) = (.ok, x) ∧
      logicalAnswer (fourthByte (past 4)) y
        (Status.ok, ⟨some (logicalContent x), (logicalContent x).length⟩) = (.ok, x) := by
  cases x
  · exact ⟨rfl, rfl⟩
  · exact ⟨rfl, rfl⟩

theorem outputAnswer_some {α : Type} (past : Nat → UInt8) (peek : Nat → Peek.BufProg (Except Why α))
    (out : Bytes) (n : Nat) :
    outputAnswer past peek (.ok, ⟨some out, n⟩) = Peek.look out past (peek n) := rfl

theorem lengthAnswer_lengthStored (past : Nat → UInt8) {k : Nat} (hk : k < 2 ^ 31) (n : Int) :
    lengthAnswer n (outputAnswer past peekInt
      (Status.ok, ⟨some (lengthStored k).elems, (lengthStored k).elems.length⟩)) =
      (.ok, (k : Int)) := by
  have hlen : (lengthStored k).elems.length = 4 := LittleEndian.length_encode 4 k
  have hlook : Peek.look (lengthStored k).elems past (Peek.bytesAt 0 4) = encode 4 k := by
    rw [Peek.look_bytesAt (by omega), List.drop_zero, List.take_of_length_le (by omega)]
    rfl
  have hdecode : CInt.toInt (LittleEndian.decode (encode 4 k)) = k := by
    rw [LittleEndian.decode_encode, Nat.mod_eq_of_lt (by omega),
      CInt.toInt_eq (by omega) (by omega)]
  rw [outputAnswer_some, hlen, peekInt, if_neg (by decide), Peek.look_bind, hlook, Peek.look_pure,
    hdecode]
  rfl

theorem Numeric.count_lt (v : Numeric) : v.count < 2 ^ 31 := by
  have hle : v.count ≤ v.data.length := Nat.div_le_self _ _
  have hfits := v.fits
  omega

section Operation

variable {name : CStr} {v : Conn × (Bytes × σ)}

/-- Both functions ask `exists` about the name, and read the one logical of the answer, each
in its own way. -/
theorem refines_exists (past : Nat → UInt8) (hR : R.Rules) (hsock : 0 ≤ sock) (hv : Idle v)
    (hname : R.IsName name) {f : Asking} {x : Bool}
    (hf : f = .exists1 (some name) x ∨ f = .exists2 (some name) x) :
    Refines R past sock (.ask f) v
      (.ask (.logical .ok (R.workspace v.2.2 name.bytes).isSome), R.workspace v.2.2) := by
  have hshort := (hR.short name hname).2
  have hbuild : logicalCmd (sock < 0) (quotedCmd existsHead 26) (some name) =
      .ok (existsBuilder.format.paste name) := by
    unfold logicalCmd
    rw [if_neg (Int.not_lt.mpr hsock), quotedCmd_eq_build]
    exact build_short rfl hshort (by decide)
  have hcmd : f.cmd sock = .ok (existsBuilder.format.paste name) := by
    rcases hf with rfl | rfl
    · exact hbuild
    · exact hbuild
  have hasked : 0 ≤ f.xt → (xtArrayBool : Int) = f.xt := by
    rcases hf with rfl | rfl
    · exact fun _ => rfl
    · exact fun _ => rfl
  have hrefines := refines_logical past hsock hv hcmd (fits_paste hshort (by decide)) hasked
    (hR.existsName v.2.2 name hname)
  obtain ⟨hfirst, hsecond⟩ :=
    logicalAnswer_logicalContent past (R.workspace v.2.2 name.bytes).isSome x
  rcases hf with rfl | rfl
  · rw [Asking.answer, hfirst] at hrefines
    exact hrefines
  · rw [Asking.answer, hsecond] at hrefines
    exact hrefines

theorem refines_len (past : Nat → UInt8) (hR : R.Rules) (hsock : 0 ≤ sock) (hv : Idle v)
    (hname : R.IsName name) {vec : Numeric} (n : Int)
    (hbound : R.workspace v.2.2 name.bytes = some (.vector vec)) :
    Refines R past sock (.ask (.getVecLen name n)) v
      (.ask (.length .ok vec.count), R.workspace v.2.2) := by
  have hshort := (hR.short name hname).2
  have hcmd : (Asking.getVecLen name n).cmd sock =
      .ok (getVecLenBuilder.format.paste name) := by
    rw [Asking.cmd]
    exact build_short rfl hshort (by decide)
  have hrefines := refines_ask past hsock hv hcmd (fits_paste hshort (by decide))
    (hR.length v.2.2 name vec hname hbound) (by simp [lengthStored])
    (show xtArrayInt < 256 by decide) (fun _ => rfl)
  rw [Asking.answer, lengthAnswer_lengthStored past vec.count_lt] at hrefines
  exact hrefines

theorem refines_setBool (past : Nat → UInt8) (hR : R.Rules) (hsock : 0 ≤ sock) (hv : Idle v)
    (hname : R.IsName name) (x : Bool) :
    Refines R past sock (.ask (.setBool name x)) v
      (.ask (.done .ok), Function.update (R.workspace v.2.2) name.bytes (some (.logical x))) := by
  have hshort := (hR.short name hname).2
  have hcmd : (Asking.setBool name x).cmd sock =
      .ok ((setBoolBuilder x).format.paste name) := by
    rw [Asking.cmd]
    exact build_short rfl hshort (by decide)
  exact refines_logical past hsock hv hcmd (fits_paste hshort (by cases x <;> decide))
    (fun hnonneg => absurd hnonneg (show ¬ (0 : Int) ≤ -1 by decide))
    (hR.assign v.2.2 name x hname)

/-- `get_bool` wants a socket above 0. -/
theorem refines_getBool (past : Nat → UInt8) (hR : R.Rules) (hsock : 0 < sock) (hv : Idle v)
    (hname : R.IsName name) (hfit : 4 + lenName name < 2 ^ 24) (x : Bool) {y : Bool}
    (hbound : R.workspace v.2.2 name.bytes = some (.logical y)) :
    Refines R past sock (.ask (.getBool (some name) x)) v
      (.ask (.logical .ok y), R.workspace v.2.2) := by
  have hcmd : (Asking.getBool (some name) x).cmd sock = .ok name := by
    rw [Asking.cmd]
    unfold logicalCmd
    rw [if_neg (Int.not_le.mpr hsock)]
  have hrefines := refines_logical past (Int.le_of_lt hsock) hv hcmd hfit (fun _ => rfl)
    (hR.name v.2.2 name _ ⟨xtArrayBool, logicalContent y⟩ hname hbound rfl)
  rw [Asking.answer, (logicalAnswer_logicalContent past y x).1] at hrefines
  exact hrefines

end Operation

/-- A step of the abstract workspace is what the call does. -/
theorem refines_step (past : Nat → UInt8) (hR : R.Rules) (hsock : 0 < sock) (op : StoreOp)
    {v : Conn × (Bytes × σ)} (hv : Idle v) (hname : R.IsName op.name)
    (hfits : op.VectorFits) {r : ApiRet × Workspace}
    (hstep : op.step (R.workspace v.2.2) = some r) : Refines R past sock op.call v r := by
  obtain ⟨hne, hshort⟩ := hR.short op.name hname
  have hpos : 0 ≤ sock := Int.le_of_lt hsock
  have hfit : 4 + lenName op.name < 2 ^ 24 := by
    have hle := lenName_le op.name
    omega
  cases op with
  | set name vec n inWidth =>
      obtain ⟨hn, hlen, hsize⟩ := hfits
      obtain rfl := Option.some.inj hstep
      exact refines_set hR hpos hv hne hn hlen hsize
  | get name q out =>
      obtain ⟨vec, hat, rfl⟩ := Option.map_eq_some_iff.mp hstep
      obtain ⟨hbound, rfl⟩ := StoreOp.vectorAt_eq_some hat
      exact refines_get hR hpos out hv hname hfit hbound
  | getF8 name dval =>
      exact refines_scalar hR hpos (scalarGetter_getF8 name dval) hv hname hfit hstep
  | getI4 name dval =>
      exact refines_scalar hR hpos (scalarGetter_getI4 name dval) hv hname hfit hstep
  | exists1 name x =>
      obtain rfl := Option.some.inj hstep
      exact refines_exists past hR hpos hv hname (x := x) (Or.inl rfl)
  | exists2 name x =>
      obtain rfl := Option.some.inj hstep
      exact refines_exists past hR hpos hv hname (x := x) (Or.inr rfl)
  | len name n =>
      rw [StoreOp.step] at hstep
      split at hstep
      · rename_i vec hbound
        obtain rfl := Option.some.inj hstep
        exact refines_len past hR hpos hv hname n hbound
      · cases hstep
  | setBool name x =>
      obtain rfl := Option.some.inj hstep
      exact refines_setBool past hR hpos hv hname x
  | getBool name x =>
      rw [StoreOp.step] at hstep
      split at hstep
      · rename_i y hbound
        obtain rfl := Option.some.inj hstep
        exact refines_getBool past hR hsock hv hname hfit x hbound
      · cases hstep

end Refinement

end RserveClient
