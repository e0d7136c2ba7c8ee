import RserveClient.Session.WordServer

/-!
# Calls without a wire

What is left of the library when the connection is forgotten. `exec_str`, the functions above
it and `set_vec` hand a text or a vector to an evaluator and have its error or its value back,
and a session over the wire returns what these direct calls return. Errors are part of it: a
call that the evaluator has no value for fails by itself, and the calls after it go on.

## Implementation notes

A direct call is undefined where the library would leave its packets' form, for a text beyond
the length field, or would leave half a reply in the stream, for a value of another type than
the one asked for.
-/

namespace RserveClient

open Interaction Arrivals Framing

/-- Texts evaluate to a value or to an error, which is no value; names are bound to vectors. -/
structure Evaluator (σ : Type) where
  eval : σ → Bytes → σ × Option Stored
  assign : σ → Bytes → Stored → σ

/-- The value can be sent, and is of the type asked for. -/
def Stored.Suits (v : Stored) (xt : Int) : Prop :=
  v.xt < 256 ∧ v.elems.length < 2 ^ 24 ∧ (0 ≤ xt → (v.xt : Int) = xt)

instance (v : Stored) (xt : Int) : Decidable (v.Suits xt) :=
  inferInstanceAs (Decidable (_ ∧ _ ∧ _))

/-- The calls of the library that can be made without a connection. -/
inductive DirectCall where
  | exec (str : CStr) (xt : Int) (out : OutVars)
  | voidExec (str : CStr) (xt : Int) (out : OutVars)
  | ask (f : Asking)
  | set (name : CStr) (v : Numeric) (n inWidth : UInt32)

def DirectCall.call : DirectCall → ApiCall
  | exec str xt out => .exchange (.execStr (some str) true xt out)
  | voidExec str xt out => .exchange (.execStr (some str) false xt out)
  | ask f => .ask f
  | set name v n inWidth =>
      .exchange (.setVec (some name) (some v.q.str) (some v.data) n inWidth)

namespace Evaluator

variable {σ : Type} (ev : Evaluator σ)

/-- What `exec_str` makes of an evaluation. -/
def exec (s : σ) (str : CStr) (xt : Int) : Option ((Status × OutVars) × σ) :=
  if 4 + lenName str < 2 ^ 24 then
    match ev.eval s str.bytes with
    | (s', none) => some ((.bad .reply, ⟨none, 0⟩), s')
    | (s', some v) =>
        if v.Suits xt then some ((.ok, ⟨some v.elems, v.elems.length⟩), s') else none
  else none

/-- A direct call. The error of a void evaluation is not seen. -/
def call (past : Nat → UInt8) (sock : Int) (s : σ) : DirectCall → Option (ApiRet × σ)
  | .exec str xt _ => (ev.exec s str xt).map fun r => (.exchange ⟨r.1.1, .buffer r.1.2⟩, r.2)
  | .voidExec str _ out =>
      if 4 + lenName str < 2 ^ 24 then
        some (.exchange ⟨.ok, .buffer out⟩, (ev.eval s str.bytes).1)
      else none
  | .ask f =>
      match f.cmd sock with
      | .error why => some (.ask (f.refusal why), s)
      | .ok rcmd => (ev.exec s rcmd f.xt).map fun r => (.ask (f.answer past r.1), r.2)
  | .set name v n _ =>
      if name.bytes ≠ [] ∧ n ≠ 0 ∧ v.data.length = n.toNat * v.q.width ∧
          (4 + lenName name) + (8 + v.data.length) < 2 ^ 24 then
        some (.exchange ⟨.ok, .nothing⟩, ev.assign s name.bytes ⟨v.q.xt, v.data⟩)
      else none

/-- One direct call after another. -/
def run (past : Nat → UInt8) (sock : Int) :
    σ → List DirectCall → Option (List ApiRet × σ)
  | s, [] => some ([], s)
  | s, call :: calls => do
      let r ← ev.call past sock s call
      let rest ← run past sock r.2 calls
      return (r.1 :: rest.1, rest.2)

end Evaluator

section Serving

variable {σ τ : Type}

/-- The answer brings the value, or just a header; it is cut in any way. -/
def Reports : Option Stored → List (Arrival UInt8) → Prop
  | none, inc => Bare inc
  | some v, inc => ∃ msgId, Clean inc ∧ elems inc = (vecReply msgId v.xt v.elems).bytes

/-- The server has the evaluator's state in its own, hands requests on to the evaluator, and
reports what it has returned. -/
structure Serves (server : Server τ) (ev : Evaluator σ) (inner : τ → σ) : Prop where
  eval : ∀ t text f, AsksFor .eval text f →
    inner (server t f.bytes).1 = (ev.eval (inner t) text).1 ∧
      Reports (ev.eval (inner t) text).2 (server t f.bytes).2
  voidEval : ∀ t text f, AsksFor .voidEval text f →
    inner (server t f.bytes).1 = (ev.eval (inner t) text).1 ∧ Bare (server t f.bytes).2
  assign : ∀ t name v f, Sets name v f →
    inner (server t f.bytes).1 = ev.assign (inner t) name v ∧ Bare (server t f.bytes).2

variable {server : Server τ} {ev : Evaluator σ} {inner : τ → σ} {past : Nat → UInt8} {sock : Int}

/-- An evaluation over the wire returns what the direct one returns, error or value. -/
theorem run_live_execStr (hserves : Serves server ev inner) (hsock : 0 ≤ sock) {str : CStr}
    {xt : Int} (out : OutVars) {v : Conn × (Bytes × τ)} (hv : Idle v)
    {r : (Status × OutVars) × σ} (hexec : ev.exec (inner v.2.2) str xt = some r) :
    ∃ v', (execStr sock (some str) true xt out).run (liveHandle server sock) v = (r.1, v') ∧
      Idle v' ∧ inner v'.2.2 = r.2 := by
  rw [Evaluator.exec] at hexec
  split at hexec
  · rename_i hfit
    obtain ⟨hinner, hreports⟩ := hserves.eval v.2.2 str.bytes _ (asksFor_askFrame hfit)
    generalize ev.eval (inner v.2.2) str.bytes = result at hexec hinner hreports
    obtain ⟨s', _ | value⟩ := result
    · obtain rfl := Option.some.inj hexec
      obtain ⟨v', hrun, hidle, hstate⟩ :=
        run_live_execStr_error server hsock xt out hv hfit hreports
      exact ⟨v', hrun, hidle, hstate ▸ hinner⟩
    · by_cases hsuits : value.Suits xt
      · dsimp only at hexec
        rw [if_pos hsuits] at hexec
        obtain rfl := Option.some.inj hexec
        obtain ⟨hxt, hlen, hasked⟩ := hsuits
        obtain ⟨msgId, hclean, hreply⟩ := hreports
        obtain ⟨v', hrun, hidle, hstate⟩ :=
          run_live_execStr_value server hsock out hv hfit hlen hxt hasked hclean hreply
        exact ⟨v', hrun, hidle, hstate ▸ hinner⟩
      · dsimp only at hexec
        rw [if_neg hsuits] at hexec
        cases hexec
  · cases hexec

theorem run_live_direct (hserves : Serves server ev inner) (hsock : 0 ≤ sock) {call : DirectCall}
    {v : Conn × (Bytes × τ)} (hv : Idle v) {r : ApiRet × σ}
    (hcall : ev.call past sock (inner v.2.2) call = some r) :
    ∃ v', (call.call.prog past sock).run (liveHandle server sock) v = (r.1, v') ∧ Idle v' ∧
      inner v'.2.2 = r.2 := by
  cases call with
  | exec str xt out =>
      obtain ⟨r', hexec, rfl⟩ := Option.map_eq_some_iff.mp hcall
      obtain ⟨v', hrun, hidle, hinner⟩ := run_live_execStr hserves hsock out hv hexec
      refine ⟨v', ?_, hidle, hinner⟩
      exact ApiCall.run_exchange past (run_call_of_execStr hrun)
  | voidExec str xt out =>
      by_cases hfit : 4 + lenName str < 2 ^ 24
      · rw [Evaluator.call, if_pos hfit] at hcall
        obtain rfl := Option.some.inj hcall
        obtain ⟨hinner, hbare⟩ := hserves.voidEval v.2.2 str.bytes _ (asksFor_requestFrame hfit)
        obtain ⟨v', hrun, hidle, hstate⟩ :=
          run_live_execStr_void server hsock xt out hv hfit hbare
        exact ⟨v', ApiCall.run_exchange past (run_call_of_execStr hrun), hidle, hstate ▸ hinner⟩
      · rw [Evaluator.call, if_neg hfit] at hcall
        cases hcall
  | ask f =>
      rw [Evaluator.call] at hcall
      split at hcall
      · rename_i why hcmd
        obtain rfl := Option.some.inj hcall
        exact ⟨v, ApiCall.run_ask past (f.run_prog_refused past v hcmd), hv, rfl⟩
      · rename_i rcmd hcmd
        obtain ⟨r', hexec, rfl⟩ := Option.map_eq_some_iff.mp hcall
        obtain ⟨v', hrun, hidle, hinner⟩ := run_live_execStr hserves hsock ⟨none, 0⟩ hv hexec
        exact ⟨v', ApiCall.run_ask past (Asking.run_prog past hcmd hrun), hidle, hinner⟩
  | set name vec n inWidth =>
      by_cases hfits : name.bytes ≠ [] ∧ n ≠ 0 ∧ vec.data.length = n.toNat * vec.q.width ∧
          (4 + lenName name) + (8 + vec.data.length) < 2 ^ 24
      · rw [Evaluator.call, if_pos hfits] at hcall
        obtain rfl := Option.some.inj hcall
        obtain ⟨hname, hn, hlen, hsize⟩ := hfits
        obtain ⟨hinner, hbare⟩ := hserves.assign v.2.2 _ _ _ (sets_setFrame hsize)
        obtain ⟨v', hrun, hidle, hstate⟩ :=
          run_live_set server hsock hv hname hn hlen hsize hbare
        exact ⟨v', ApiCall.run_exchange past hrun, hidle, hstate ▸ hinner⟩
      · rw [Evaluator.call, if_neg hfits] at hcall
        cases hcall

end Serving

def wordEvaluator : Evaluator Workspace where
  eval := evaluateText
  assign ws name v :=
    match numericOf v with
    | some v => Function.update ws name (some (.vector v))
    | none => ws

theorem bare_inTwoPieces (cmd : Int32) : Bare (inTwoPieces (bareReply cmd)) :=
  ⟨(delivers_inTwoPieces (hdrLen_le_bareReply cmd)).clean, ⟨cmd, 0, 0, 0⟩, rfl,
    (delivers_inTwoPieces (hdrLen_le_bareReply cmd)).elems⟩

theorem reports_replyOf : (result : Option Stored) → Reports result (inTwoPieces (replyOf result))
  | none => bare_inTwoPieces respErr
  | some v => by
      have hdeliver : Delivers (vecReply 0 v.xt v.elems).bytes
          (inTwoPieces (vecReply 0 v.xt v.elems).bytes) := by
        apply delivers_inTwoPieces
        rw [length_vecReply, hdrLen]
        omega
      exact ⟨0, hdeliver.clean, hdeliver.elems⟩

theorem serves_answerText : Serves answerText wordEvaluator id where
  eval ws text f hf := by
    obtain ⟨hhead, hbody⟩ := parts_of_packet hf.valid
    have hans : answerText ws f.bytes =
        ((evaluateText ws text).1, inTwoPieces (replyOf (evaluateText ws text).2)) := by
      rw [answerText, hhead, hf.cmd, if_neg (by decide), hbody, hf.text]
      exact if_neg (by decide)
    rw [hans]
    exact ⟨rfl, reports_replyOf _⟩
  voidEval ws text f hf := by
    obtain ⟨hhead, hbody⟩ := parts_of_packet hf.valid
    have hans : answerText ws f.bytes =
        ((evaluateText ws text).1, inTwoPieces (bareReply respOk)) := by
      rw [answerText, hhead, hf.cmd, if_neg (by decide), hbody, hf.text]
      exact if_pos rfl
    rw [hans]
    exact ⟨rfl, bare_inTwoPieces respOk⟩
  assign ws name v f hf := by
    obtain ⟨hhead, hbody⟩ := parts_of_packet hf.valid
    cases hvalue : numericOf v with
    | none =>
        have hset : setOf f.body = none := by
          rw [setOf, hf.set]
          change (numericOf v).bind _ = _
          rw [hvalue, Option.bind_none]
        have hans : answerText ws f.bytes = (ws, inTwoPieces (bareReply respErr)) := by
          rw [answerText, hhead, hf.cmd, if_pos rfl, hbody, hset]
        have hassign : wordEvaluator.assign ws name v = ws := by simp only [wordEvaluator, hvalue]
        rw [hans]
        exact ⟨hassign.symm, bare_inTwoPieces respErr⟩
    | some value =>
        have hset : setOf f.body = some (name, value) := by
          rw [setOf, hf.set]
          change (numericOf v).bind _ = _
          rw [hvalue, Option.bind_some]
          rfl
        have hans : answerText ws f.bytes = (Function.update ws name (some (.vector value)),
            inTwoPieces (bareReply respOk)) := by
          rw [answerText, hhead, hf.cmd, if_pos rfl, hbody, hset]
        have hassign : wordEvaluator.assign ws name v =
            Function.update ws name (some (.vector value)) := by
          simp only [wordEvaluator, hvalue]
        rw [hans]
        exact ⟨hassign.symm, bare_inTwoPieces respOk⟩

theorem nul_notMem_y : (0 : UInt8) ∉ [(121 : UInt8)] := by decide

def nameY : CStr := ⟨[121], nul_notMem_y⟩

def callsWithErrors : List DirectCall :=
  [.ask (.getVecLen nameY 7), .set nameY fiveInts 5 0, .ask (.getBool (some nameX) false),
    .ask (.getVecLen nameY 7), .voidExec nameX (-1) ⟨none, 0⟩, .ask (.exists2 (some nameX) true)]

theorem run_callsWithErrors :
    (wordEvaluator.run (fun _ => 0) 3 (fun _ => none) callsWithErrors).map Prod.fst =
      some [.ask (.length (.bad .reply) 7), .exchange ⟨.ok, .nothing⟩,
        .ask (.logical (.bad .reply) false), .ask (.length .ok 5),
        .exchange ⟨.ok, .buffer ⟨none, 0⟩⟩, .ask (.logical .ok false)] := by
  decide +kernel

end RserveClient
