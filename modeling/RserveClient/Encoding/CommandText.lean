import RserveClient.Encoding.Logicals
import RserveClient.Foundation.RText

/-!
# What the predicates ask

The text in the request of `exists1`, `exists2` and `is_vector`, read as R: which
variable it is about, and whether its value answers the question that the
function is named for.
-/

namespace RserveClient

open Interaction Arrivals

/-- What the function sends on a fresh socket is the request to evaluate this text. -/
def Decoder.Sends (f : Decoder) (sock : Int) (name text : CStr) : Prop :=
  ∀ past x c, c.Ready →
    (Prog.run Conn.handle (f.prog sock past name x) c).2.sent =
      c.sent ++ requestBytes .eval text

section Sent

variable {sock : Int} {name text : CStr} {c : Conn} {f : Decoder}

theorem sent_execStr (hsock : 0 ≤ sock) (hc : c.Ready) (hfits : requestFits text) (xt : Int) :
    (Prog.run Conn.handle (execStr sock (some text) true xt ⟨none, 0⟩) c).2.sent =
      c.sent ++ requestBytes .eval text := by
  have hreq : execStrRequest (some text) true = some (requestBytes .eval text) := if_pos hfits
  have hbody := exec_execStrBody hsock hc hreq xt ⟨none, 0⟩
  rw [execStr, Proc.run_finish_of_exec hbody]
  by_cases hacc : execAccepted true xt (c.push (requestBytes .eval text)).inc
  · have hok := exec_execStrReply_ok (v := ⟨none, 0⟩) (c := c.push (requestBytes .eval text))
      hsock hc.isOpen hacc
    rw [hok]
    rfl
  · obtain ⟨why, v', inc', hbad⟩ := exec_execStrReply_bad (v := ⟨none, 0⟩)
      (c := c.push (requestBytes .eval text)) hsock hc.isOpen hacc
    rw [hbad]
    rfl

/-- After `exec_str` nothing more goes out. -/
theorem Decoder.sends_cmd (hsock : 0 ≤ sock) (hrefuses : ¬ f.refuses sock)
    (hcmd : f.cmd name = .ok text) (hfits : requestFits text) : f.Sends sock name text := by
  intro past x c hc
  rw [← sent_execStr hsock hc hfits xtArrayBool, f.prog_eq, finishLogical, Proc.run_finish,
    Proc.exec_exitIf_neg hrefuses]
  dsimp only [askLogical]
  rw [hcmd, Proc.exec_bind_ok (Proc.exec_ofExcept_ok _ _ _ _), Proc.exec_lift_bind rfl]
  generalize Prog.run Conn.handle (execStr sock (some text) true xtArrayBool ⟨none, 0⟩) c = r
  obtain ⟨⟨status, v⟩, c'⟩ := r
  by_cases hnull : outputIsNull status v = true
  · rw [Proc.exec_exitIf_pos hnull]
  rw [Proc.exec_exitIf_neg hnull]
  cases f.readOut past v with
  | error why => rfl
  | ok b => cases status <;> rfl

end Sent

/-- The text is the call with the name pasted between quotes. -/
theorem bytes_of_quotedCmd {head name text : CStr} {slack : Nat} (fn : List UInt8)
    (hhead : head.bytes = fn ++ [40, 34]) (h : quotedCmd head slack name = .ok text) :
    text.bytes = RText.quotedCall fn name.bytes := by
  rw [quotedCmd] at h
  split at h
  · cases h
  · cases h
    dsimp only
    rw [hhead, RText.quotedCall, List.append_assoc]
    rfl

/-- The commands of `exists1` and `exists2` ask, in every environment, whether the name is bound
exactly if it has neither double quote nor backslash. The command of `is_vector` asks about
the object of no name. -/
theorem predicates_ask_iff (e : RText.Escapes) {sock : Int} {name : CStr} (hsock : 0 ≤ sock)
    (hexists : Decoder.exists1.Asks name) (hisVector : Decoder.isVector.Asks name) :
    ∃ existsText isVectorText : CStr,
      Decoder.exists1.Sends sock name existsText ∧ Decoder.exists2.Sends sock name existsText ∧
      Decoder.isVector.Sends sock name isVectorText ∧
      ((∀ env, RText.value e env existsText.bytes =
          some (.logical (env name.bytes).isSome)) ↔ RText.plain name.bytes) ∧
      ¬ ∀ env, RText.value e env isVectorText.bytes =
          some (.logical (RText.vectorBound env name.bytes)) := by
  obtain ⟨existsText, hcmd, hfits⟩ := hexists
  obtain ⟨isVectorText, hcmd', hfits'⟩ := hisVector
  have hrefuses : ¬ sock < 0 := Int.not_lt.mpr hsock
  refine ⟨existsText, isVectorText, Decoder.sends_cmd hsock hrefuses hcmd hfits,
    Decoder.sends_cmd hsock hrefuses hcmd hfits, Decoder.sends_cmd hsock hrefuses hcmd' hfits',
    ?_, ?_⟩
  · rw [bytes_of_quotedCmd RText.existsFn rfl hcmd]
    exact RText.value_existsCall_iff
  · rw [bytes_of_quotedCmd RText.isVectorFn rfl hcmd']
    exact RText.value_isVectorCall_ne e name.bytes

theorem predicates_ask_iff_nameX :
    ∃ existsText isVectorText : CStr,
      Decoder.exists1.Sends 3 nameX existsText ∧ Decoder.exists2.Sends 3 nameX existsText ∧
      Decoder.isVector.Sends 3 nameX isVectorText ∧
      ((∀ env, RText.value RText.someEscapes env existsText.bytes =
          some (.logical (env nameX.bytes).isSome)) ↔ RText.plain nameX.bytes) ∧
      ¬ ∀ env, RText.value RText.someEscapes env isVectorText.bytes =
          some (.logical (RText.vectorBound env nameX.bytes)) :=
  predicates_ask_iff RText.someEscapes (by decide) (asks_nameX .exists1) (asks_nameX .isVector)

/-- A function `x` is taken for a vector. -/
theorem function_is_vector :
    ∃ text, Decoder.isVector.cmd nameX = .ok text ∧
      RText.value RText.someEscapes (RText.only nameX.bytes (.other false)) text.bytes =
        some (.logical true) ∧
      RText.vectorBound (RText.only nameX.bytes (.other false)) nameX.bytes = false := by
  refine ⟨isVectorBuilder.format.paste nameX, ?_, by decide, by decide⟩
  change quotedCmd isVectorHead 29 nameX = _
  rw [quotedCmd, if_neg (by decide)]
  rfl

end RserveClient
