import RserveClient.Encoding.NamedReply

/-!
# The caller's arrays

How far `get_named_vec_F8` fills `key_blob` and `vals`, when `sz_key_blob` and
`sz_vals` are the sizes of the two arrays in bytes. The number of values is
compared with `sz_vals` as if that were a number of doubles.
-/

namespace RserveClient

open Interaction Arrivals

/-- Nothing was stored beyond the arrays, and a named vector that fits into them is not
refused. -/
def RespectsCapacities (sock : Int) (name : Option CStr) (szKeyBlob szVals : UInt32)
    (v : NamedVars) (c : Conn) : Prop :=
  let run := Prog.run Conn.handle (getNamedVecF8 sock name szKeyBlob szVals v) c
  (run.1.2.keyBlob.length = szKeyBlob.toNat ∧ run.1.2.vals.length = szVals.toNat) ∧
    ∀ names vals, BringsNamed names vals c.inc → vals.length = names.length →
      (namedPayload names vals).length < 4 + 2 ^ 24 →
      (keyBlob names).length ≤ szKeyBlob.toNat → 8 * vals.length ≤ szVals.toNat →
      run.1.1.code = 0

/-- The reply gets as far as its values: the head has passed, the keys have come, and their
number is below `sz_vals`. -/
def reachesValues (szKeyBlob szVals : UInt32) (inc : List (Arrival UInt8)) : Prop :=
  namedHeadAccepted szKeyBlob (replyHdr inc).len.toInt ((avail inc).drop 16) ∧
    44 + keysLen inc ≤ (avail inc).length ∧ keysCount inc < szVals.toNat

instance (szKeyBlob szVals : UInt32) (inc : List (Arrival UInt8)) :
    Decidable (reachesValues szKeyBlob szVals inc) :=
  inferInstanceAs (Decidable (_ ∧ _ ∧ _))

/-- The value bytes that come, as far as the keys ask for them. -/
def valuesStored (inc : List (Arrival UInt8)) : Nat :=
  min (8 * keysCount inc) ((avail inc).length - (44 + keysLen inc))

/-- The values that come take no more bytes than the array has, and a named vector that
fits does not fill `key_blob` to its end, nor has the array of values no bytes at all. -/
def CapacitiesSuffice (szKeyBlob szVals : UInt32) (inc : List (Arrival UInt8)) : Prop :=
  (reachesValues szKeyBlob szVals inc → valuesStored inc ≤ szVals.toNat) ∧
    ∀ names vals, BringsNamed names vals inc → vals.length = names.length →
      (namedPayload names vals).length < 4 + 2 ^ 24 →
      (keyBlob names).length ≤ szKeyBlob.toNat → 8 * vals.length ≤ szVals.toNat →
      (keyBlob names).length ≠ szKeyBlob.toNat ∧ szVals ≠ 0

theorem length_overwrite (mem new : Bytes) :
    (overwrite mem new).length = max mem.length new.length := by
  rw [overwrite, List.length_append, List.length_drop]
  omega

section Stores

variable {sock : Int} {c : Conn} {v : NamedVars} {szKeyBlob szVals : UInt32}

theorem length_storeKeys {keys : Bytes} (h : keys.length ≤ v.keyBlob.length) :
    (v.storeKeys keys).keyBlob.length = v.keyBlob.length := by
  rw [NamedVars.storeKeys, length_overwrite, Nat.max_eq_left h]

theorem length_cleared (hkeys : v.keyBlob.length = szKeyBlob.toNat)
    (hvals : v.vals.length = szVals.toNat) :
    (v.cleared szKeyBlob szVals).keyBlob.length = szKeyBlob.toNat ∧
      (v.cleared szKeyBlob szVals).vals.length = szVals.toNat := by
  constructor
  · change (overwrite v.keyBlob _).length = _
    rw [length_overwrite, List.length_replicate, hkeys, Nat.max_self]
  · change (overwrite v.vals _).length = _
    rw [length_overwrite, List.length_replicate, hvals, Nat.max_self]

/-- The stores of the reply half: keys never pass the end of their array, values do when
there are more bytes of them than the array has. -/
theorem lengths_getNamedVecReply (szVals : UInt32) (hsock : 0 ≤ sock) (hopen : c.isOpen = true)
    (hkeys : v.keyBlob.length = szKeyBlob.toNat) :
    (execOn (getNamedVecReply sock szKeyBlob szVals) v c).vars.keyBlob.length =
        szKeyBlob.toNat ∧
      (execOn (getNamedVecReply sock szKeyBlob szVals) v c).vars.vals.length =
        if reachesValues szKeyBlob szVals c.inc then max v.vals.length (valuesStored c.inc)
        else v.vals.length := by
  rw [exec_getNamedVecReply hsock hopen rfl (keysLen_eq c.inc) (keysCount_eq c.inc)]
  by_cases h16 : (avail c.inc).length < 16
  · rw [if_pos h16, if_neg (fun h => absurd h.2.1 (by omega))]
    exact ⟨hkeys, rfl⟩
  by_cases h0 : (replyHdr c.inc).len.toInt = 0
  · have hno : ¬ reachesValues szKeyBlob szVals c.inc := by
      intro h
      have hlen := h.1.2.1
      omega
    rw [if_neg h16, if_pos h0, if_neg hno]
    exact ⟨hkeys, rfl⟩
  by_cases h32 : (avail c.inc).length < 32
  · rw [if_neg h16, if_neg h0, if_pos h32, if_neg (fun h => absurd h.2.1 (by omega))]
    exact ⟨hkeys, rfl⟩
  rw [if_neg h16, if_neg h0, if_neg h32]
  by_cases hgood : namedHeadAccepted szKeyBlob (replyHdr c.inc).len.toInt ((avail c.inc).drop 16)
  swap
  · rw [if_pos hgood, if_neg (fun h => hgood h.1)]
    exact ⟨hkeys, rfl⟩
  rw [if_neg (not_not_intro hgood)]
  have hroom : keysLen c.inc < szKeyBlob.toNat := hgood.2.2.2.2
  have hblob : (((avail c.inc).drop 32).take (keysLen c.inc)).length ≤ v.keyBlob.length := by
    have hle := List.length_take_le (keysLen c.inc) ((avail c.inc).drop 32)
    omega
  have hstored := (length_storeKeys hblob).trans hkeys
  by_cases hshort : (avail c.inc).length < 32 + keysLen c.inc
  · have hpart : ((avail c.inc).drop 32).length ≤ v.keyBlob.length := by
      rw [List.length_drop]
      omega
    rw [if_pos hshort, if_neg (fun h => absurd h.2.1 (by omega))]
    exact ⟨(length_storeKeys hpart).trans hkeys, rfl⟩
  by_cases hgap : (avail c.inc).length < 44 + keysLen c.inc
  · rw [if_neg hshort, if_pos hgap, if_neg (fun h => absurd h.2.1 (by omega))]
    exact ⟨hstored, rfl⟩
  rw [if_neg hshort, if_neg hgap]
  by_cases hmany : szVals.toNat ≤ keysCount c.inc
  · rw [if_pos hmany, if_neg (fun h => absurd h.2.2 (by omega))]
    exact ⟨hstored, rfl⟩
  have hreach : reachesValues szKeyBlob szVals c.inc :=
    ⟨hgood, Nat.le_of_not_lt hgap, Nat.lt_of_not_le hmany⟩
  rw [if_neg hmany, if_pos hreach]
  by_cases hvals : (avail c.inc).length < 44 + keysLen c.inc + 8 * keysCount c.inc
  · rw [if_pos hvals]
    refine ⟨hstored, ?_⟩
    change (overwrite v.vals _).length = _
    rw [length_overwrite, List.length_drop, valuesStored, Nat.min_eq_right (by omega)]
  · rw [if_neg hvals]
    refine ⟨hstored, ?_⟩
    change (overwrite v.vals _).length = _
    rw [length_overwrite, List.length_take, List.length_drop, valuesStored]

end Stores

/-- The arrays are respected exactly where their sizes do not matter to the two
comparisons. -/
theorem capacities_respected_iff {sock : Int} {name : Option CStr} {szKeyBlob szVals : UInt32}
    {v : NamedVars} {c : Conn} {bs : Bytes} (hsock : 0 ≤ sock) (hc : c.Ready)
    (hreq : nameRequest .eval name = some bs) (hkeys : v.keyBlob.length = szKeyBlob.toNat)
    (hvals : v.vals.length = szVals.toNat) :
    RespectsCapacities sock name szKeyBlob szVals v c ↔
      CapacitiesSuffice szKeyBlob szVals c.inc := by
  have hbody := exec_getNamedVecF8Body sock szKeyBlob szVals hc hreq v
  obtain ⟨hkeys', hvals'⟩ := length_cleared hkeys hvals
  obtain ⟨hblob, hstored⟩ := lengths_getNamedVecReply (c := c.push bs) szVals hsock
    hc.isOpen hkeys'
  have hrun := Proc.run_finish_of_exec hbody fun exit v => (Status.ofExit exit, v)
  have hstatus := @status_ok_iff sock (.getNamedVecF8 name szKeyBlob szVals v) c bs hsock hc
    trivial hreq
  simp only [Call.prog, Prog.run_bind, Prog.run_pure] at hstatus
  have hcode :
      (Prog.run Conn.handle (getNamedVecF8 sock name szKeyBlob szVals v) c).1.1.code = 0 ↔
        namedAccepted szKeyBlob szVals c.inc := (Status.code_eq_zero_iff _).trans hstatus
  rw [RespectsCapacities, CapacitiesSuffice]
  simp only [hcode]
  apply and_congr
  · rw [getNamedVecF8, hrun, hblob, hstored, hvals', Conn.inc_push]
    split
    · rename_i hreach
      simp only [hreach, true_and, true_implies]
      omega
    · rename_i hno
      simp only [hno, false_implies, and_self]
  · refine forall_congr' fun names => forall_congr' fun vals => ?_
    refine imp_congr_right fun hinc => imp_congr_right fun hm => imp_congr_right fun hsize => ?_
    refine imp_congr_right fun hK => imp_congr_right fun h8 => ?_
    have hzero : szVals ≠ 0 ↔ szVals.toNat ≠ 0 := by
      rw [ne_eq, ← UInt32.toNat_inj]
      rfl
    rw [hinc.accepted_iff hm hsize, hzero]
    omega

/-- Two names and values, in arrays of 8 bytes each. -/
def smallArrays : NamedVars := ⟨List.replicate 8 0, 0, List.replicate 8 0, 0⟩

theorem capacities_respected_iff_twoNames :
    RespectsCapacities 3 (some nameX) 8 8 smallArrays (Conn.fresh namedBytewise) ↔
      CapacitiesSuffice 8 8 namedBytewise :=
  capacities_respected_iff (c := Conn.fresh namedBytewise) (by decide) ⟨rfl, rfl⟩
    (show nameRequest .eval (some nameX) = some (requestBytes .eval nameX) by decide)
    (by decide) (by decide)

/-- Two doubles are stored in the room of one; and names that just fit are refused. -/
theorem capacities_not_respected :
    ((Prog.run Conn.handle (getNamedVecF8 3 (some nameX) 8 8 smallArrays)
        (Conn.fresh namedBytewise)).1.1 = .ok ∧
      (Prog.run Conn.handle (getNamedVecF8 3 (some nameX) 8 8 smallArrays)
        (Conn.fresh namedBytewise)).1.2.vals.length = 16) ∧
    ((keyBlob twoNames).length = 4 ∧
      (Prog.run Conn.handle (getNamedVecF8 3 (some nameX) 4 16
        ⟨List.replicate 4 0, 0, List.replicate 16 0, 0⟩)
        (Conn.fresh namedBytewise)).1.1.code < 0) ∧
    ¬ RespectsCapacities 3 (some nameX) 8 8 smallArrays (Conn.fresh namedBytewise) := by
  refine ⟨by decide, by decide, ?_⟩
  rintro ⟨⟨_, hvals⟩, _⟩
  exact absurd hvals (by decide)

end RserveClient
