import RserveClient.Encoding.Sizes
import Mathlib.Data.List.TakeWhile

/-!
# The loops over string slots

`set_vec` goes over the slots of an `SC` vector twice, first to add up the bytes
of their strings and then to copy them. Both loops find a slot by an offset in
32 bits and keep its length in 32 bits.
-/

namespace RserveClient

open Interaction Arrivals Padding CStr

/-- Slot `i` of the buffer. -/
def slot (d : Bytes) (width i : Nat) : Bytes := (d.drop (i * width)).take width

/-- The string in a slot. -/
def slotString (d : Bytes) (width i : Nat) : Bytes := (slot d width i).takeWhile (· ≠ 0)

/-- The vector of strings in a buffer. -/
def slotStrings (d : Bytes) (n width : Nat) : List Bytes :=
  (List.range' 0 n).map (slotString d width)

/-- Every slot contains a NUL. -/
def Terminated (d : Bytes) (n width : Nat) : Prop := ∀ i, i < n → 0 ∈ slot d width i

/-- Up to a buffer of 4 GiB with a NUL in it the code finds a slot short exactly when it
holds a NUL. -/
theorem slotLen_lt_iff {d : Bytes} {n width i : Nat} (hd : d.length = n * width)
    (hsize : n * width ≤ 2 ^ 32) (hnul : n * width = 2 ^ 32 → 0 ∈ d) (hi : i < n) :
    slotLen d width i < width ↔ 0 ∈ slot d width i := by
  have hoffset : i * width + width ≤ n * width := by
    rw [← Nat.succ_mul]
    exact Nat.mul_le_mul_right width hi
  rcases Nat.eq_zero_or_pos width with rfl | hwidth
  · refine iff_of_false (Nat.not_lt_zero _) ?_
    rw [slot, List.take_zero]
    exact List.not_mem_nil
  have hslot : slotFrom d width i = d.drop (i * width) := by
    rw [slotFrom, CInt.toUInt32_natCast, Nat.mod_eq_of_lt (by omega)]
  have hroom : width ≤ (d.drop (i * width)).length := by
    rw [List.length_drop]
    omega
  have hexact : strlen (d.drop (i * width)) < 2 ^ 32 := by
    have hle : strlen (d.drop (i * width)) ≤ (d.drop (i * width)).length :=
      (List.takeWhile_prefix _).length_le
    rw [List.length_drop] at hle
    rcases Nat.eq_zero_or_pos (i * width) with hfirst | hlater
    · rw [hfirst, List.drop_zero] at hle ⊢
      rcases Nat.lt_or_eq_of_le hsize with hlt | heq
      · omega
      · have hend := strlen_lt (hnul heq)
        omega
    · omega
  rw [slotLen, hslot, CInt.toUInt32_natCast, Nat.mod_eq_of_lt hexact, strlen_lt_iff hroom, slot]

/-- The bytes that the second loop copies for a slot. -/
def foundString (d : Bytes) (width i : Nat) : Bytes :=
  (slotFrom d width i).take (slotLen d width i)

/-- What is copied for `k` slots from `i` on. -/
def foundStrings (d : Bytes) (width k i : Nat) : List Bytes :=
  (List.range' i k).map (foundString d width)

section Found

variable {d : Bytes} {width k i : Nat}

theorem foundStrings_succ (d : Bytes) (width k i : Nat) :
    foundStrings d width (k + 1) i = foundString d width i :: foundStrings d width k (i + 1) := rfl

/-- A slot's length is at most the number of bytes before the next NUL. -/
theorem slotLen_le_strlen (d : Bytes) (width i : Nat) :
    slotLen d width i ≤ strlen (slotFrom d width i) := by
  rw [slotLen, CInt.toUInt32_natCast]
  exact Nat.mod_le _ _

/-- What is copied is a part of the string found. -/
theorem foundString_isPrefix (d : Bytes) (width i : Nat) :
    foundString d width i <+: (slotFrom d width i).takeWhile (· ≠ 0) := by
  have hlen := slotLen_le_strlen d width i
  rw [strlen] at hlen
  rw [foundString, List.prefix_iff_eq_take, List.length_take,
    Nat.min_eq_left (Nat.le_trans hlen (List.takeWhile_prefix _).length_le)]
  obtain ⟨rest, hrest⟩ := List.takeWhile_prefix (l := slotFrom d width i) fun b => b ≠ 0
  conv_lhs => rw [← hrest]
  exact List.take_append_of_le_length hlen

theorem foundString_nulFree (d : Bytes) (width i : Nat) : 0 ∉ foundString d width i := by
  intro h0
  have hmem := (foundString_isPrefix d width i).subset h0
  simpa using List.mem_takeWhile_imp hmem

theorem length_foundString (d : Bytes) (width i : Nat) :
    (foundString d width i).length = slotLen d width i := by
  have hlen := slotLen_le_strlen d width i
  have hstr := (List.takeWhile_prefix (l := slotFrom d width i) fun b => b ≠ 0).length_le
  rw [strlen] at hlen
  rw [foundString, List.length_take]
  omega

theorem foundStrings_nulFree : ∀ s ∈ foundStrings d width k i, 0 ∉ s := by
  intro s hs
  obtain ⟨j, _, rfl⟩ := List.mem_map.mp hs
  exact foundString_nulFree d width j

theorem length_joined_cons (s : Bytes) (ss : List Bytes) :
    (joined (s :: ss)).length = s.length + 1 + (joined ss).length := by
  rw [joined_cons, List.length_append, List.length_cons]
  omega

/-- The first loop adds up the bytes of what the second will copy, in 32 bits. -/
theorem sumSlots_joined {cumLen total : Nat} (hlt : cumLen < 2 ^ 32)
    (h : sumSlots d width k i cumLen = .ok total) :
    total = (cumLen + (joined (foundStrings d width k i)).length) % 2 ^ 32 := by
  induction k generalizing i cumLen with
  | zero =>
      obtain rfl := Except.ok.inj h
      exact (Nat.mod_eq_of_lt hlt).symm
  | succ k ih =>
      rw [sumSlots] at h
      split at h
      · cases h
      · have hnext := ih (CInt.toUInt32_lt _) h
        rw [hnext, foundStrings_succ, length_joined_cons, length_foundString,
          CInt.toUInt32_natCast]
        omega

end Found

section Copy

variable {d : Bytes} {width k i size : Nat}

/-- A copy behind what is done replaces as many zeros. -/
theorem writeAt_zeros (as bs : Bytes) (n : Nat) :
    writeAt (as ++ List.replicate n 0) as.length bs =
      as ++ (bs ++ List.replicate (n - bs.length) 0) := by
  rw [writeAt, List.take_left, ← List.drop_drop, List.drop_left, List.drop_replicate,
    List.append_assoc]

/-- A zero left behind a copied string is its terminator. -/
theorem terminate (as bs : Bytes) {n : Nat} (h : bs.length < n) :
    as ++ (bs ++ List.replicate (n - bs.length) 0) =
      (as ++ (bs ++ [0])) ++ List.replicate (n - bs.length - 1) (0 : UInt8) := by
  obtain ⟨m, hm⟩ : ∃ m, n - bs.length = m + 1 := ⟨n - bs.length - 1, by omega⟩
  rw [hm, Nat.add_sub_cancel, List.replicate_succ, List.append_assoc, List.append_assoc]
  rfl

/-- As long as they fit the strings are laid one after another, each with its terminator. -/
theorem copySlots_joined (as : Bytes) (hsize : size < 2 ^ 32)
    (h : as.length + (joined (foundStrings d width k i)).length ≤ size) :
    copySlots d width k i as.length (as ++ List.replicate (size - as.length) 0) =
      (as.length + (joined (foundStrings d width k i)).length,
        as ++ (joined (foundStrings d width k i) ++
          List.replicate (size - as.length - (joined (foundStrings d width k i)).length) 0)) := by
  induction k generalizing i as with
  | zero => rfl
  | succ k ih =>
      rw [foundStrings_succ, length_joined_cons] at h ⊢
      have hlen := length_foundString d width i
      have hnext : (as ++ (foundString d width i ++ [0])).length =
          as.length + slotLen d width i + 1 := by
        rw [List.length_append, List.length_append, hlen]
        rfl
      have hidx : CInt.toUInt32 (as.length + slotLen d width i + 1 : Nat) =
          (as ++ (foundString d width i ++ [0])).length := by
        rw [hnext, CInt.toUInt32_natCast, Nat.mod_eq_of_lt (by omega)]
      have hzeros : size - as.length - (foundString d width i).length - 1 =
          size - (as ++ (foundString d width i ++ [0])).length := by
        rw [hnext]
        omega
      have hrest : (as ++ (foundString d width i ++ [0])).length +
          (joined (foundStrings d width k (i + 1))).length ≤ size := by
        rw [hnext]
        omega
      rw [copySlots, ← foundString, writeAt_zeros, terminate _ _ (by omega), hidx, hzeros,
        ih _ hrest, joined_cons, hnext, Prod.mk.injEq]
      constructor
      · omega
      · simp only [List.append_assoc, List.cons_append, List.nil_append, List.append_cancel_left_eq,
          List.cons.injEq, true_and]
        congr 1
        omega

/-- `alt_data` when it holds everything. -/
theorem packSlots_joined {n : Nat} (hsize : size < 2 ^ 32)
    (h : (joined (foundStrings d width n 0)).length ≤ size) :
    packSlots d n width size = joined (foundStrings d width n 0) ++
      List.replicate (size - (joined (foundStrings d width n 0)).length) 88 := by
  have hcopy := copySlots_joined [] (i := 0) hsize (by simpa using h)
  simp only [List.length_nil, List.nil_append, Nat.zero_add, Nat.sub_zero] at hcopy
  rw [packSlots, hcopy]
  dsimp only
  rw [fillX, writeAt_zeros, List.length_replicate, Nat.sub_self, List.replicate_zero,
    List.append_nil]

/-- Copying strings never makes a terminator. -/
theorem count_writeAt_le {mem bs : Bytes} (idx : Nat) (hbs : 0 ∉ bs) (hsize : size ≤ mem.length) :
    ((writeAt mem idx bs).take size).count 0 ≤ (mem.take size).count 0 := by
  rcases Nat.le_total size idx with hle | hlt
  · have hhead : size ≤ (mem.take idx).length := by
      rw [List.length_take]
      omega
    rw [writeAt, List.append_assoc, List.take_append_of_le_length hhead, List.take_take,
      Nat.min_eq_left hle]
  · have hidx : (mem.take idx).length = idx := by
      rw [List.length_take]
      omega
    have hnone : (bs.take (size - idx)).count 0 = 0 :=
      List.count_eq_zero.mpr fun h0 => hbs (List.mem_of_mem_take h0)
    have hmem : mem.take size = mem.take idx ++ (mem.drop idx).take (size - idx) := by
      rw [← List.take_add, Nat.add_sub_cancel' hlt]
    have htail : ((mem.drop (idx + bs.length)).take (size - idx - bs.length)).count 0 ≤
        ((mem.drop idx).take (size - idx)).count 0 := by
      rw [← List.drop_drop, ← List.drop_take]
      exact (List.drop_sublist _ _).count_le 0
    rw [writeAt, List.append_assoc, List.take_append, hidx, List.take_append, List.count_append,
      List.count_append, hnone, hmem, List.count_append,
      List.take_of_length_le (Nat.le_trans (Nat.le_of_eq hidx) hlt)]
    omega

theorem count_copySlots_le {idx : Nat} {mem : Bytes} (hsize : size ≤ mem.length) :
    ((copySlots d width k i idx mem).2.take size).count 0 ≤ (mem.take size).count 0 := by
  induction k generalizing i idx mem with
  | zero => exact Nat.le_refl _
  | succ k ih =>
      have hwrite := count_writeAt_le idx (foundString_nulFree d width i) hsize
      have hgrow := le_length_writeAt mem idx (foundString d width i)
      exact Nat.le_trans (ih (Nat.le_trans hsize hgrow)) hwrite

/-- If the strings do not fit then one of the terminators is lost. -/
theorem count_copySlots_lt (as : Bytes) (hsize : size < 2 ^ 32) (has : as.length ≤ size)
    (h : size < as.length + (joined (foundStrings d width k i)).length) :
    ((copySlots d width k i as.length (as ++ List.replicate (size - as.length) 0)).2.take
      size).count 0 < as.count 0 + k := by
  induction k generalizing i as with
  | zero =>
      rw [show (joined (foundStrings d width 0 i)).length = 0 from rfl] at h
      omega
  | succ k ih =>
      rw [foundStrings_succ, length_joined_cons] at h
      have hlen := length_foundString d width i
      have hnul := foundString_nulFree d width i
      rw [copySlots, ← foundString, writeAt_zeros]
      by_cases hfits : as.length + slotLen d width i + 1 ≤ size
      · have hnext : (as ++ (foundString d width i ++ [0])).length =
            as.length + slotLen d width i + 1 := by
          rw [List.length_append, List.length_append, hlen]
          rfl
        have hidx : CInt.toUInt32 (as.length + slotLen d width i + 1 : Nat) =
            (as ++ (foundString d width i ++ [0])).length := by
          rw [hnext, CInt.toUInt32_natCast, Nat.mod_eq_of_lt (by omega)]
        have hzeros : size - as.length - (foundString d width i).length - 1 =
            size - (as ++ (foundString d width i ++ [0])).length := by
          rw [hnext]
          omega
        have hcount : (as ++ (foundString d width i ++ [0])).count 0 = as.count 0 + 1 := by
          rw [List.count_append, List.count_append, List.count_eq_zero.mpr hnul]
          rfl
        have hlt := ih (as ++ (foundString d width i ++ [0])) (i := i + 1)
          (by omega) (by omega)
        rw [terminate _ _ (by omega), hidx, hzeros]
        omega
      · -- this string runs over the end, and the ones after it only write
        have hmem : size ≤ (as ++ (foundString d width i ++
            List.replicate (size - as.length - (foundString d width i).length) 0)).length := by
          simp only [List.length_append, List.length_replicate]
          omega
        have hle : ((copySlots d width k (i + 1)
            (CInt.toUInt32 (as.length + slotLen d width i + 1 : Nat)) _).2.take size).count 0 ≤ _ :=
          count_copySlots_le hmem
        have hnone : ((foundString d width i ++ List.replicate
            (size - as.length - (foundString d width i).length) 0).take
              (size - as.length)).count 0 = 0 := by
          apply List.count_eq_zero.mpr
          rw [show size - as.length - (foundString d width i).length = 0 by omega,
            List.replicate_zero, List.append_nil]
          exact fun h0 => hnul (List.mem_of_mem_take h0)
        rw [List.take_append, List.take_of_length_le has, List.count_append, hnone] at hle
        omega

/-- The strings read from `alt_data` are those found, unless it is too small for them. -/
theorem strings_packSlots (d : Bytes) (width n : Nat) {size : Nat} (hsize : size < 2 ^ 32) :
    if (joined (foundStrings d width n 0)).length ≤ size then
      strings ((packSlots d n width size).take size) = foundStrings d width n 0
    else (strings ((packSlots d n width size).take size)).length < n := by
  split
  · rename_i hfits
    rw [packSlots_joined hsize hfits, List.take_of_length_le (by simp; omega)]
    apply strings_joined foundStrings_nulFree
    intro h0
    exact absurd (List.eq_of_mem_replicate h0) (by decide)
  · rename_i hover
    have hlt := count_copySlots_lt [] (i := 0) hsize (Nat.zero_le size)
      (by simpa using Nat.lt_of_not_le hover)
    have hgrow := le_length_copySlots d width n 0 0 (List.replicate size 0)
    simp only [List.length_nil, List.nil_append, Nat.sub_zero, List.count_nil, Nat.zero_add,
      List.length_replicate] at hlt hgrow
    have hfill : 0 ∉ List.replicate (size - (copySlots d width n 0 0
        (List.replicate size 0)).1) (88 : UInt8) :=
      fun h0 => absurd (List.eq_of_mem_replicate h0) (by decide)
    rw [length_strings]
    exact Nat.lt_of_le_of_lt (count_writeAt_le _ hfill hgrow) hlt

end Copy

end RserveClient
