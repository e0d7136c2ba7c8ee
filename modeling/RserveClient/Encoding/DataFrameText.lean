import RserveClient.Client.DataFrame

/-!
# The columns in the data frame command

The loop that computes the size leaves out the columns of type `XX`; the loop that prints
does not. So the command is the one accounted for only if no column is left out, and the
size is kept in an `int`.
-/

namespace RserveClient

section Columns

variable (names types : Nat → CStr)

/-- The command for the kept columns among the first `n`. -/
def dfCommand (n : Nat) : Bytes :=
  dfHead ++ (dfSep.intercalate (dfColumns names ((List.range n).filter (dfKeeps types))) ++ [41])

/-- The command is the one for the kept columns, and fits the size computed for it with its
terminator. -/
def AccountedFor (n : Nat) (r : DfStr) : Prop :=
  ∃ size text, r = .built size text ∧ text = dfCommand names types n ∧
    ((text.length + 1 : Nat) : Int) ≤ size

/-- Nothing to leave out, or a single nameless column that leaves nothing. -/
def NothingSkipped (n : Nat) : Prop :=
  (∀ i < n, types i ≠ dfSkip) ∨ n = 1 ∧ (names 0).bytes = []

/-- The bytes of the names and of a separator behind each. -/
def dfSpan (is : List Nat) : Nat := (is.map fun i => (names i).bytes.length + 2).sum

theorem length_intercalate_dfColumns {is : List Nat} (hne : is ≠ []) :
    (dfSep.intercalate (dfColumns names is)).length + 2 = dfSpan names is := by
  obtain ⟨i, is, rfl⟩ := List.exists_cons_of_ne_nil hne
  rw [dfColumns_cons, intercalate_cons, List.length_append, dfSpan, List.map_cons, List.sum_cons]
  suffices h : ((dfColumns names is).flatMap fun name => dfSep ++ name).length = dfSpan names is by
    rw [h, dfSpan]
    omega
  clear hne
  induction is with
  | nil => rfl
  | cons j is ih =>
      rw [dfColumns_cons, List.flatMap_cons, List.length_append, ih, List.length_append, dfSpan,
        dfSpan, List.map_cons, List.sum_cons]
      have hsep : dfSep.length = 2 := rfl
      omega

theorem two_mul_length_le_dfSpan (is : List Nat) : 2 * is.length ≤ dfSpan names is := by
  induction is with
  | nil => exact Nat.le_refl 0
  | cons i is ih =>
      rw [dfSpan] at ih ⊢
      rw [List.map_cons, List.sum_cons, List.length_cons]
      omega

theorem dfRoom_eq (is : List Nat) : dfRoom names is = dfSpan names is + 2 * is.length := by
  induction is with
  | nil => rfl
  | cons i is ih =>
      rw [dfRoom, dfSpan] at ih ⊢
      rw [List.map_cons, List.sum_cons, List.map_cons, List.sum_cons, List.length_cons]
      omega

theorem dfSpan_filter_le (is : List Nat) :
    dfSpan names (is.filter (dfKeeps types)) ≤ dfSpan names is := by
  induction is with
  | nil => exact Nat.le_refl 0
  | cons i is ih =>
      rw [dfSpan, dfSpan] at ih ⊢
      by_cases hkeep : dfKeeps types i = true
      · rw [List.filter_cons_of_pos hkeep, List.map_cons, List.sum_cons, List.map_cons,
          List.sum_cons]
        omega
      · rw [List.filter_cons_of_neg hkeep, List.map_cons, List.sum_cons]
        omega

/-- A column that is left out takes its name and a separator with it. -/
theorem dfSpan_filter_lt {is : List Nat} (h : ∃ i ∈ is, types i = dfSkip) :
    dfSpan names (is.filter (dfKeeps types)) < dfSpan names is := by
  induction is with
  | nil =>
      obtain ⟨i, hi, _⟩ := h
      cases hi
  | cons i is ih =>
      have hle := dfSpan_filter_le names types is
      rw [dfSpan, dfSpan] at ih hle ⊢
      by_cases hskip : types i = dfSkip
      · rw [List.filter_cons_of_neg (by simp [dfKeeps, hskip]), List.map_cons, List.sum_cons]
        omega
      · have hrest : ∃ j ∈ is, types j = dfSkip := by
          obtain ⟨j, hj, hjskip⟩ := h
          rcases List.mem_cons.mp hj with rfl | hj
          · exact absurd hjskip hskip
          · exact ⟨j, hj, hjskip⟩
        have hlt := ih hrest
        rw [List.filter_cons_of_pos (by simpa [dfKeeps] using hskip), List.map_cons,
          List.sum_cons, List.map_cons, List.sum_cons]
        omega

theorem filter_dfKeeps_of_none {n : Nat} (h : ∀ i < n, types i ≠ dfSkip) :
    (List.range n).filter (dfKeeps types) = List.range n := by
  apply List.filter_eq_self.mpr
  intro i hi
  simpa [dfKeeps] using h i (List.mem_range.mp hi)

/-- A text that is no longer than the one for the kept columns has nothing left out: a column
that is left out takes more bytes than it saves, unless no column is left. -/
theorem nothingSkipped_of_intercalate_eq {n : Nat}
    (heq : dfSep.intercalate (dfColumns names (List.range (n + 1))) =
      dfSep.intercalate (dfColumns names ((List.range (n + 1)).filter (dfKeeps types)))) :
    NothingSkipped names types (n + 1) := by
  have hrange : List.range (n + 1) ≠ [] := List.ne_nil_of_length_pos (by simp)
  have hall := length_intercalate_dfColumns names hrange
  rw [heq] at hall
  by_cases hskip : ∃ i ∈ List.range (n + 1), types i = dfSkip
  · right
    have hlt := dfSpan_filter_lt names types hskip
    have hempty : (List.range (n + 1)).filter (dfKeeps types) = [] := by
      by_contra hkept
      have hlen := length_intercalate_dfColumns names hkept
      omega
    rw [hempty] at hall
    have htwo := two_mul_length_le_dfSpan names (List.range (n + 1))
    rw [List.length_range, ← hall] at htwo
    obtain rfl : n = 0 := by
      change 2 * (n + 1) ≤ 0 + 2 at htwo
      omega
    refine ⟨rfl, List.length_eq_zero_iff.mp ?_⟩
    change 0 + 2 = (names 0).bytes.length + 2 + 0 at hall
    omega
  · left
    intro i hi hi'
    exact hskip ⟨i, List.mem_range.mpr hi, hi'⟩

theorem intercalate_eq_of_nothingSkipped {n : Nat} (h : NothingSkipped names types (n + 1)) :
    dfSep.intercalate (dfColumns names (List.range (n + 1))) =
      dfSep.intercalate (dfColumns names ((List.range (n + 1)).filter (dfKeeps types))) := by
  rcases h with hkeep | ⟨hone, hempty⟩
  · rw [filter_dfKeeps_of_none types hkeep]
  · obtain rfl : n = 0 := by omega
    have hnames : dfSep.intercalate (dfColumns names (List.range 1)) = [] := by
      calc
        dfSep.intercalate (dfColumns names (List.range 1)) = (names 0).bytes :=
          List.intercalate_singleton
        _ = [] := hempty
    rw [hnames]
    by_cases hkeep : dfKeeps types 0 = true
    · have hfilter : (List.range 1).filter (dfKeeps types) = List.range 1 :=
        List.filter_cons_of_pos hkeep
      rw [hfilter, hnames]
    · have hfilter : (List.range 1).filter (dfKeeps types) = [] :=
        List.filter_cons_of_neg hkeep
      rw [hfilter]
      rfl

/-- With nothing skipped the text fits the count by 32 bytes and two for each column. -/
theorem dfSpan_le_dfCount {n : Nat} (h : NothingSkipped names types (n + 1)) :
    dfSpan names (List.range (n + 1)) + 19 ≤ dfCount names types (n + 1) ∧
      dfCount names types (n + 1) ≤ dfSpan names (List.range (n + 1)) + 51 + 2 * (n + 1) := by
  rw [dfCount]
  rcases h with hkeep | ⟨hone, hempty⟩
  · rw [filter_dfKeeps_of_none types hkeep, dfRoom_eq, List.length_range]
    omega
  · obtain rfl : n = 0 := by omega
    have hspan : dfSpan names (List.range 1) = 2 := by
      change (names 0).bytes.length + 2 + 0 = 2
      rw [hempty]
      rfl
    have hle := dfSpan_filter_le names types (List.range 1)
    have hlen := List.length_filter_le (dfKeeps types) (List.range 1)
    rw [List.length_range] at hlen
    rw [Nat.zero_add, dfRoom_eq]
    omega

/-- The command built is the one accounted for exactly if no column is left out, or a single
one without a name, and the size counted can be kept in an `int`. -/
theorem mkDfStr_accounted_iff (names types : Nat → CStr) (ncols : Int32)
    (hncols : 1 ≤ ncols.toInt) :
    AccountedFor names types ncols.toInt.toNat
        (mkDfStr (some fun i => some (names i)) (some fun i => some (types i)) ncols) ↔
      NothingSkipped names types ncols.toInt.toNat ∧
        dfCount names types ncols.toInt.toNat < 2 ^ 31 := by
  obtain ⟨n, hn⟩ : ∃ n : Nat, ncols.toInt = (n + 1 : Nat) := ⟨ncols.toInt.toNat - 1, by omega⟩
  have hint : n + 1 < 2 ^ 31 := by
    have := ncols.toInt_lt
    omega
  rw [mkDfStr_eq names types hn, hn, Int.toNat_natCast]
  have hrange : List.range (n + 1) ≠ [] := List.ne_nil_of_length_pos (by simp)
  have hlen := length_intercalate_dfColumns names hrange
  constructor
  · rintro ⟨size, text, hbuilt, htext, hfits⟩
    by_cases hmem : ptrdiffMax < CInt.toSizeT (CInt.toInt (dfCount names types (n + 1)))
    · rw [if_pos hmem] at hbuilt
      cases hbuilt
    · rw [if_neg hmem] at hbuilt
      obtain ⟨rfl, rfl⟩ := DfStr.built.inj hbuilt
      rw [dfCommand, List.append_assoc] at htext
      have hnames := List.append_cancel_right (List.append_cancel_left htext)
      have hskip := nothingSkipped_of_intercalate_eq names types hnames
      refine ⟨hskip, ?_⟩
      -- a count that wrapped is at least `2 ^ 32` too small, more than its slack
      have hcount := dfSpan_le_dfCount names types hskip
      have htwo := two_mul_length_le_dfSpan names (List.range (n + 1))
      rw [List.length_range] at htwo
      simp only [List.length_append, List.length_singleton] at hfits
      have hhead : dfHead.length = 19 := rfl
      unfold CInt.toInt at hfits
      omega
  · rintro ⟨hskip, hcount⟩
    have hbounds := dfSpan_le_dfCount names types hskip
    have hint : CInt.toInt (dfCount names types (n + 1)) = dfCount names types (n + 1) :=
      CInt.toInt_eq (by omega) (by omega)
    rw [hint, CInt.toSizeT_natCast (by omega), if_neg (by unfold ptrdiffMax; omega)]
    refine ⟨_, _, rfl, ?_, ?_⟩
    · rw [dfCommand, intercalate_eq_of_nothingSkipped names types hskip, List.append_assoc]
    · have hhead : dfHead.length = 19 := rfl
      simp only [List.length_append, List.length_singleton]
      omega

end Columns

/-- Every column is named `a`. -/
def namedA : Nat → CStr := fun _ => ⟨[97], by decide⟩

/-- Every column has type `F8`. -/
def typedF8 : Nat → CStr := fun _ => ⟨[70, 56], by decide⟩

theorem mkDfStr_accounted_iff_two :
    AccountedFor namedA typedF8 (2 : Int32).toInt.toNat
        (mkDfStr (some fun i => some (namedA i)) (some fun i => some (typedF8 i)) 2) ↔
      NothingSkipped namedA typedF8 (2 : Int32).toInt.toNat ∧
        dfCount namedA typedF8 (2 : Int32).toInt.toNat < 2 ^ 31 :=
  mkDfStr_accounted_iff namedA typedF8 2 (by decide)

/-- The first column is left out. -/
def firstSkipped : Nat → CStr := fun i => if i = 0 then dfSkip else typedF8 i

/-- The name of a column that is left out is printed too. -/
theorem skipped_column_printed :
    ¬ AccountedFor namedA firstSkipped 2
      (mkDfStr (some fun i => some (namedA i)) (some fun i => some (firstSkipped i)) 2) := by
  rintro ⟨size, text, hbuilt, rfl, _⟩
  have hrun : mkDfStr (some fun i => some (namedA i)) (some fun i => some (firstSkipped i)) 2 =
      .built 56 (dfHead ++ [97, 44, 32, 97, 41]) := by decide
  rw [hrun] at hbuilt
  have htext := (DfStr.built.inj hbuilt).2
  revert htext
  decide

end RserveClient
