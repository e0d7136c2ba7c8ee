import Mathlib.Tactic.Common

/-!
# Streams that arrive in pieces

What the successive reads of a stream meet: nonempty pieces of it, and faults
at which a read fails without taking anything. The list ends where the stream
is closed. One read takes at most one piece and pushes back what it did not
ask for, so every way of cutting a stream into reads is a list of arrivals.
-/

/-- A nonempty piece of the stream, or a failing read. -/
inductive Arrival (α : Type) where
  | piece (a : α) (as : List α)
  | fault
  deriving DecidableEq, Repr

namespace Arrivals

variable {α : Type}

/-- Everything the stream still brings. -/
def elems : List (Arrival α) → List α
  | [] => []
  | .piece a as :: s => a :: as ++ elems s
  | .fault :: s => elems s

/-- What arrives before the next fault. -/
def avail : List (Arrival α) → List α
  | [] => []
  | .piece a as :: s => a :: as ++ avail s
  | .fault :: _ => []

/-- The piece the next read meets. -/
def front : List (Arrival α) → List α
  | .piece a as :: _ => a :: as
  | _ => []

/-- A stream on which no read fails. -/
def Clean (s : List (Arrival α)) : Prop := Arrival.fault ∉ s

instance [DecidableEq α] (s : List (Arrival α)) : Decidable (Clean s) :=
  inferInstanceAs (Decidable (Arrival.fault ∉ s))

/-- Put the rest of a piece back in front of the stream. -/
def pushBack : List α → List (Arrival α) → List (Arrival α)
  | [], s => s
  | a :: as, s => .piece a as :: s

/-- One read of at most `k` elements: `none` is a failed read and the empty
list the end of the stream. -/
def read (k : Nat) : List (Arrival α) → Option (List α) × List (Arrival α)
  | [] => (some [], [])
  | .fault :: s => (none, s)
  | .piece a as :: s => (some ((a :: as).take k), pushBack ((a :: as).drop k) s)

/-- How a sequence of reads for a given number of elements ends. -/
inductive Stop where
  | whole
  | closed
  | fault
  deriving DecidableEq, Repr

/-- Read again and again until `n` elements have come. -/
def readAll : Nat → List (Arrival α) → Stop × List α × List (Arrival α)
  | 0, s => (.whole, [], s)
  | _ + 1, [] => (.closed, [], [])
  | _ + 1, .fault :: s => (.fault, [], s)
  | n + 1, .piece a as :: s =>
      if n + 1 ≤ as.length + 1 then
        (.whole, (a :: as).take (n + 1), pushBack ((a :: as).drop (n + 1)) s)
      else
        let r := readAll (n + 1 - (as.length + 1)) s
        (r.1, a :: as ++ r.2.1, r.2.2)

/-- The stream after its next `n` elements. -/
def skip (n : Nat) (s : List (Arrival α)) : List (Arrival α) := (readAll n s).2.2

/-- How a read that asks for more than is available ends. -/
def stop : List (Arrival α) → Stop
  | [] => .closed
  | .piece _ _ :: s => stop s
  | .fault :: _ => .fault

/-- The stream after the next fault. -/
def afterFault : List (Arrival α) → List (Arrival α)
  | [] => []
  | .piece _ _ :: s => afterFault s
  | .fault :: s => s

@[simp] theorem pushBack_nil (s : List (Arrival α)) : pushBack [] s = s := rfl

@[simp] theorem elems_pushBack (as : List α) (s : List (Arrival α)) :
    elems (pushBack as s) = as ++ elems s := by
  cases as <;> rfl

@[simp] theorem avail_pushBack (as : List α) (s : List (Arrival α)) :
    avail (pushBack as s) = as ++ avail s := by
  cases as <;> rfl

@[simp] theorem elems_append (s t : List (Arrival α)) : elems (s ++ t) = elems s ++ elems t := by
  induction s with
  | nil => rfl
  | cons e s ih => cases e <;> simp [elems, ih]

theorem Clean.append {s t : List (Arrival α)} (hs : Clean s) (ht : Clean t) : Clean (s ++ t) := by
  intro hmem
  rcases List.mem_append.mp hmem with h | h
  · exact hs h
  · exact ht h

theorem Clean.tail {e : Arrival α} {s : List (Arrival α)} (h : Clean (e :: s)) :
    Clean s := fun hs => h (List.mem_cons_of_mem e hs)

theorem Clean.pushBack {as : List α} {s : List (Arrival α)} (h : Clean s) :
    Clean (pushBack as s) := by
  cases as with
  | nil => exact h
  | cons a as =>
      intro hmem
      rcases List.mem_cons.mp hmem with heq | htail
      · cases heq
      · exact h htail

theorem Clean.avail_eq {s : List (Arrival α)} (h : Clean s) : avail s = elems s := by
  induction s with
  | nil => rfl
  | cons e s ih =>
      cases e with
      | piece a as => simp only [avail, elems, ih h.tail]
      | fault => exact absurd (List.mem_cons_self) h

theorem length_avail_le (s : List (Arrival α)) : (avail s).length ≤ (elems s).length := by
  induction s with
  | nil => exact Nat.le_refl 0
  | cons e s ih =>
      cases e with
      | piece a as =>
          simp only [avail, elems, List.length_append]
          exact Nat.add_le_add_left ih _
      | fault => exact Nat.zero_le _

@[simp] theorem readAll_zero (s : List (Arrival α)) :
    readAll 0 s = (.whole, [], s) := by
  cases s <;> rfl

@[simp] theorem skip_zero (s : List (Arrival α)) : skip 0 s = s := by
  simp [skip]

/-- The piece in front holds all that is asked for. -/
theorem readAll_piece_le {n : Nat} {a : α} {as : List α} (s : List (Arrival α))
    (h : n ≤ as.length + 1) :
    readAll n (.piece a as :: s) =
      (.whole, (a :: as).take n, pushBack ((a :: as).drop n) s) := by
  cases n with
  | zero => simp [pushBack]
  | succ n => simp only [readAll, if_pos h]

/-- The piece in front is used up and more is asked for. -/
theorem readAll_piece_gt {n : Nat} {a : α} {as : List α} (s : List (Arrival α))
    (h : as.length + 1 < n) :
    readAll n (.piece a as :: s) =
      ((readAll (n - (as.length + 1)) s).1,
        a :: as ++ (readAll (n - (as.length + 1)) s).2.1,
        skip (n - (as.length + 1)) s) := by
  cases n with
  | zero => omega
  | succ n => simp only [readAll, if_neg (Nat.not_le.mpr h), skip]

theorem skip_piece_le {n : Nat} {a : α} {as : List α} (s : List (Arrival α))
    (h : n ≤ as.length + 1) :
    skip n (.piece a as :: s) = pushBack ((a :: as).drop n) s := by
  rw [skip, readAll_piece_le s h]

theorem skip_piece_gt {n : Nat} {a : α} {as : List α} (s : List (Arrival α))
    (h : as.length + 1 < n) :
    skip n (.piece a as :: s) = skip (n - (as.length + 1)) s := by
  rw [skip, readAll_piece_gt s h]

/-- Enough elements before the next fault: exactly the next `n` are taken. -/
theorem readAll_whole {n : Nat} {s : List (Arrival α)} (h : n ≤ (avail s).length) :
    readAll n s = (.whole, (avail s).take n, skip n s) := by
  induction s generalizing n with
  | nil =>
      have hn : n = 0 := by simpa [avail] using h
      subst n
      simp
  | cons e s ih =>
      cases e with
      | fault =>
          have hn : n = 0 := by simpa [avail] using h
          subst n
          simp
      | piece a as =>
          simp only [avail, List.length_append, List.length_cons] at h
          rcases Nat.lt_or_ge (as.length + 1) n with hn | hn
          · have hs := ih (n := n - (as.length + 1)) (by omega)
            have ht : (a :: as).take n = a :: as :=
              List.take_of_length_le (by simpa using Nat.le_of_lt hn)
            rw [readAll_piece_gt s hn, skip_piece_gt s hn, hs, avail, List.take_append,
              ht, List.length_cons]
          · rw [readAll_piece_le s hn, skip_piece_le s hn, avail,
              List.take_append_of_le_length (by simpa using hn)]

/-- Too few elements before the next fault or the end: all of them are taken. -/
theorem readAll_short {n : Nat} {s : List (Arrival α)} (h : (avail s).length < n) :
    readAll n s = (stop s, avail s, afterFault s) := by
  induction s generalizing n with
  | nil =>
      cases n with
      | zero => simp at h
      | succ n => rfl
  | cons e s ih =>
      cases e with
      | fault =>
          cases n with
          | zero => simp at h
          | succ n => rfl
      | piece a as =>
          simp only [avail, List.length_append, List.length_cons] at h
          have hs := ih (n := n - (as.length + 1)) (by omega)
          rw [readAll_piece_gt s (by omega), skip, hs]
          rfl

theorem stop_ne_whole (s : List (Arrival α)) : stop s ≠ .whole := by
  induction s with
  | nil => simp [stop]
  | cons e s ih => cases e <;> simp [stop, ih]

theorem avail_skip {n : Nat} {s : List (Arrival α)} (h : n ≤ (avail s).length) :
    avail (skip n s) = (avail s).drop n := by
  induction s generalizing n with
  | nil =>
      have hn : n = 0 := by simpa [avail] using h
      subst n
      simp
  | cons e s ih =>
      cases e with
      | fault =>
          have hn : n = 0 := by simpa [avail] using h
          subst n
          simp
      | piece a as =>
          simp only [avail, List.length_append, List.length_cons] at h
          rcases Nat.lt_or_ge (as.length + 1) n with hn | hn
          · have hd : (a :: as).drop n = [] :=
              List.drop_eq_nil_of_le (by simpa using Nat.le_of_lt hn)
            rw [skip_piece_gt s hn, ih (by omega), avail, List.drop_append, hd,
              List.nil_append, List.length_cons]
          · rw [skip_piece_le s hn, avail_pushBack, avail,
              List.drop_append_of_le_length (by simpa using hn)]

/-- Skipping takes the elements off the front of the whole stream. -/
theorem elems_skip {n : Nat} {s : List (Arrival α)} (h : n ≤ (avail s).length) :
    elems (skip n s) = (elems s).drop n := by
  induction s generalizing n with
  | nil =>
      have hn : n = 0 := by simpa [avail] using h
      subst n
      simp
  | cons e s ih =>
      cases e with
      | fault =>
          have hn : n = 0 := by simpa [avail] using h
          subst n
          simp
      | piece a as =>
          simp only [avail, List.length_append, List.length_cons] at h
          rcases Nat.lt_or_ge (as.length + 1) n with hn | hn
          · have hd : (a :: as).drop n = [] :=
              List.drop_eq_nil_of_le (by simpa using Nat.le_of_lt hn)
            rw [skip_piece_gt s hn, ih (by omega), elems, List.drop_append, hd,
              List.nil_append, List.length_cons]
          · rw [skip_piece_le s hn, elems_pushBack, elems,
              List.drop_append_of_le_length (by simpa using hn)]

/-- Skipping part of a piece that was pushed back. -/
theorem skip_pushBack {m : Nat} (as : List α) (s : List (Arrival α)) :
    skip m (pushBack as s) =
      if m ≤ as.length then pushBack (as.drop m) s else skip (m - as.length) s := by
  cases as with
  | nil =>
      rcases Nat.eq_zero_or_pos m with rfl | hm
      · simp
      · rw [if_neg (by simpa using Nat.pos_iff_ne_zero.mp hm)]
        simp
  | cons a as =>
      rw [pushBack]
      split
      · rw [skip_piece_le s ‹_›]
      · rename_i hm
        rw [skip_piece_gt s (Nat.lt_of_not_le hm), List.length_cons]

/-- Two skips in a row are one. -/
theorem skip_skip {n m : Nat} {s : List (Arrival α)} (h : n + m ≤ (avail s).length) :
    skip m (skip n s) = skip (n + m) s := by
  induction s generalizing n with
  | nil =>
      have hn : n + m = 0 := by simpa [avail] using h
      obtain ⟨rfl, rfl⟩ : n = 0 ∧ m = 0 := by omega
      simp
  | cons e s ih =>
      cases e with
      | fault =>
          have hn : n + m = 0 := by simpa [avail] using h
          obtain ⟨rfl, rfl⟩ : n = 0 ∧ m = 0 := by omega
          simp
      | piece a as =>
          simp only [avail, List.length_append, List.length_cons] at h
          rcases Nat.lt_or_ge (as.length + 1) n with hn | hn
          · rw [skip_piece_gt s hn, ih (by omega), skip_piece_gt s (by omega)]
            congr 1
            omega
          · rw [skip_piece_le s hn, skip_pushBack, List.drop_drop]
            simp only [List.length_drop, List.length_cons]
            split
            · rw [skip_piece_le s (by omega)]
            · rw [skip_piece_gt s (by omega)]
              congr 1
              omega

theorem Clean.skip {n : Nat} {s : List (Arrival α)} (h : Clean s) : Clean (skip n s) := by
  induction s generalizing n with
  | nil => cases n <;> simpa [Arrivals.skip, readAll] using h
  | cons e s ih =>
      cases e with
      | fault => exact absurd List.mem_cons_self h
      | piece a as =>
          rcases Nat.lt_or_ge (as.length + 1) n with hn | hn
          · rw [skip_piece_gt s hn]
            exact ih h.tail
          · rw [skip_piece_le s hn]
            exact h.tail.pushBack

/-- Skipping inside what is available passes no fault. -/
theorem fault_mem_skip {n : Nat} {s : List (Arrival α)} (h : n ≤ (avail s).length)
    (hfault : Arrival.fault ∈ s) : Arrival.fault ∈ Arrivals.skip n s := by
  induction s generalizing n with
  | nil => cases hfault
  | cons e s ih =>
      cases e with
      | fault =>
          have hn : n = 0 := by simpa [avail] using h
          subst n
          rwa [skip_zero]
      | piece a as =>
          have htail : Arrival.fault ∈ s := by simpa using hfault
          simp only [avail, List.length_append, List.length_cons] at h
          rcases Nat.lt_or_ge (as.length + 1) n with hn | hn
          · rw [skip_piece_gt s hn]
            exact ih (by omega) htail
          · rw [skip_piece_le s hn]
            cases hdrop : (a :: as).drop n with
            | nil => exact htail
            | cons b bs => exact List.mem_cons_of_mem _ htail

theorem front_prefix_avail (s : List (Arrival α)) : front s <+: avail s := by
  cases s with
  | nil => simp [front, avail]
  | cons e s => cases e <;> simp [front, avail]

theorem length_front_le (s : List (Arrival α)) : (front s).length ≤ (avail s).length :=
  (front_prefix_avail s).length_le

/-- Where anything is available there is a piece in front. -/
theorem front_pos {s : List (Arrival α)} (h : 0 < (avail s).length) : 0 < (front s).length := by
  cases s with
  | nil => exact h
  | cons e s =>
      cases e with
      | piece a as => exact Nat.succ_pos _
      | fault => exact h

@[simp] theorem front_pushBack (as : List α) : front (pushBack as []) = as := by
  cases as <;> rfl

/-- What is left of the piece in front stays there. -/
theorem front_skip {n : Nat} {s : List (Arrival α)} (h : n < (front s).length) :
    front (skip n s) = (front s).drop n := by
  cases s with
  | nil => exact absurd h (Nat.not_lt_zero n)
  | cons e s =>
      cases e with
      | fault => exact absurd h (Nat.not_lt_zero n)
      | piece a as =>
          have hlt : n < (a :: as).length := h
          rw [skip_piece_le s (Nat.le_of_lt hlt), front]
          obtain ⟨b, bs, hdrop⟩ := List.exists_cons_of_length_pos
            (show 0 < ((a :: as).drop n).length by rw [List.length_drop]; omega)
          rw [hdrop]
          rfl

/-- One read gets all it asks for exactly when the piece in front holds it. -/
theorem read_whole {k : Nat} {s : List (Arrival α)} (hpos : 0 < k)
    (h : k ≤ (front s).length) : read k s = (some ((avail s).take k), skip k s) := by
  cases s with
  | nil => exact absurd (Nat.lt_of_lt_of_le hpos h) (by simp [front])
  | cons e s =>
      cases e with
      | fault => exact absurd (Nat.lt_of_lt_of_le hpos h) (by simp [front])
      | piece a as =>
          have hk : k ≤ as.length + 1 := h
          rw [read, skip_piece_le s hk, avail, List.take_append_of_le_length (by simpa using hk)]

/-- A read that meets a smaller piece takes that piece. -/
theorem read_part {k : Nat} {s : List (Arrival α)} (hpos : 0 < (front s).length)
    (h : (front s).length ≤ k) : read k s = (some (front s), skip (front s).length s) := by
  cases s with
  | nil => simp [front] at hpos
  | cons e s =>
      cases e with
      | fault => simp [front] at hpos
      | piece a as =>
          have hk : (a :: as).length ≤ k := h
          rw [read, front, skip_piece_le s (by simp), List.take_of_length_le hk,
            List.drop_of_length_le hk, List.drop_length]

/-- A read that meets a piece takes as much of it as it asks for. -/
theorem read_front {k : Nat} {s : List (Arrival α)} (hpos : 0 < k)
    (hfront : 0 < (front s).length) :
    read k s = (some ((avail s).take (min k (front s).length)),
      skip (min k (front s).length) s) := by
  rcases Nat.le_total k (front s).length with hle | hle
  · rw [Nat.min_eq_left hle, read_whole hpos hle]
  · rw [Nat.min_eq_right hle, read_part hfront hle,
      ← List.prefix_iff_eq_take.mp (front_prefix_avail s)]

/-- A read that meets no piece fails or finds the end. -/
theorem read_none {k : Nat} {s : List (Arrival α)} (h : (front s).length = 0) :
    read k s = (some [], s) ∨ read k s = (none, afterFault s) := by
  cases s with
  | nil => exact Or.inl rfl
  | cons e s =>
      cases e with
      | fault => exact Or.inr rfl
      | piece a as => simp [front] at h

theorem Clean.stop_eq {s : List (Arrival α)} (h : Clean s) : stop s = .closed := by
  induction s with
  | nil => rfl
  | cons e s ih =>
      cases e with
      | piece a as => exact ih h.tail
      | fault => exact absurd List.mem_cons_self h

theorem Clean.afterFault_eq {s : List (Arrival α)} (h : Clean s) : afterFault s = [] := by
  induction s with
  | nil => rfl
  | cons e s ih =>
      cases e with
      | piece a as => exact ih h.tail
      | fault => exact absurd List.mem_cons_self h

/-- Without faults only the end of the stream has no piece in front. -/
theorem Clean.front_eq_nil_iff {s : List (Arrival α)} (h : Clean s) :
    (front s).length = 0 ↔ elems s = [] := by
  cases s with
  | nil => exact ⟨fun _ => rfl, fun _ => rfl⟩
  | cons e s =>
      cases e with
      | piece a as => simp [front, elems]
      | fault => exact absurd List.mem_cons_self h

theorem clean_nil : Clean ([] : List (Arrival α)) := List.not_mem_nil

/-- The same elements come, without faults, in whatever pieces. -/
structure SameElems (s s' : List (Arrival α)) : Prop where
  clean : Clean s
  clean' : Clean s'
  elems : elems s = elems s'

theorem SameElems.avail {s s' : List (Arrival α)} (h : SameElems s s') : avail s = avail s' := by
  rw [h.clean.avail_eq, h.clean'.avail_eq, h.elems]

theorem SameElems.skip {n : Nat} {s s' : List (Arrival α)} (h : SameElems s s')
    (hn : n ≤ (Arrivals.avail s).length) : SameElems (skip n s) (skip n s') := by
  refine ⟨h.clean.skip, h.clean'.skip, ?_⟩
  rw [elems_skip hn, elems_skip (h.avail ▸ hn), h.elems]

theorem SameElems.append {s s' t t' : List (Arrival α)} (hs : SameElems s s')
    (ht : SameElems t t') : SameElems (s ++ t) (s' ++ t') := by
  refine ⟨hs.clean.append ht.clean, hs.clean'.append ht.clean', ?_⟩
  rw [elems_append, elems_append, hs.elems, ht.elems]

/-- Repeated reading gets the same elements out of the same stream. -/
theorem SameElems.readAll (n : Nat) {s s' : List (Arrival α)} (h : SameElems s s') :
    (readAll n s).1 = (readAll n s').1 ∧ (readAll n s).2.1 = (readAll n s').2.1 ∧
      SameElems (readAll n s).2.2 (readAll n s').2.2 := by
  rcases Nat.lt_or_ge (Arrivals.avail s).length n with hlt | hle
  · rw [readAll_short hlt, readAll_short (h.avail ▸ hlt), h.clean.stop_eq, h.clean'.stop_eq,
      h.clean.afterFault_eq, h.clean'.afterFault_eq, h.avail]
    exact ⟨rfl, rfl, clean_nil, clean_nil, rfl⟩
  · rw [readAll_whole hle, readAll_whole (h.avail ▸ hle), h.avail]
    exact ⟨rfl, rfl, h.skip hle⟩

/-- A single read does so where it meets pieces of one size, as far as it asks. -/
theorem SameElems.read {k : Nat} {s s' : List (Arrival α)} (h : SameElems s s') (hpos : 0 < k)
    (hfront : min k (front s).length = min k (front s').length) :
    (read k s).1 = (read k s').1 ∧ SameElems (read k s).2 (read k s').2 := by
  rcases Nat.eq_zero_or_pos (front s).length with hnone | hsome
  · have helems := h.clean.front_eq_nil_iff.mp hnone
    have hnone' := h.clean'.front_eq_nil_iff.mpr (h.elems.symm.trans helems)
    cases s with
    | nil =>
        cases s' with
        | nil => exact ⟨rfl, clean_nil, clean_nil, rfl⟩
        | cons e s' =>
            cases e with
            | piece a as => simp [front] at hnone'
            | fault => exact absurd List.mem_cons_self h.clean'
    | cons e s =>
        cases e with
        | piece a as => simp [front] at hnone
        | fault => exact absurd List.mem_cons_self h.clean
  · have hle := length_front_le s
    rw [read_front hpos hsome, read_front hpos (by omega), ← hfront, h.avail]
    exact ⟨rfl, h.skip (by omega)⟩

/-- A read takes from the stream what it meets in front. -/
theorem length_elems_read {k : Nat} {s : List (Arrival α)} (h : Clean s) :
    (elems (read k s).2).length + min k (front s).length = (elems s).length := by
  cases s with
  | nil => simp [read, front, elems]
  | cons e s =>
      cases e with
      | piece a as =>
          simp only [read, front, elems, elems_pushBack, List.length_append, List.length_drop,
            List.length_cons]
          omega
      | fault => exact absurd List.mem_cons_self h

theorem length_elems_read_le (k : Nat) (s : List (Arrival α)) :
    (elems (read k s).2).length ≤ (elems s).length := by
  cases s with
  | nil => exact Nat.le_refl 0
  | cons e s =>
      cases e with
      | piece a as =>
          simp only [read, elems, elems_pushBack, List.length_append, List.length_drop]
          omega
      | fault => exact Nat.le_refl _

/-- The number of elements a stream has lost on the way to another. -/
def consumed (s t : List (Arrival α)) : Nat := (elems s).length - (elems t).length

theorem consumed_skip {n : Nat} {s : List (Arrival α)} (h : n ≤ (avail s).length) :
    consumed s (skip n s) = n := by
  have hle := length_avail_le s
  rw [consumed, elems_skip h, List.length_drop]
  omega

end Arrivals
