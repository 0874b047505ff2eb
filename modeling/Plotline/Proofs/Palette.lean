import Mathlib.Algebra.BigOperators.Fin
import Mathlib.Data.Int.ModEq
import Mathlib.Tactic.Linarith
import Mathlib.Tactic.Ring
import Plotline.Palette

/-!
# The hash of a text

Only the shifted operand is cut to 32 bits, so the accumulator grows beyond them: a step keeps two facts of it, what it
is modulo 2³² and how large it may be.

* `Utf16`: the UTF-16 units of a text; `utf16_iff`: `units` gives them, and no others.
* `hashStep_modEq`, `abs_hashStep_le`: one step; `foldl_hashStep_modEq`, `abs_foldl_hashStep_le`: a run over units.
* `accumulator`: the hash after so many units; `hash_of_units`: what the hash of a text is and how large it gets.
-/

namespace Plotline.Palette

/-! ## Units -/

/-- The UTF-16 units of a text: a character below U+10000 is one unit, any other a high and a low surrogate with ten
bits each of what it is beyond U+10000. -/
inductive Utf16 : List Char → List Nat → Prop
  | nil : Utf16 [] []
  | single {c s us} : c.toNat < 0x10000 → Utf16 s us → Utf16 (c :: s) (c.toNat :: us)
  | pair {c s us high low} : high < 0x400 → low < 0x400 → c.toNat = 0x10000 + 0x400 * high + low → Utf16 s us →
      Utf16 (c :: s) ((0xD800 + high) :: (0xDC00 + low) :: us)

theorem utf16_units : ∀ s : List Char, Utf16 s (s.flatMap units)
  | [] => .nil
  | c :: s => by
    rw [List.flatMap_cons, units]
    by_cases hc : c.toNat < 0x10000
    · rw [if_pos hc]
      exact .single hc (utf16_units s)
    · rw [if_neg hc]
      -- no character is beyond U+10FFFF, so the upper part has ten bits as well
      have hvalid : c.toNat < 0xD800 ∨ 0xDFFF < c.toNat ∧ c.toNat < 0x110000 := c.valid
      exact .pair (by omega) (by omega) (by omega) (utf16_units s)

theorem utf16_iff {s : List Char} {us : List Nat} : Utf16 s us ↔ us = s.flatMap units := by
  refine ⟨fun h => ?_, fun h => h ▸ utf16_units s⟩
  induction h with
  | nil => rfl
  | single hc _ ih => rw [List.flatMap_cons, units, if_pos hc, ih, List.singleton_append]
  | @pair c s us high low hhigh hlow hc _ ih =>
      have hbeyond : ¬ c.toNat < 0x10000 := by omega
      have hquotient : (c.toNat - 0x10000) / 0x400 = high := by omega
      have hremainder : (c.toNat - 0x10000) % 0x400 = low := by omega
      rw [List.flatMap_cons, units, if_neg hbeyond, hquotient, hremainder, ih]
      rfl

theorem Utf16.le {s : List Char} {us : List Nat} (h : Utf16 s us) : ∀ u ∈ us, u ≤ 65535 := by
  induction h with
  | nil => simp
  | single hc _ ih =>
      rw [List.forall_mem_cons]
      exact ⟨by omega, ih⟩
  | pair hhigh hlow _ _ ih =>
      rw [List.forall_mem_cons, List.forall_mem_cons]
      exact ⟨by omega, by omega, ih⟩

/-! ## One step -/

theorem low32_modEq (v : ℤ) : low32 v ≡ v [ZMOD 2 ^ 32] := Int.bmod_emod

theorem abs_low32_le (v : ℤ) : |low32 v| ≤ 2 ^ 31 := by
  have hle : -(((4294967296 : ℕ) : ℤ) / 2) ≤ low32 v := Int.le_bmod (by decide)
  have hlt : low32 v < (((4294967296 : ℕ) : ℤ) + 1) / 2 := Int.bmod_lt (by decide)
  rw [abs_le]
  omega

theorem hashStep_modEq (h : ℤ) (u : ℕ) : hashStep h u ≡ 31 * h + u [ZMOD 2 ^ 32] :=
  calc (u : ℤ) + (low32 (low32 h * 32) - h)
      ≡ u + (low32 h * 32 - h) [ZMOD 2 ^ 32] := ((low32_modEq _).sub_right h).add_left u
    _ ≡ u + (h * 32 - h) [ZMOD 2 ^ 32] := (((low32_modEq h).mul_right 32).sub_right h).add_left u
    _ = 31 * h + u := by ring

theorem abs_shifted_sub_le (h : ℤ) : |low32 (low32 h * 32) - h| ≤ 2 ^ 31 + |h| :=
  (abs_sub _ _).trans (Int.add_le_add_right (abs_low32_le _) _)

/-- A step takes the accumulator away from zero by no more than the cut operand and the unit. -/
theorem abs_hashStep_le (h : ℤ) {u : ℕ} (hu : u ≤ 65535) : |hashStep h u| ≤ |h| + (2 ^ 31 + 65535) := by
  have hsum : |hashStep h u| ≤ |(u : ℤ)| + |low32 (low32 h * 32) - h| := abs_add_le _ _
  have hshifted := abs_shifted_sub_le h
  rw [Nat.abs_cast] at hsum
  omega

/-! ## A run of steps -/

-- For any start, which the recursion needs: each unit multiplies by 31 what was there before it.
theorem foldl_hashStep_modEq : ∀ (us : List ℕ) (h : ℤ), us.foldl hashStep h ≡
    31 ^ us.length * h + ∑ i : Fin us.length, (us[i] : ℤ) * 31 ^ (us.length - 1 - i) [ZMOD 2 ^ 32]
  | [], h => by simp [Int.ModEq]
  | u :: us, h => by
    have hsum : ∑ i : Fin (u :: us).length, ((u :: us)[i] : ℤ) * 31 ^ ((u :: us).length - 1 - i) =
        u * 31 ^ us.length + ∑ i : Fin us.length, (us[i] : ℤ) * 31 ^ (us.length - 1 - i) := by
      refine (Fin.sum_univ_succ _).trans (congrArg (_ + ·) (Finset.sum_congr rfl fun i _ => ?_))
      show (us[i] : ℤ) * 31 ^ (us.length + 1 - 1 - (i.val + 1)) = us[i] * 31 ^ (us.length - 1 - i)
      rw [show us.length + 1 - 1 - (i.val + 1) = us.length - 1 - i by omega]
    calc us.foldl hashStep (hashStep h u)
        ≡ 31 ^ us.length * hashStep h u + ∑ i : Fin us.length, (us[i] : ℤ) * 31 ^ (us.length - 1 - i) [ZMOD 2 ^ 32] :=
          foldl_hashStep_modEq us _
      _ ≡ 31 ^ us.length * (31 * h + u) + ∑ i : Fin us.length, (us[i] : ℤ) * 31 ^ (us.length - 1 - i) [ZMOD 2 ^ 32] :=
          ((hashStep_modEq h u).mul_left _).add_right _
      _ = 31 ^ (u :: us).length * h +
          ∑ i : Fin (u :: us).length, ((u :: us)[i] : ℤ) * 31 ^ ((u :: us).length - 1 - i) := by
          rw [hsum, List.length_cons]
          ring

theorem abs_foldl_hashStep_le : ∀ {us : List ℕ} (_ : ∀ u ∈ us, u ≤ 65535) (h : ℤ),
    |us.foldl hashStep h| ≤ |h| + us.length * (2 ^ 31 + 65535)
  | [], _, h => by simp
  | u :: us, hus, h => by
    rw [List.forall_mem_cons] at hus
    have hstep := abs_hashStep_le h hus.1
    have hrun := abs_foldl_hashStep_le hus.2 (hashStep h u)
    rw [List.foldl_cons, List.length_cons]
    push_cast
    linarith

/-- The hash after the first `k` units. -/
def accumulator (us : List ℕ) (k : ℕ) : ℤ := (us.take k).foldl hashStep 0

theorem hash_eq_accumulator {s : List Char} {us : List ℕ} (h : Utf16 s us) : hash s = accumulator us us.length := by
  rw [hash, ← utf16_iff.1 h, accumulator, List.take_length]

theorem abs_accumulator_le {us : List ℕ} (hus : ∀ u ∈ us, u ≤ 65535) {k : ℕ} (hk : k ≤ us.length) :
    |accumulator us k| ≤ k * (2 ^ 31 + 65535) := by
  have htake : ∀ u ∈ us.take k, u ≤ 65535 := fun u hu => hus u (List.mem_of_mem_take hu)
  have hle := abs_foldl_hashStep_le htake 0
  rw [List.length_take, Nat.min_eq_left hk, abs_zero, zero_add] at hle
  exact hle

/-- **The hash of a text.** Every text has its UTF-16 units. Modulo 2³², its hash is their sum, each with the power of
31 of its distance from the end, and it grows by no more than 2³¹ + 65535 with each unit. Up to four million units, the
accumulator and what the unit is added to are less than 2⁵³ at every step. -/
theorem hash_of_units (s : List Char) : (∃! us, Utf16 s us) ∧ ∀ us, Utf16 s us →
    hash s ≡ ∑ i : Fin us.length, (us[i] : ℤ) * 31 ^ (us.length - 1 - i) [ZMOD 2 ^ 32] ∧
      |hash s| ≤ us.length * (2 ^ 31 + 65535) ∧ hash s = accumulator us us.length ∧
      (us.length ≤ 4000000 → (∀ k ≤ us.length, |accumulator us k| < 2 ^ 53) ∧
        ∀ k < us.length, |low32 (low32 (accumulator us k) * 32) - accumulator us k| < 2 ^ 53) := by
  refine ⟨⟨_, utf16_units s, fun us h => utf16_iff.1 h⟩, fun us h => ?_⟩
  have hend := hash_eq_accumulator h
  -- 4000000 * (2³¹ + 65535) leaves room below 2⁵³ for one more operand of 2³¹
  refine ⟨?_, ?_, hend, fun hlength => ⟨fun k hk => ?_, fun k hk => ?_⟩⟩
  · rw [hash, ← utf16_iff.1 h]
    simpa using foldl_hashStep_modEq us 0
  · rw [hend]
    exact abs_accumulator_le h.le le_rfl
  · have hle := abs_accumulator_le h.le hk
    omega
  · have hle := abs_accumulator_le h.le hk.le
    have hshifted := abs_shifted_sub_le (accumulator us k)
    omega

/-- A name whose accumulator has left the 32-bit range after eight units, and whose last character takes two. -/
def narrator : List Char := "narrator😀".toList

theorem hash_of_units_narrator :
    Utf16 narrator [110, 97, 114, 114, 97, 116, 111, 114, 55357, 56832] ∧
      accumulator [110, 97, 114, 114, 97, 116, 111, 114, 55357, 56832] 8 = -2298838263 ∧
      |accumulator [110, 97, 114, 114, 97, 116, 111, 114, 55357, 56832] 8| < 2 ^ 53 ∧ hash narrator = -1568607700 ∧
      |hash narrator| ≤ 10 * (2 ^ 31 + 65535) := by
  have hunits : Utf16 narrator [110, 97, 114, 114, 97, 116, 111, 114, 55357, 56832] :=
    utf16_iff.2 (by decide +kernel)
  obtain ⟨-, hbound, -, hexact⟩ := (hash_of_units narrator).2 _ hunits
  exact ⟨hunits, by decide +kernel, (hexact (by decide)).1 8 (by decide), by decide +kernel, hbound⟩

end Plotline.Palette
