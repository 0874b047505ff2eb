import Mathlib.Algebra.Order.Field.Power
import Mathlib.Algebra.Order.Field.Rat
import Mathlib.Data.List.Basic
import Mathlib.Tactic.Linarith
import Plotline.Data.Basic

/-!
# Equality of data

* `Worth.measure?`: the number that a worth is, or the object that is no number; `Worth.same_iff`: worths are the same
  if they are one number or one object; `Worth.same_self_iff`: all but what is no number and met only once are the same
  as themselves.
* `Data.Matches`: what two data that are the same have in common, one constructor for each kind of data.
* `Data.Proper`: no two keys of a map and no two members of a set are the same.
* `Data.same_trans`: what is the same as a third is the same; `Data.Proper.same_symm`: in either direction.

Equality is not reflexive: of what is no number, only one object is the same as itself.
-/

namespace Plotline

/-! ## Lists -/

section Lists
variable {α β : Type}

theorem forall₂_symm {R : α → α → Prop} : ∀ {xs ys : List α}, (∀ x ∈ xs, ∀ {y}, R x y → R y x) →
    List.Forall₂ R xs ys → List.Forall₂ R ys xs
  | _, _, _, .nil => .nil
  | _, _, h, .cons hxy hxys => .cons (h _ (by simp) hxy) (forall₂_symm (fun x hx => h x (by simp [hx])) hxys)

theorem forall₂_trans {R : α → α → Prop} : ∀ {xs ys zs : List α},
    (∀ x ∈ xs, ∀ y z, R x y → R y z → R x z) → List.Forall₂ R xs ys → List.Forall₂ R ys zs → List.Forall₂ R xs zs
  | _, _, _, _, .nil, .nil => .nil
  | _, _, _, h, .cons hxy hxys, .cons hyz hyzs =>
    .cons (h _ (by simp) _ _ hxy hyz) (forall₂_trans (fun x hx => h x (by simp [hx])) hxys hyzs)

/-- Lists of equal length, the members of one with different likes in the other: every member of the other is one. -/
theorem exists_of_covered {R : α → β → Prop} : ∀ {xs : List α} {ys : List β}, xs.length = ys.length →
    (∀ x ∈ xs, ∃ y ∈ ys, R x y) → xs.Pairwise (fun x x' => ∀ y, R x y → ¬ R x' y) → ∀ y ∈ ys, ∃ x ∈ xs, R x y
  | [], [], _, _, _ => by simp
  | x :: xs, ys, hlength, hcovered, hapart => by
    rw [List.pairwise_cons] at hapart
    obtain ⟨y, hy, hxy⟩ := hcovered x (by simp)
    obtain ⟨front, back, rfl⟩ := List.append_of_mem hy
    have hrest : ∀ z ∈ front ++ back, ∃ x' ∈ xs, R x' z := by
      refine exists_of_covered (by simp at hlength ⊢; omega) (fun x' hx' => ?_) hapart.2
      obtain ⟨z, hz, hxz⟩ := hcovered x' (by simp [hx'])
      have hne : z ≠ y := fun h => hapart.1 x' hx' y hxy (h ▸ hxz)
      exact ⟨z, by simpa [hne] using hz, hxz⟩
    intro z hz
    by_cases h : z = y
    · exact ⟨x, by simp, h ▸ hxy⟩
    · obtain ⟨x', hx', hxz⟩ := hrest z (by simpa [h] using hz)
      exact ⟨x', by simp [hx'], hxz⟩

end Lists

/-! ## Worths -/

namespace Number

/-- The number that the parts of a float stand for. -/
def Parts.value? : Parts → Option (Bool ⊕ ℚ)
  | .nan => none
  | .infinite negative => some (.inl negative)
  | .finite negative m e => some (.inr ((if negative then -1 else 1) * (m * 2 ^ e)))

theorem scaled_eq_iff (m₁ m₂ : Nat) (e₁ e₂ : Int) :
    m₁ * power 2 (e₁ - min e₁ e₂).toNat = m₂ * power 2 (e₂ - min e₁ e₂).toNat ↔
      (m₁ * 2 ^ e₁ : ℚ) = m₂ * 2 ^ e₂ := by
  have hscale : ∀ (m : Nat) (e : Int), min e₁ e₂ ≤ e →
      (m * 2 ^ e : ℚ) = (m * power 2 (e - min e₁ e₂).toNat : Nat) * 2 ^ (min e₁ e₂) := by
    intro m e he
    rw [show power 2 (e - min e₁ e₂).toNat = 2 ^ (e - min e₁ e₂).toNat from rfl, Nat.cast_mul, Nat.cast_pow,
      Nat.cast_ofNat, mul_assoc, ← zpow_natCast, ← zpow_add₀ (by norm_num)]
    congr 2
    omega
  rw [hscale m₁ e₁ (min_le_left _ _), hscale m₂ e₂ (min_le_right _ _),
    mul_left_inj' (zpow_ne_zero _ (by norm_num)), Nat.cast_inj]

theorem signed_eq_iff (n₁ n₂ : Bool) {x y : ℚ} (hx : 0 ≤ x) (hy : 0 ≤ y) :
    ((if n₁ then -1 else 1) * x = (if n₂ then -1 else 1) * y) ↔ x = y ∧ (x = 0 ∨ n₁ = n₂) := by
  cases n₁ <;> cases n₂ <;> simp <;> constructor
  · intro h
    constructor <;> linarith
  · rintro ⟨rfl, hzero⟩
    linarith
  · intro h
    constructor <;> linarith
  · rintro ⟨rfl, hzero⟩
    linarith

end Number

namespace Worth
open Number

/-- The number that a worth is, or the object if it is no number. -/
def measure? (v : Worth) : Option (Nat ⊕ Bool ⊕ ℚ) :=
  match v.parts.value? with
  | some x => some (.inr x)
  | none => v.object.map .inl

theorem same_iff (v w : Worth) : v.same w = true ↔ ∃ x, v.measure? = some x ∧ w.measure? = some x := by
  have hpos : ∀ (m : Nat) (e : Int), (0 : ℚ) ≤ m * 2 ^ e := by
    intro m e
    positivity
  obtain ⟨_ | n₁ | ⟨n₁, m₁, e₁⟩, o₁⟩ := v <;> obtain ⟨_ | n₂ | ⟨n₂, m₂, e₂⟩, o₂⟩ := w
  case nan.nan =>
    cases o₁ with
    | none => simp [same, measure?, Parts.value?]
    | some i =>
        cases o₂ with
        | none => simp [same, measure?, Parts.value?]
        | some j => simpa [same, measure?, Parts.value?] using eq_comm
  case finite.finite =>
    have hvalue := signed_eq_iff n₁ n₂ (hpos m₁ e₁) (hpos m₂ e₂)
    rw [← scaled_eq_iff] at hvalue
    simp only [measure?, Parts.value?, Option.some.injEq, exists_eq_left', Sum.inr.injEq]
    have htwo : (2 : ℚ) ^ e₁ ≠ 0 := zpow_ne_zero _ (by norm_num)
    refine Iff.trans ?_ (hvalue.symm.trans eq_comm)
    simp [same, htwo]
  case infinite.infinite =>
    simp only [same, measure?, Parts.value?, beq_iff_eq, Option.some.injEq, exists_eq_left', Sum.inr.injEq,
      Sum.inl.injEq]
    exact eq_comm
  all_goals simp [same, measure?, Parts.value?]

theorem same_symm {v w : Worth} (h : v.same w = true) : w.same v = true := by
  obtain ⟨x, hv, hw⟩ := (same_iff v w).1 h
  exact (same_iff w v).2 ⟨x, hw, hv⟩

theorem same_trans {u v w : Worth} (h : u.same v = true) (h' : v.same w = true) : u.same w = true := by
  obtain ⟨x, hu, hv⟩ := (same_iff u v).1 h
  obtain ⟨y, hv', hw⟩ := (same_iff v w).1 h'
  obtain rfl : x = y := Option.some.inj (hv.symm.trans hv')
  exact (same_iff u w).2 ⟨x, hu, hw⟩

/-- A worth is the same as itself, unless it is no number and its object is met only once. -/
theorem same_self_iff (v : Worth) : v.same v = true ↔ v.parts ≠ .nan ∨ v.object.isSome = true := by
  rw [same_iff]
  obtain ⟨_ | n | ⟨n, m, e⟩, o⟩ := v <;> simp [measure?, Parts.value?, Option.isSome_iff_exists]

end Worth

/-! ## Moments -/

/-- Two moments are the same if they are one instant, or without an instant one and the same. -/
theorem Moment.same_iff (a b : Moment) :
    a.same b = true ↔ a.instant? = b.instant? ∧ (a.instant? = none → a = b) := by
  unfold Moment.same
  cases a.instant? <;> cases b.instant? <;> simp

theorem Moment.same_symm {a b : Moment} (h : a.same b = true) : b.same a = true := by
  obtain ⟨hinstant, hnone⟩ := (same_iff a b).1 h
  exact (same_iff b a).2 ⟨hinstant.symm, fun hb => (hnone (hinstant.trans hb)).symm⟩

theorem Moment.same_trans {a b c : Moment} (h : a.same b = true) (h' : b.same c = true) : a.same c = true := by
  obtain ⟨hinstant, hnone⟩ := (same_iff a b).1 h
  obtain ⟨hinstant', hnone'⟩ := (same_iff b c).1 h'
  exact (same_iff a c).2 ⟨hinstant.trans hinstant', fun ha => (hnone ha).trans (hnone' (hinstant ▸ ha))⟩

namespace Data

/-! ## Data by kind -/

theorem sameItems_iff : ∀ {xs ys : List Data},
    sameItems xs ys = true ↔ List.Forall₂ (fun x y => x.same y = true) xs ys
  | [], [] => by simp [sameItems]
  | [], y :: ys => by simp only [sameItems, Bool.false_eq_true, false_iff]; rintro ⟨⟩
  | x :: xs, [] => by simp only [sameItems, Bool.false_eq_true, false_iff]; rintro ⟨⟩
  | x :: xs, y :: ys => by rw [sameItems, Bool.and_eq_true, sameItems_iff, List.forall₂_cons]

theorem sameMembers_iff : ∀ {xs ys : List Data},
    sameMembers xs ys = true ↔ ∀ x ∈ xs, ∃ y ∈ ys, x.same y = true
  | [], ys => by simp [sameMembers]
  | x :: xs, ys => by rw [sameMembers, Bool.and_eq_true, List.any_eq_true, sameMembers_iff, List.forall_mem_cons]

theorem sameEntries_iff : ∀ {es fs : List (Data × Data)},
    sameEntries es fs = true ↔ ∀ e ∈ es, ∃ f ∈ fs, e.1.same f.1 = true ∧ e.2.same f.2 = true
  | [], fs => by simp [sameEntries]
  | (k, v) :: es, fs => by
    rw [sameEntries, Bool.and_eq_true, List.any_eq_true, sameEntries_iff, List.forall_mem_cons]
    simp only [Bool.and_eq_true]

/-- What two data that are the same have in common. -/
inductive Matches : Data → Data → Prop
  | null : Matches null null
  | number {a b : Data} {v w : Worth} : a.worth? = some v → b.worth? = some w → v.same w = true → Matches a b
  | text (s : String) : Matches (text s) (text s)
  | bytes (bs : List UInt8) : Matches (bytes bs) (bytes bs)
  | moment {m n : Moment} : m.same n = true → Matches (moment m) (moment n)
  | list {xs ys : List Data} : List.Forall₂ (fun x y => x.same y = true) xs ys → Matches (list xs) (list ys)
  | tuple {xs ys : List Data} : List.Forall₂ (fun x y => x.same y = true) xs ys → Matches (tuple xs) (tuple ys)
  | set {xs ys : List Data} : xs.length = ys.length → (∀ x ∈ xs, ∃ y ∈ ys, x.same y = true) →
      Matches (set xs) (set ys)
  | map {es fs : List (Data × Data)} : es.length = fs.length →
      (∀ e ∈ es, ∃ f ∈ fs, e.1.same f.1 = true ∧ e.2.same f.2 = true) → Matches (map es) (map fs)

theorem matches_of_same {a b : Data} (h : a.same b = true) : Matches a b := by
  rw [same.eq_def] at h
  split at h
  · exact .null
  · exact eq_of_beq h ▸ .text _
  · exact eq_of_beq h ▸ .bytes _
  · exact .moment h
  · exact .list (sameItems_iff.1 h)
  · exact .tuple (sameItems_iff.1 h)
  · rw [Bool.and_eq_true, beq_iff_eq] at h
    exact .set h.1 (sameMembers_iff.1 h.2)
  · rw [Bool.and_eq_true, beq_iff_eq] at h
    exact .map h.1 (sameEntries_iff.1 h.2)
  · split at h
    · rename_i hv hw
      exact .number hv hw h
    · cases h

theorem Matches.same {a b : Data} (h : Matches a b) : a.same b = true := by
  cases h with
  | null => simp [Data.same]
  | number hv hw hsame =>
      rw [Data.same.eq_def]
      split
      case h_9 => rw [hv, hw]; exact hsame
      all_goals cases hv
  | text s => simp [Data.same]
  | bytes bs => simp [Data.same]
  | moment hsame => rwa [Data.same]
  | list hitems => rwa [Data.same, sameItems_iff]
  | tuple hitems => rwa [Data.same, sameItems_iff]
  | set hlength hmembers => simpa [Data.same, hlength] using sameMembers_iff.2 hmembers
  | map hlength hentries => simpa [Data.same, hlength] using sameEntries_iff.2 hentries

/-! ## Parts -/

def children : Data → List Data
  | list xs => xs
  | tuple xs => xs
  | set xs => xs
  | map es => es.map (·.1) ++ es.map (·.2)
  | _ => []

/-- The members of a set and the keys of a map. -/
def distinct : Data → List Data
  | set xs => xs
  | map es => es.map (·.1)
  | _ => []

/-- No two keys of a map and no two members of a set are the same, in data and in all that it is made of. -/
inductive Proper : Data → Prop
  | intro {a : Data} : (∀ x ∈ a.children, Proper x) → a.distinct.Pairwise (fun k l => k.same l = false) → Proper a

theorem sizeOf_children {a x : Data} (h : x ∈ a.children) : sizeOf x < sizeOf a := by
  cases a with
  | list xs | tuple xs | set xs =>
      have hlt := List.sizeOf_lt_of_mem (show x ∈ xs from h)
      simp only [list.sizeOf_spec, tuple.sizeOf_spec, set.sizeOf_spec]
      omega
  | map es =>
      rcases List.mem_append.1 h with h | h
      · obtain ⟨⟨k, v⟩, he, rfl⟩ := List.mem_map.1 h
        have hlt := List.sizeOf_lt_of_mem he
        simp only [map.sizeOf_spec, Prod.mk.sizeOf_spec] at hlt ⊢
        omega
      · obtain ⟨⟨k, v⟩, he, rfl⟩ := List.mem_map.1 h
        have hlt := List.sizeOf_lt_of_mem he
        simp only [map.sizeOf_spec, Prod.mk.sizeOf_spec] at hlt ⊢
        omega
  | null | bool | int | float | text | bytes | moment => cases h

theorem same_trans {a b c : Data} (hab : a.same b = true) (hbc : b.same c = true) : a.same c = true := by
  apply Matches.same
  cases matches_of_same hab with
  | null => exact matches_of_same hbc
  | number hv hw hsame =>
      cases matches_of_same hbc with
      | number hw' hx hsame' =>
          obtain rfl := Option.some.inj (hw.symm.trans hw')
          exact .number hv hx (Worth.same_trans hsame hsame')
      | _ => cases hw
  | text s => exact matches_of_same hbc
  | bytes bs => exact matches_of_same hbc
  | moment hsame =>
      cases matches_of_same hbc with
      | moment hsame' => exact .moment (Moment.same_trans hsame hsame')
      | number hw _ _ => cases hw
  | @list xs ys hitems =>
      cases matches_of_same hbc with
      | list hitems' => exact .list (forall₂_trans (fun x hx y z => same_trans) hitems hitems')
      | number hw _ _ => cases hw
  | @tuple xs ys hitems =>
      cases matches_of_same hbc with
      | tuple hitems' => exact .tuple (forall₂_trans (fun x hx y z => same_trans) hitems hitems')
      | number hw _ _ => cases hw
  | @set xs ys hlength hmembers =>
      cases matches_of_same hbc with
      | set hlength' hmembers' =>
          refine .set (hlength.trans hlength') fun x hx => ?_
          obtain ⟨y, hy, hxy⟩ := hmembers x hx
          obtain ⟨z, hz, hyz⟩ := hmembers' y hy
          exact ⟨z, hz, same_trans hxy hyz⟩
      | number hw _ _ => cases hw
  | @map es fs hlength hentries =>
      cases matches_of_same hbc with
      | map hlength' hentries' =>
          refine .map (hlength.trans hlength') fun e he => ?_
          obtain ⟨f, hf, hkey, hvalue⟩ := hentries e he
          obtain ⟨g, hg, hkey', hvalue'⟩ := hentries' f hf
          exact ⟨g, hg, same_trans hkey hkey', same_trans hvalue hvalue'⟩
      | number hw _ _ => cases hw
termination_by sizeOf a
decreasing_by
  all_goals
    subst_vars
    apply sizeOf_children
    simp only [children]
    grind

/-- Equality holds in either direction, if no two keys are the same. -/
theorem Proper.same_symm {a : Data} (ha : Proper a) : ∀ {b : Data}, a.same b = true → b.same a = true := by
  induction ha with
  | @intro a _ hdistinct ih =>
      intro b hab
      apply Matches.same
      cases matches_of_same hab with
      | null => exact .null
      | number hv hw hsame => exact .number hw hv (Worth.same_symm hsame)
      | text s => exact .text s
      | bytes bs => exact .bytes bs
      | moment hsame => exact .moment (Moment.same_symm hsame)
      | @list xs ys hitems => exact .list (forall₂_symm ih hitems)
      | @tuple xs ys hitems => exact .tuple (forall₂_symm ih hitems)
      | @set xs ys hlength hmembers =>
          refine .set hlength.symm fun y hy => ?_
          have hapart : xs.Pairwise fun x x' => ∀ y, x.same y = true → ¬ x'.same y = true := by
            refine hdistinct.imp_of_mem fun {x x'} _ hx' hne y hxy hxy' => ?_
            rw [same_trans hxy (ih x' hx' hxy')] at hne
            cases hne
          obtain ⟨x, hx, hxy⟩ := exists_of_covered hlength hmembers hapart y hy
          exact ⟨x, hx, ih x hx hxy⟩
      | @map es fs hlength hentries =>
          refine .map hlength.symm fun f hf => ?_
          have hkeys : ∀ e ∈ es, e.1 ∈ (map es).children := fun e he =>
            List.mem_append_left _ (List.mem_map_of_mem he)
          have hvalues : ∀ e ∈ es, e.2 ∈ (map es).children := fun e he =>
            List.mem_append_right _ (List.mem_map_of_mem he)
          have hapart : es.Pairwise fun e e' => ∀ f : Data × Data,
              e.1.same f.1 = true ∧ e.2.same f.2 = true → ¬ (e'.1.same f.1 = true ∧ e'.2.same f.2 = true) := by
            refine (List.pairwise_map.1 hdistinct).imp_of_mem fun {e e'} _ he' hne f hef hef' => ?_
            rw [same_trans hef.1 (ih e'.1 (hkeys e' he') hef'.1)] at hne
            cases hne
          obtain ⟨e, he, hkey, hvalue⟩ := exists_of_covered hlength hentries hapart f hf
          exact ⟨e, he, ih e.1 (hkeys e he) hkey, ih e.2 (hvalues e he) hvalue⟩

end Data
end Plotline
