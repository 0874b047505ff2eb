import Mathlib.Data.List.Basic
import Plotline.Proofs.Tables

/-!
# Strict runs

A strict run asks tables for keys that must be there, and breaks off where one is not.

* `Lapse`: what a strict run breaks off at.
* `Table.fetch`: the value of a key that must be there.
* `foldlM_induct`, `foldlM_eq_ok`, `mapM_eq_ok`: runs that do not break off.
-/

namespace Plotline

/-- What a strict run breaks off at. -/
inductive Lapse where
  /-- Settings have something other than a text where a path is looked up. -/
  | settings
  /-- A table does not have a key. -/
  | key (k : String)
  /-- A text does not have a line. -/
  | line (number : Int)
  /-- There is no least and no greatest of no things. -/
  | extremum
  /-- There are more rounds than there can be. -/
  | rounds
deriving DecidableEq, Repr

abbrev Run := Except Lapse

namespace Table
variable {α : Type} {t : Table String α} {k : String}

def fetch (t : Table String α) (k : String) : Run α :=
  match t.get? k with
  | some v => .ok v
  | none => .error (.key k)

theorem fetch_of_get? {v : α} (h : t.get? k = some v) : t.fetch k = .ok v := by
  rw [fetch, h]

theorem get?_of_contains (h : t.contains k = true) (d : α) : t.get? k = some (t.getD k d) := by
  obtain ⟨v, hv⟩ := Option.isSome_iff_exists.1 h
  rw [getD, hv, Option.getD_some]

theorem fetch_of_contains (h : t.contains k = true) (d : α) : t.fetch k = .ok (t.getD k d) :=
  fetch_of_get? (get?_of_contains h d)

end Table

namespace Strict
variable {α β ε : Type}

@[simp]
theorem ok_bind (a : α) (f : α → Except ε β) : (Except.ok a >>= f) = f a := rfl

/-- A fold does not break off if what holds of the items that were read carries on from each item to the next. -/
theorem foldlM_induct {f : β → α → Except ε β} (P : List α → β → Prop) : ∀ (xs done : List α) {b : β}, P done b →
    (∀ done x b, P done b → x ∈ xs → ∃ b', f b x = .ok b' ∧ P (done ++ [x]) b') →
      ∃ b', xs.foldlM f b = .ok b' ∧ P (done ++ xs) b'
  | [], done, b, hb, _ => ⟨b, rfl, by rwa [List.append_nil]⟩
  | x :: xs, done, b, hb, hstep => by
    obtain ⟨b₁, hfirst, hb₁⟩ := hstep done x b hb List.mem_cons_self
    obtain ⟨b₂, hrest, hb₂⟩ := foldlM_induct P xs (done ++ [x]) hb₁
      fun done' y b' hb' hy => hstep done' y b' hb' (List.mem_cons_of_mem x hy)
    refine ⟨b₂, ?_, by rwa [List.append_assoc] at hb₂⟩
    rw [List.foldlM_cons, hfirst]
    exact hrest

/-- A strict fold yields what a fold yields if it does so at each item. -/
theorem foldlM_eq_ok {f : β → α → Except ε β} {g : β → α → β} (P : β → Prop) {xs : List α} {b : β} (hb : P b)
    (hstep : ∀ b, P b → ∀ x ∈ xs, f b x = .ok (g b x) ∧ P (g b x)) :
    xs.foldlM f b = .ok (xs.foldl g b) ∧ P (xs.foldl g b) := by
  obtain ⟨b', hok, rfl, hb'⟩ := foldlM_induct (fun done b' => b' = done.foldl g b ∧ P b') xs [] ⟨rfl, hb⟩ (by
    rintro done x b' ⟨rfl, hb'⟩ hx
    obtain ⟨hok, hnext⟩ := hstep _ hb' x hx
    exact ⟨_, hok, by rw [List.foldl_append]; rfl, hnext⟩)
  exact ⟨hok, hb'⟩

theorem mapM_eq_ok {f : α → Except ε β} {g : α → β} : ∀ {xs : List α}, (∀ x ∈ xs, f x = .ok (g x)) →
    xs.mapM f = .ok (xs.map g)
  | [], _ => rfl
  | x :: xs, h => by
    rw [List.mapM_cons, h x List.mem_cons_self, mapM_eq_ok fun y hy => h y (List.mem_cons_of_mem x hy)]
    rfl

end Strict
end Plotline
