import Mathlib.Data.List.Induction
import Mathlib.Data.List.Nodup
import Mathlib.Tactic.Tauto
import Plotline.Proofs.Occurrence
import Plotline.Table

/-!
# Laws of tables

* `Table.get?_insert`: looking up after an insertion.
* `Table.mem_entries_iff`: a table has an entry if and only if looking its key up gives its value.
* `Table.entries_insert`, `Table.entries_insertNew`: the entries after an insertion.
* `Table.foldl_step_entries`, `Table.foldl_insert_entries`: steps that add entries under new and different keys.
* `Table.get?_insertNew`, `Table.get?_foldl_entries`: looking up after insertions of new keys, and of the entries of
  another table.
* `Table.get?_foldl_insert`, `Table.get?_ofList`: inserting items under their keys leaves each key with its last item.
* `Table.entries_foldl_update_new`, `Table.get?_foldl_update`: updates one after another.
* `Table.contains_insert`, `Table.contains_ofList`, `Table.keys_foldl_step`, `Table.keys_ofList`,
  `Table.keys_foldl_update`: the keys of tables.
* `Table.Agree`: tables that show the same, whatever the order of their keys.
* `Table.values_foldl_insertNew`: inserting items whose keys may be known keeps the first item of each key.
* `Table.getD_ofList_map`, `Table.values_ofList_map`: the table of the values of a function.
-/

namespace Plotline.Table
variable {κ α : Type} [DecidableEq κ]

theorem find?_put (k : κ) (v : α) (k' : κ) : ∀ es : List (κ × α),
    find? k' (put k v es) = if k = k' then some v else find? k' es
  | [] => by simp [put, find?]
  | e :: es => by
    by_cases h : e.1 = k
    · subst h
      by_cases hk : e.1 = k' <;> simp [put, find?, hk]
    · by_cases hk : e.1 = k'
      · subst hk
        simp [put, find?, h, Ne.symm h]
      · simp [put, find?, h, hk, find?_put k v k' es]

theorem get?_insert (t : Table κ α) (k : κ) (v : α) (k' : κ) :
    (t.insert k v).get? k' = if k = k' then some v else t.get? k' := find?_put k v k' t.entries

theorem find?_eq_some_iff : ∀ {es : List (κ × α)}, (es.map (·.1)).Nodup → ∀ {k : κ} {v : α},
    find? k es = some v ↔ (k, v) ∈ es
  | [], _, k, v => by simp [find?]
  | e :: es, h, k, v => by
    rw [List.map_cons, List.nodup_cons] at h
    rw [find?, List.mem_cons]
    split
    · rename_i hk
      constructor
      · intro hv
        exact Or.inl (by rw [← hk, ← Option.some.inj hv])
      · rintro (rfl | hmem)
        · rfl
        · exact absurd (hk ▸ List.mem_map_of_mem hmem) h.1
    · rename_i hk
      rw [find?_eq_some_iff h.2]
      refine ⟨Or.inr, fun hmem => hmem.resolve_left ?_⟩
      rintro rfl
      exact hk rfl

theorem mem_entries_iff {t : Table κ α} {k : κ} {v : α} : (k, v) ∈ t.entries ↔ t.get? k = some v :=
  (find?_eq_some_iff t.nodup).symm

theorem mem_values {t : Table κ α} {v : α} : v ∈ t.values ↔ ∃ k, t.get? k = some v := by
  unfold values
  rw [List.mem_map]
  constructor
  · rintro ⟨⟨k, v⟩, he, rfl⟩
    exact ⟨k, mem_entries_iff.1 he⟩
  · rintro ⟨k, hk⟩
    exact ⟨(k, v), mem_entries_iff.2 hk, rfl⟩

theorem get?_eq_none_iff {t : Table κ α} {k : κ} : t.get? k = none ↔ k ∉ t.keys := by
  rw [Option.eq_none_iff_forall_not_mem]
  constructor
  · intro h hk
    obtain ⟨⟨k, v⟩, he, rfl⟩ := List.mem_map.1 hk
    exact h v (mem_entries_iff.1 he)
  · intro hk v hv
    exact hk (List.mem_map.2 ⟨(k, v), mem_entries_iff.2 hv, rfl⟩)

theorem contains_eq_true_iff {t : Table κ α} {k : κ} : t.contains k = true ↔ k ∈ t.keys := by
  rw [contains, Option.isSome_iff_ne_none, Ne, get?_eq_none_iff, not_not]

theorem put_of_notMem {k : κ} {v : α} : ∀ {es : List (κ × α)}, k ∉ es.map (·.1) → put k v es = es ++ [(k, v)]
  | [], _ => rfl
  | e :: es, h => by
    rw [List.map_cons, List.mem_cons, not_or] at h
    rw [put, if_neg (Ne.symm h.1), put_of_notMem h.2, List.cons_append]

theorem entries_insert {t : Table κ α} {k : κ} {v : α} (h : k ∉ t.keys) :
    (t.insert k v).entries = t.entries ++ [(k, v)] := put_of_notMem h

theorem keys_insert_of_notMem {t : Table κ α} {k : κ} {v : α} (h : k ∉ t.keys) :
    (t.insert k v).keys = t.keys ++ [k] := by
  rw [keys, entries_insert h, List.map_append]
  rfl

theorem entries_insertNew (t : Table κ α) (k : κ) (v : α) :
    (t.insertNew k v).entries = if k ∈ t.keys then t.entries else t.entries ++ [(k, v)] := by
  unfold insertNew
  by_cases hk : k ∈ t.keys
  · rw [if_pos (contains_eq_true_iff.2 hk), if_pos hk]
  · rw [if_neg (fun hc => hk (contains_eq_true_iff.1 hc)), if_neg hk, entries_insert hk]

omit [DecidableEq κ] in
/-- Steps that add at most one entry each, under new and different keys, add them at the end. -/
theorem foldl_step_entries {β : Type} {step : Table κ α → β → Table κ α} (key : β → κ) (value? : β → Option α)
    (hstep : ∀ t x, key x ∉ t.keys →
      (step t x).entries = t.entries ++ ((value? x).map fun v => (key x, v)).toList) :
    ∀ (xs : List β) (t : Table κ α), (t.keys ++ xs.map key).Nodup →
      (xs.foldl step t).entries = t.entries ++ xs.filterMap fun x => (value? x).map fun v => (key x, v)
  | [], t, _ => by simp
  | x :: xs, t, h => by
    have hx : key x ∉ t.keys := by
      intro hmem
      exact (List.nodup_append.1 h).2.2 (key x) hmem (key x) (by simp) rfl
    have hentries := hstep t x hx
    have hkeys : ((step t x).keys ++ xs.map key).Sublist (t.keys ++ (x :: xs).map key) := by
      unfold keys
      rw [hentries, List.map_append, List.append_assoc, List.map_cons, ← List.singleton_append]
      refine List.Sublist.append_left (List.Sublist.append_right ?_ _) _
      cases value? x <;> simp
    rw [List.foldl_cons, foldl_step_entries key value? hstep xs _ (h.sublist hkeys), hentries, List.append_assoc,
      List.filterMap_cons]
    cases value? x <;> simp

/-- Inserting pairs of new and different keys adds them at the end. -/
theorem foldl_insert_entries {β : Type} (key : β → κ) (value : β → α) (xs : List β) (t : Table κ α)
    (h : (t.keys ++ xs.map key).Nodup) :
    (xs.foldl (fun t x => t.insert (key x) (value x)) t).entries = t.entries ++ xs.map fun x => (key x, value x) := by
  rw [foldl_step_entries key (fun x => some (value x)) (fun t x hx => entries_insert hx) xs t h]
  simp

theorem entries_ofList {es : List (κ × α)} (h : (es.map (·.1)).Nodup) : (ofList es).entries = es := by
  have hfold := foldl_insert_entries (fun e : κ × α => e.1) (fun e => e.2) es ∅
  rw [ofList, hfold (by simpa [keys, EmptyCollection.emptyCollection, empty] using h)]
  simp [EmptyCollection.emptyCollection, empty]

theorem contains_insertNew (t : Table κ α) (k : κ) (v : α) (k' : κ) :
    (t.insertNew k v).contains k' = (t.contains k' || decide (k = k')) := by
  unfold insertNew
  split
  · rename_i hk
    by_cases h : k = k'
    · subst h
      simp [hk]
    · simp [h]
  · rw [contains, get?_insert]
    by_cases h : k = k'
    · simp [h]
    · simp [h, contains]

/-- Inserting items whose keys may be known keeps the first item of each key. -/
theorem values_foldl_insertNew [BEq κ] [LawfulBEq κ] (key : α → κ) : ∀ (xs : List α) (t : Table κ α),
    (xs.foldl (fun t x => t.insertNew (key x) x) t).values =
      t.values ++ (xs.filter fun x => !t.contains (key x)).eraseDupsBy fun a b => key a == key b
  | [], t => by simp
  | x :: xs, t => by
    rw [List.foldl_cons, values_foldl_insertNew key xs]
    by_cases hx : t.contains (key x) = true
    · have hstep : t.insertNew (key x) x = t := if_pos hx
      rw [hstep, List.filter_cons, if_neg (by simp [hx])]
    · have hvalues : (t.insertNew (key x) x).values = t.values ++ [x] := by
        rw [values, entries_insertNew, if_neg (fun h => hx (contains_eq_true_iff.2 h)), List.map_append]
        rfl
      rw [hvalues, List.append_assoc, List.filter_cons, if_pos (by simp [hx]), List.eraseDupsBy_cons,
        List.filter_filter, List.singleton_append]
      congr 3
      refine List.filter_congr fun y _ => ?_
      rw [contains_insertNew]
      by_cases hy : key x = key y
      · simp [hy]
      · simp [hy, Ne.symm hy]

theorem values_foldl_insertNew_empty [BEq κ] [LawfulBEq κ] (key : α → κ) (xs : List α) :
    (xs.foldl (fun t x => t.insertNew (key x) x) (∅ : Table κ α)).values =
      xs.eraseDupsBy fun a b => key a == key b := by
  have hvalues : (∅ : Table κ α).values = [] := rfl
  have hnone : ∀ k, (∅ : Table κ α).contains k = false := fun k => rfl
  rw [values_foldl_insertNew, hvalues, List.nil_append]
  simp only [hnone, Bool.not_false, List.filter_true]

/-! ## Looking up -/

/-- Inserting items under their keys leaves each key with its last item. -/
theorem get?_foldl_insert (key : α → κ) (xs : List α) (t : Table κ α) (k : κ) :
    (xs.foldl (fun t x => t.insert (key x) x) t).get? k = (xs.reverse.find? (key · = k)).or (t.get? k) := by
  induction xs using List.reverseRecOn with
  | nil => rfl
  | append_singleton xs x ih =>
      rw [List.foldl_append, List.foldl_cons, List.foldl_nil, get?_insert, ih, List.reverse_concat, List.find?_cons]
      by_cases hk : key x = k <;> simp [hk]

theorem get?_insertNew (t : Table κ α) (k : κ) (v : α) (k' : κ) :
    (t.insertNew k v).get? k' = (t.get? k').or (if k = k' then some v else none) := by
  unfold insertNew
  split
  · rename_i hk
    obtain ⟨w, hw⟩ := Option.isSome_iff_exists.1 hk
    split
    · rename_i heq
      rw [← heq, hw]
      rfl
    · rw [Option.or_none]
  · rename_i hk
    rw [get?_insert]
    split
    · rename_i heq
      rw [← heq, Option.not_isSome_iff_eq_none.1 hk]
      rfl
    · rw [Option.or_none]

theorem find?_eq_none_of_notMem {k : κ} : ∀ {es : List (κ × α)}, k ∉ es.map (·.1) → find? k es = none
  | [], _ => rfl
  | e :: es, h => by
    rw [List.map_cons, List.mem_cons, not_or] at h
    rw [find?, if_neg (Ne.symm h.1), find?_eq_none_of_notMem h.2]

theorem get?_foldl_pairs (k : κ) : ∀ {es : List (κ × α)}, (es.map (·.1)).Nodup → ∀ t : Table κ α,
    (es.foldl (fun t e => t.insert e.1 e.2) t).get? k = (find? k es).or (t.get? k)
  | [], _, t => rfl
  | e :: es, h, t => by
    rw [List.map_cons, List.nodup_cons] at h
    rw [List.foldl_cons, get?_foldl_pairs k h.2, get?_insert, find?]
    by_cases hk : e.1 = k
    · rw [if_pos hk, if_pos hk, find?_eq_none_of_notMem (hk ▸ h.1)]
      rfl
    · rw [if_neg hk, if_neg hk]

/-- Inserting the entries of a table: what they have under a key comes before what was there. -/
theorem get?_foldl_entries (fields t : Table κ α) (k : κ) :
    (fields.entries.foldl (fun t e => t.insert e.1 e.2) t).get? k = (fields.get? k).or (t.get? k) :=
  get?_foldl_pairs k fields.nodup t

theorem get?_ofList (es : List (κ × α)) (k : κ) :
    (ofList es).get? k = ((es.filter (·.1 = k)).getLast?).map (·.2) := by
  induction es using List.reverseRecOn with
  | nil => rfl
  | append_singleton es e ih =>
      unfold ofList at ih ⊢
      rw [List.foldl_append, List.foldl_cons, List.foldl_nil, get?_insert, ih, List.filter_append]
      by_cases hk : e.1 = k <;> simp [hk]

theorem get?_filter (p : κ → α → Bool) (t : Table κ α) (k : κ) : (t.filter p).get? k = (t.get? k).filter (p k) := by
  ext v
  rw [← mem_entries_iff, Option.filter_eq_some_iff, ← mem_entries_iff]
  exact List.mem_filter

/-- A table with at most one entry for each item of a list, under different keys. -/
theorem get?_of_entries {β : Type} {t : Table κ α} {key : β → κ} {value? : β → Option α} {xs : List β}
    (h : t.entries = xs.filterMap fun x => (value? x).map fun v => (key x, v)) (hkeys : (xs.map key).Nodup) {x : β}
    (hx : x ∈ xs) : t.get? (key x) = value? x := by
  ext v
  rw [← mem_entries_iff, h, List.mem_filterMap]
  constructor
  · rintro ⟨y, hy, hv⟩
    obtain ⟨w, hw, heq⟩ := Option.map_eq_some_iff.1 hv
    obtain ⟨hkey, rfl⟩ := Prod.mk.inj heq
    rwa [List.inj_on_of_nodup_map hkeys hy hx hkey] at hw
  · intro hv
    exact ⟨x, hx, by rw [hv]; rfl⟩

theorem get?_of_entries_notMem {β : Type} {t : Table κ α} {key : β → κ} {value? : β → Option α} {xs : List β}
    (h : t.entries = xs.filterMap fun x => (value? x).map fun v => (key x, v)) {k : κ} (hk : k ∉ xs.map key) :
    t.get? k = none := by
  rw [get?_eq_none_iff, keys, h]
  intro hmem
  obtain ⟨e, he, rfl⟩ := List.mem_map.1 hmem
  obtain ⟨x, hx, he⟩ := List.mem_filterMap.1 he
  obtain ⟨v, -, rfl⟩ := Option.map_eq_some_iff.1 he
  exact hk (List.mem_map_of_mem hx)

section Keyed
variable {key : α → κ} {t : Table κ α} (h : ∀ k v, t.get? k = some v → key v = k)
include h

theorem map_key_values : t.values.map key = t.keys := by
  unfold values keys
  rw [List.map_map]
  exact List.map_congr_left fun e he => h e.1 e.2 (mem_entries_iff.1 he)

theorem mem_values_iff {v : α} : v ∈ t.values ↔ t.get? (key v) = some v := by
  rw [mem_values]
  constructor
  · rintro ⟨k, hk⟩
    rwa [h k v hk]
  · intro hv
    exact ⟨key v, hv⟩

end Keyed

theorem get?_map {β : Type} (f : α → β) (t : Table κ α) (k : κ) : (t.map f).get? k = (t.get? k).map f := by
  ext v
  rw [← mem_entries_iff, Option.map_eq_some_iff]
  constructor
  · intro h
    obtain ⟨⟨k, a⟩, he, heq⟩ := List.mem_map.1 h
    obtain ⟨rfl, rfl⟩ := Prod.mk.inj heq
    exact ⟨a, mem_entries_iff.1 he, rfl⟩
  · rintro ⟨a, ha, rfl⟩
    exact List.mem_map.2 ⟨(k, a), mem_entries_iff.2 ha, rfl⟩

/-! ## Keys -/

theorem contains_insert {t : Table κ α} {k : κ} {v : α} {k' : κ} :
    (t.insert k v).contains k' = true ↔ k' = k ∨ t.contains k' = true := by
  unfold contains
  rw [get?_insert]
  by_cases h : k' = k
  · simp [h]
  · simp [h, Ne.symm h]

theorem keys_insert_of_contains {t : Table κ α} {k : κ} {v : α} (h : t.contains k = true) :
    (t.insert k v).keys = t.keys := by
  rw [contains_eq_true_iff] at h
  exact (keys_put k v t.entries).trans (if_pos h)

theorem contains_foldl_insert {k : κ} : ∀ {es : List (κ × α)} {t : Table κ α},
    (es.foldl (fun t e => t.insert e.1 e.2) t).contains k = true ↔ k ∈ es.map (·.1) ∨ t.contains k = true
  | [], t => by simp
  | e :: es, t => by
    rw [List.foldl_cons, contains_foldl_insert, contains_insert, List.map_cons, List.mem_cons]
    tauto

theorem contains_ofList {k : κ} {es : List (κ × α)} : (ofList es).contains k = true ↔ k ∈ es.map (·.1) := by
  rw [ofList, contains_foldl_insert]
  exact or_iff_left fun h => Bool.noConfusion h

theorem keys_insert [BEq κ] [LawfulBEq κ] (t : Table κ α) (k : κ) (v : α) :
    (t.insert k v).keys = if t.keys.contains k then t.keys else t.keys ++ [k] := by
  by_cases hk : k ∈ t.keys
  · rw [if_pos (List.contains_iff_mem.2 hk), keys_insert_of_contains (contains_eq_true_iff.2 hk)]
  · rw [if_neg (mt List.contains_iff_mem.1 hk), keys_insert_of_notMem hk]

omit [DecidableEq κ] in
/-- If each step makes its key known, the keys are those of the steps in order of first occurrence. -/
theorem keys_foldl_step [BEq κ] [LawfulBEq κ] {β : Type} {step : Table κ α → β → Table κ α} (key : β → κ)
    (hstep : ∀ t x, (step t x).keys = if t.keys.contains (key x) then t.keys else t.keys ++ [key x]) (xs : List β) :
    (xs.foldl step ∅).keys = (xs.map key).eraseDups := by
  have hfold : (xs.foldl step ∅).keys =
      xs.foldl (fun known x => if known.contains (key x) then known else known ++ [key x]) [] :=
    (List.foldl_hom keys fun t x => (hstep t x).symm).symm
  have hadd := foldl_addNew (xs.map key) []
  rw [List.foldl_map] at hadd
  rw [hfold, hadd]
  simp

/-- The keys of a table of pairs, in order of their first pairs. -/
theorem keys_ofList [BEq κ] [LawfulBEq κ] (es : List (κ × α)) : (ofList es).keys = (es.map (·.1)).eraseDups :=
  keys_foldl_step Prod.fst (fun t e => keys_insert t e.1 e.2) es

theorem contains_map {β : Type} (f : α → β) (t : Table κ α) (k : κ) : (t.map f).contains k = t.contains k := by
  unfold contains
  rw [get?_map, Option.isSome_map]

omit [DecidableEq κ] in
theorem keys_map {β : Type} (f : α → β) (t : Table κ α) : (t.map f).keys = t.keys := by
  unfold keys map
  rw [List.map_map]
  rfl

theorem keys_foldl_update {β : Type} (key : β → κ) (d : α) (g : α → β → α) : ∀ (xs : List β) (t : Table κ α),
    (∀ x ∈ xs, t.contains (key x) = true) → (xs.foldl (fun t x => t.update (key x) d (g · x)) t).keys = t.keys
  | [], _, _ => rfl
  | x :: xs, t, h => by
    have hkeys : (t.update (key x) d (g · x)).keys = t.keys := keys_insert_of_contains (h x List.mem_cons_self)
    rw [List.foldl_cons, keys_foldl_update key d g xs, hkeys]
    intro y hy
    rw [contains_eq_true_iff, hkeys, ← contains_eq_true_iff]
    exact h y (List.mem_cons_of_mem x hy)

/-! ## Tables that agree -/

/-- The tables show the same under every key, whatever the order of their keys. -/
def Agree (t t' : Table κ α) : Prop := ∀ k, t.get? k = t'.get? k

section Agree
variable {t t' : Table κ α}

theorem Agree.of_perm (h : t.entries.Perm t'.entries) : t.Agree t' := by
  intro k
  ext v
  rw [← mem_entries_iff, ← mem_entries_iff, h.mem_iff]

theorem Agree.getD (h : t.Agree t') (k : κ) (d : α) : t.getD k d = t'.getD k d := by
  rw [Table.getD, Table.getD, h k]

theorem Agree.contains (h : t.Agree t') (k : κ) : t.contains k = t'.contains k := by
  rw [Table.contains, Table.contains, h k]

theorem Agree.values_perm (h : t.Agree t') : t.values.Perm t'.values := by
  have hentries : t.entries.Perm t'.entries := by
    refine (List.perm_ext_iff_of_nodup t.nodup.of_map t'.nodup.of_map).2 ?_
    rintro ⟨k, v⟩
    rw [mem_entries_iff, mem_entries_iff, h k]
  exact hentries.map _

end Agree

/-! ## Updates -/

theorem put_put (k : κ) (v w : α) : ∀ es : List (κ × α), put k w (put k v es) = put k w es
  | [] => by simp [put]
  | e :: es => by by_cases h : e.1 = k <;> simp [put, h, put_put k v w es]

theorem insert_insert (t : Table κ α) (k : κ) (v w : α) : (t.insert k v).insert k w = t.insert k w := by
  unfold insert
  simp only [put_put]

/-- Updating the value of one key again and again. -/
theorem foldl_update_same {β : Type} (k : κ) (d : α) (g : α → β → α) : ∀ {xs : List β}, xs ≠ [] →
    ∀ t : Table κ α, xs.foldl (fun t x => t.update k d (g · x)) t = t.insert k (xs.foldl g (t.getD k d))
  | [x], _, t => rfl
  | x :: y :: xs, _, t => by
    have ih := foldl_update_same k d g (List.cons_ne_nil y xs) (t.update k d (g · x))
    have hget : (t.update k d (g · x)).getD k d = g (t.getD k d) x := by
      unfold update getD
      rw [get?_insert, if_pos rfl, Option.getD_some]
    rw [List.foldl_cons, ih, hget, update, insert_insert]
    rfl

/-- Updating the value of one new key adds one entry, if there is anything to update it with. -/
theorem entries_foldl_update_new {β : Type} {t : Table κ α} {k : κ} (hk : k ∉ t.keys) (d : α) (g : α → β → α)
    (xs : List β) : (xs.foldl (fun t x => t.update k d (g · x)) t).entries =
      t.entries ++ ((if xs = [] then none else some (xs.foldl g d)).map fun v => (k, v)).toList := by
  by_cases hxs : xs = []
  · rw [hxs]
    simp
  · have hnone : t.getD k d = d := by
      rw [getD, get?_eq_none_iff.2 hk]
      rfl
    rw [foldl_update_same k d g hxs, hnone, entries_insert hk, if_neg hxs]
    rfl

theorem get?_foldl_update {β : Type} (key : β → κ) (d : α) (g : α → β → α) (k : κ) (xs : List β) (t : Table κ α) :
    (xs.foldl (fun t x => t.update (key x) d (g · x)) t).get? k =
      if xs.filter (key · = k) = [] then t.get? k else some ((xs.filter (key · = k)).foldl g (t.getD k d)) := by
  induction xs using List.reverseRecOn with
  | nil => rfl
  | append_singleton xs x ih =>
      rw [List.foldl_append, List.foldl_cons, List.foldl_nil, update, get?_insert, List.filter_append]
      by_cases hk : key x = k
      · subst hk
        rw [if_pos rfl, getD, ih, List.foldl_append]
        split
        · rename_i hnil
          simp [hnil, getD]
        · simp
      · simp [hk, ih]

/-! ## Tables of a function -/

theorem entries_ofList_map {ks : List κ} (h : ks.Nodup) (f : κ → α) :
    (ofList (ks.map fun k => (k, f k))).entries = ks.map fun k => (k, f k) := by
  refine entries_ofList ?_
  rw [List.map_map]
  simpa [Function.comp_def] using h

theorem values_ofList_map {ks : List κ} (h : ks.Nodup) (f : κ → α) :
    (ofList (ks.map fun k => (k, f k))).values = ks.map f := by
  rw [values, entries_ofList_map h, List.map_map]
  rfl

theorem get?_ofList_map {ks : List κ} (h : ks.Nodup) (f : κ → α) (k : κ) :
    (ofList (ks.map fun k => (k, f k))).get? k = if k ∈ ks then some (f k) else none := by
  split
  · rename_i hk
    have hentry : (k, f k) ∈ (ofList (ks.map fun k => (k, f k))).entries := by
      rw [entries_ofList_map h]
      exact List.mem_map_of_mem hk
    exact mem_entries_iff.1 hentry
  · rename_i hk
    rw [get?_eq_none_iff, keys, entries_ofList_map h, List.map_map]
    simpa [Function.comp_def] using hk

theorem getD_ofList_map {ks : List κ} (h : ks.Nodup) (f : κ → α) (k : κ) (d : α) :
    (ofList (ks.map fun k => (k, f k))).getD k d = if k ∈ ks then f k else d := by
  rw [getD, get?_ofList_map h]
  split <;> rfl

end Plotline.Table
