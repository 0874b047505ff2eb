import Mathlib.Data.List.Basic
import Mathlib.Data.List.Find
import Plotline.NameSet

/-!
# First occurrences

* `sifted_induction`: induction over a list whose tail may be sifted, as `eraseDups` does.
* `nodup_eraseDups`, `find?_eraseDups`: the list of first occurrences has no item twice, and the same first items.
* `mem_eraseDupsBy_key`, `exists_mem_eraseDupsBy_key`, `nodup_map_eraseDupsBy`: parting items by a key keeps the first
  item of each key.
* `find?_key_of_perm`: the item with a key is the same in any order of items with different keys.
* `eraseDupsBy_flatMap`: if the lists of different items have different keys, they can be parted one by one.
* `filter_flatMap_of_key`: members that only the list of one item can have are members of that list.
* `foldl_addNew`: adding items that are not there yet adds the first occurrences of those.
* `NameSet.members_ofList`: a set of names lists the first occurrences of the texts that were put into it.
* `split_cases`: of two places in a list, one is before the other, or they are the same.
* `Settled`: an item that occurs for the first time comes after every item before it.
* `pairwise_eraseDups`: the first occurrences of a settled list stand in order.
* `pairwise_findIdx_eraseDupsBy`: the first items of their keys stand in the order of their places.
* `find?_least`: a fold that keeps the smaller of two items finds the first item of least measure.
-/

namespace Plotline

section Lists
variable {α β κ : Type}

/-- Induction over a list whose tail may be sifted before it is looked at. -/
@[elab_as_elim]
theorem sifted_induction {motive : List α → Prop} (nil : motive [])
    (cons : ∀ x xs, (∀ p : α → Bool, motive (xs.filter p)) → motive (x :: xs)) : ∀ xs, motive xs
  | [] => nil
  | x :: xs => cons x xs fun p => sifted_induction nil cons (xs.filter p)
termination_by xs => xs.length
decreasing_by
  have := List.length_filter_le p xs
  simp only [List.length_cons]
  omega

/-! ## Lists of first occurrences -/

theorem nodup_eraseDups [BEq α] [LawfulBEq α] (xs : List α) : xs.eraseDups.Nodup := by
  induction xs using sifted_induction with
  | nil => simp
  | cons x xs ih =>
      rw [List.eraseDups_cons, List.nodup_cons]
      refine ⟨?_, ih _⟩
      intro h
      rw [List.mem_eraseDups, List.mem_filter] at h
      simp at h

theorem eraseDups_of_nodup [BEq α] [LawfulBEq α] : ∀ {xs : List α}, xs.Nodup → xs.eraseDups = xs
  | [], _ => rfl
  | x :: xs, h => by
    obtain ⟨hx, hxs⟩ := List.nodup_cons.1 h
    have hfilter : xs.filter (fun b => !b == x) = xs :=
      List.filter_eq_self.2 fun b hb => by
        have : b ≠ x := fun e => hx (e ▸ hb)
        simpa using this
    rw [List.eraseDups_cons, hfilter, eraseDups_of_nodup hxs]

theorem find?_eraseDups [BEq α] [LawfulBEq α] (p : α → Bool) (xs : List α) : xs.eraseDups.find? p = xs.find? p := by
  induction xs using sifted_induction with
  | nil => rfl
  | cons x xs ih =>
      rw [List.eraseDups_cons, List.find?_cons, List.find?_cons]
      cases hp : p x with
      | true => rfl
      | false =>
          show (xs.filter fun b => !b == x).eraseDups.find? p = xs.find? p
          rw [ih, List.find?_filter]
          refine List.find?_congr fun b _ => ?_
          by_cases hb : b = x
          · simp [hb, hp]
          · simp [hb]

/-- Items with different keys are different, so that parting by keys is parting by items. -/
theorem eraseDupsBy_key [BEq α] [LawfulBEq α] [BEq κ] [LawfulBEq κ] (key : α → κ) (xs : List α)
    (h : ∀ a ∈ xs, ∀ b ∈ xs, key a = key b → a = b) :
    xs.eraseDupsBy (fun a b => key a == key b) = xs.eraseDups := by
  induction xs using sifted_induction with
  | nil => rfl
  | cons x xs ih =>
      rw [List.eraseDupsBy_cons, List.eraseDups_cons]
      have hfilter : xs.filter (fun b => (key b == key x) = false) = xs.filter (fun b => !b == x) := by
        refine List.filter_congr fun b hb => ?_
        by_cases e : b = x
        · simp [e]
        · have hk : key b ≠ key x := fun hk => e (h b (by simp [hb]) x (by simp) hk)
          simp [e, hk]
      rw [hfilter]
      congr 1
      refine ih _ fun a ha b hb => ?_
      exact h a (by simp [(List.mem_filter.1 ha).1]) b (by simp [(List.mem_filter.1 hb).1])

theorem eraseDupsBy_eq_nil {r : α → α → Bool} {xs : List α} : xs.eraseDupsBy r = [] ↔ xs = [] := by
  cases xs with
  | nil => simp
  | cons x xs => simp [List.eraseDupsBy_cons]

theorem eraseDupsBy_sublist (r : α → α → Bool) (xs : List α) : (xs.eraseDupsBy r).Sublist xs := by
  induction xs using sifted_induction with
  | nil => simp
  | cons x xs ih =>
      rw [List.eraseDupsBy_cons]
      exact ((ih _).trans List.filter_sublist).cons_cons x

theorem mem_eraseDupsBy_key [BEq κ] [LawfulBEq κ] (key : α → κ) (x : α) (xs : List α) :
    x ∈ xs.eraseDupsBy (fun a b => key a == key b) ↔ xs.find? (fun a => key a == key x) = some x := by
  induction xs using sifted_induction with
  | nil => simp
  | cons y ys ih =>
      rw [List.eraseDupsBy_cons, List.mem_cons, ih, List.find?_cons]
      by_cases hkey : key y = key x
      · have hnone : (ys.filter fun a => (key a == key y) = false).find? (fun a => key a == key x) = none := by
          rw [List.find?_eq_none]
          intro a ha
          have hne := (List.mem_filter.1 ha).2
          rw [hkey] at hne
          simpa using hne
        have hhead : (key y == key x) = true := beq_iff_eq.2 hkey
        rw [hnone, hhead]
        simp [eq_comm]
      · have hsame : (ys.filter fun a => (key a == key y) = false).find? (fun a => key a == key x) =
            ys.find? fun a => key a == key x := by
          rw [List.find?_filter]
          refine List.find?_congr fun a _ => ?_
          by_cases ha : key a = key x
          · simp [ha, Ne.symm hkey]
          · simp [ha]
        have hhead : (key y == key x) = false := beq_false_of_ne hkey
        have hne : x ≠ y := fun h => hkey (h ▸ rfl)
        rw [hsame, hhead]
        simp [hne]

theorem exists_mem_eraseDupsBy_key [BEq κ] [LawfulBEq κ] (key : α → κ) {x : α} {xs : List α} (hx : x ∈ xs) :
    ∃ y ∈ xs.eraseDupsBy (fun a b => key a == key b), key y = key x := by
  obtain ⟨y, hy⟩ := Option.isSome_iff_exists.1
    (List.find?_isSome.2 ⟨x, hx, beq_self_eq_true (key x)⟩ : (xs.find? fun a => key a == key x).isSome = true)
  have hkey : key y = key x := by simpa using List.find?_some hy
  exact ⟨y, (mem_eraseDupsBy_key key y xs).2 (hkey ▸ hy), hkey⟩

theorem nodup_map_eraseDupsBy [BEq κ] [LawfulBEq κ] (key : α → κ) (xs : List α) :
    ((xs.eraseDupsBy fun a b => key a == key b).map key).Nodup := by
  induction xs using sifted_induction with
  | nil => simp
  | cons x xs ih =>
      rw [List.eraseDupsBy_cons, List.map_cons, List.nodup_cons]
      refine ⟨?_, ih _⟩
      intro hmem
      obtain ⟨y, hy, hkey⟩ := List.mem_map.1 hmem
      have hne := (List.mem_filter.1 ((eraseDupsBy_sublist _ _).subset hy)).2
      simp [hkey] at hne

theorem eraseDupsBy_append [BEq κ] [LawfulBEq κ] (key : α → κ) (xs : List α) {ys : List α}
    (h : ∀ a ∈ xs, ∀ b ∈ ys, key b ≠ key a) : (xs ++ ys).eraseDupsBy (fun a b => key a == key b) =
      xs.eraseDupsBy (fun a b => key a == key b) ++ ys.eraseDupsBy fun a b => key a == key b := by
  induction xs using sifted_induction with
  | nil => rfl
  | cons x xs ih =>
      have hys : ys.filter (fun b => (key b == key x) = false) = ys :=
        List.filter_eq_self.2 fun b hb => by simpa using h x (by simp) b hb
      rw [List.cons_append, List.eraseDupsBy_cons, List.filter_append, hys, List.eraseDupsBy_cons,
        ih _ fun a ha b hb => h a (by simp [(List.mem_filter.1 ha).1]) b hb, List.cons_append]

/-- If the lists of different items have different keys, the items of each key can be parted list by list. -/
theorem eraseDupsBy_flatMap [BEq κ] [LawfulBEq κ] (key : β → κ) (f : α → List β) : ∀ {xs : List α},
    xs.Pairwise (fun x y => ∀ a ∈ f x, ∀ b ∈ f y, key b ≠ key a) →
    (xs.flatMap f).eraseDupsBy (fun a b => key a == key b) =
      xs.flatMap fun x => (f x).eraseDupsBy fun a b => key a == key b
  | [], _ => rfl
  | x :: xs, h => by
    obtain ⟨hx, hxs⟩ := List.pairwise_cons.1 h
    rw [List.flatMap_cons, eraseDupsBy_append, eraseDupsBy_flatMap key f hxs, List.flatMap_cons]
    intro a ha b hb
    obtain ⟨y, hy, hb⟩ := List.mem_flatMap.1 hb
    exact hx y hy a ha b hb

theorem filter_key_eq [DecidableEq κ] (key : α → κ) {x : α} : ∀ {xs : List α}, (xs.map key).Nodup → x ∈ xs →
    xs.filter (key · = key x) = [x]
  | y :: ys, h, hx => by
    obtain ⟨hy, hys⟩ := List.nodup_cons.1 h
    rcases List.mem_cons.1 hx with rfl | hx
    · rw [List.filter_cons, if_pos (by simp), List.filter_eq_nil_iff.2]
      intro z hz hkey
      exact hy (of_decide_eq_true hkey ▸ List.mem_map_of_mem hz)
    · have hne : key y ≠ key x := fun hkey => hy (hkey ▸ List.mem_map_of_mem hx)
      rw [List.filter_cons, if_neg (by simpa using hne), filter_key_eq key hys hx]

theorem find?_key_eq_some_iff [DecidableEq κ] (key : α → κ) {xs : List α} (h : (xs.map key).Nodup) {k : κ} {x : α} :
    xs.find? (key · = k) = some x ↔ x ∈ xs ∧ key x = k := by
  constructor
  · intro hx
    exact ⟨List.mem_of_find?_eq_some hx, by simpa using List.find?_some hx⟩
  · rintro ⟨hx, rfl⟩
    rw [← List.head?_filter, filter_key_eq key h hx, List.head?_cons]

theorem find?_key_of_perm [DecidableEq κ] (key : α → κ) {xs ys : List α} (hperm : xs.Perm ys) (h : (xs.map key).Nodup)
    (k : κ) : xs.find? (key · = k) = ys.find? (key · = k) := by
  ext x
  rw [find?_key_eq_some_iff key h, find?_key_eq_some_iff key ((hperm.map key).nodup_iff.1 h), hperm.mem_iff]

/-- If only the list of one item has members that count, these are all that count in the lists of all items. -/
theorem filter_flatMap_of_key {key : α → κ} {f : α → List β} {p : β → Bool} {x : α} : ∀ {xs : List α},
    (xs.map key).Nodup → x ∈ xs → (∀ y ∈ xs, key y ≠ key x → ∀ b ∈ f y, p b = false) →
    (xs.flatMap f).filter p = (f x).filter p
  | y :: ys, hkeys, hx, hother => by
    rw [List.map_cons, List.nodup_cons] at hkeys
    rw [List.flatMap_cons, List.filter_append]
    rcases List.mem_cons.1 hx with rfl | hx
    · have hrest : (ys.flatMap f).filter p = [] := by
        rw [List.filter_eq_nil_iff]
        intro b hb
        obtain ⟨z, hz, hb⟩ := List.mem_flatMap.1 hb
        have hne : key z ≠ key x := fun h => hkeys.1 (h ▸ List.mem_map_of_mem hz)
        simp [hother z (by simp [hz]) hne b hb]
      rw [hrest, List.append_nil]
    · have hne : key y ≠ key x := fun h => hkeys.1 (h ▸ List.mem_map_of_mem hx)
      have hhead : (f y).filter p = [] := by
        rw [List.filter_eq_nil_iff]
        intro b hb
        simp [hother y (by simp) hne b hb]
      rw [hhead, List.nil_append, filter_flatMap_of_key hkeys.2 hx fun z hz => hother z (by simp [hz])]

/-! ## Sets of names -/

theorem foldl_addNew [BEq α] [LawfulBEq α] : ∀ (xs known : List α),
    xs.foldl (fun known x => if known.contains x then known else known ++ [x]) known =
      known ++ (xs.filter fun x => !known.contains x).eraseDups
  | [], known => by simp
  | x :: xs, known => by
    rw [List.foldl_cons, foldl_addNew xs]
    by_cases hx : x ∈ known
    · simp [hx]
    · have hcons : (x :: xs).filter (fun y => !known.contains y) =
          x :: xs.filter (fun y => !known.contains y) := by simp [hx]
      rw [if_neg (by simpa using hx), List.append_assoc, hcons, List.eraseDups_cons, List.filter_filter]
      simp only [List.singleton_append, List.append_cancel_left_eq, List.cons.injEq, true_and]
      congr 1
      refine List.filter_congr fun y _ => ?_
      by_cases hy : y = x <;> simp [hy]

theorem NameSet.members_insert (s : NameSet) (x : String) :
    (s.insert x).members = if s.members.contains x then s.members else s.members ++ [x] := by
  unfold NameSet.insert
  split <;> simp [*]

theorem NameSet.members_insertAll (xs : List String) (s : NameSet) :
    (s.insertAll xs).members = s.members ++ (xs.filter fun x => !s.members.contains x).eraseDups := by
  rw [← foldl_addNew]
  exact (List.foldl_hom NameSet.members fun s x => (NameSet.members_insert s x).symm).symm

/-- A set of names lists the first occurrences of the texts that were put into it. -/
theorem NameSet.members_ofList (xs : List String) : (NameSet.ofList xs).members = xs.eraseDups := by
  have h := NameSet.members_insertAll xs ∅
  have hempty : (∅ : NameSet).members = [] := rfl
  rw [NameSet.ofList, h, hempty]
  simp

/-! ## Places in a list -/

theorem split_cases {xs front back front' back' : List α} {x y : α} (h : xs = front ++ x :: back)
    (h' : xs = front' ++ y :: back') :
    (∃ between, front' = front ++ x :: between) ∨ (front = front' ∧ x = y ∧ back = back') ∨
      ∃ between, front = front' ++ y :: between := by
  rcases List.append_eq_append_iff.1 (h.symm.trans h') with ⟨zs, rfl, hzs⟩ | ⟨zs, rfl, hzs⟩
  · cases zs with
    | nil =>
        obtain ⟨rfl, rfl⟩ := List.cons.inj hzs
        exact Or.inr (Or.inl ⟨(List.append_nil front).symm, rfl, rfl⟩)
    | cons z zs =>
        obtain ⟨rfl, rfl⟩ := List.cons.inj hzs
        exact Or.inl ⟨zs, rfl⟩
  · cases zs with
    | nil =>
        obtain ⟨rfl, rfl⟩ := List.cons.inj hzs
        exact Or.inr (Or.inl ⟨List.append_nil front', rfl, rfl⟩)
    | cons z zs =>
        obtain ⟨rfl, rfl⟩ := List.cons.inj hzs
        exact Or.inr (Or.inr ⟨zs, rfl⟩)

/-! ## Settled lists -/

/-- Each item of a list occurs before, or comes after all items before it. -/
def Settled (lt : α → α → Prop) (xs : List α) : Prop :=
  ∀ front x back, xs = front ++ x :: back → x ∈ front ∨ ∀ a ∈ front, lt a x

theorem Settled.singleton (lt : α → α → Prop) (x : α) : Settled lt [x] := by
  intro front y back h
  rcases front with _ | ⟨a, front⟩
  · exact Or.inr (by simp)
  · simp at h

theorem Settled.filter {lt : α → α → Prop} {xs : List α} (h : Settled lt xs) (p : α → Bool) :
    Settled lt (xs.filter p) := by
  intro front x back he
  obtain ⟨ys, zs, rfl, hfront, hback⟩ := List.filter_eq_append_iff.1 he
  obtain ⟨as, bs, rfl, has, hx, -⟩ := List.filter_eq_cons_iff.1 hback
  have hfront' : (ys ++ as).filter p = front := by
    rw [List.filter_append, hfront, List.filter_eq_nil_iff.2 has, List.append_nil]
  rcases h (ys ++ as) x bs (by simp) with hmem | hlt
  · exact Or.inl (hfront' ▸ List.mem_filter.2 ⟨hmem, hx⟩)
  · refine Or.inr fun a ha => hlt a ?_
    rw [← hfront'] at ha
    exact (List.mem_filter.1 ha).1

theorem Settled.map {lt : α → α → Prop} {lt' : β → β → Prop} {xs : List α} (h : Settled lt xs) (f : α → β)
    (hf : ∀ a b, lt a b → lt' (f a) (f b)) : Settled lt' (xs.map f) := by
  intro front y back he
  obtain ⟨as, bs, rfl, rfl, hbs⟩ := List.map_eq_append_iff.1 he
  obtain ⟨x, cs, rfl, rfl, rfl⟩ := List.map_eq_cons_iff.1 hbs
  rcases h as x cs rfl with hmem | hlt
  · exact Or.inl (List.mem_map_of_mem hmem)
  · refine Or.inr fun b hb => ?_
    obtain ⟨a, ha, rfl⟩ := List.mem_map.1 hb
    exact hf a x (hlt a ha)

/-- The lists for the items of `xs` one after another: settled if each is, if equal keys have equal lists, and if
keys in order of first occurrence have lists in order. -/
theorem Settled.flatMap [BEq κ] [LawfulBEq κ] {lt : β → β → Prop} (key : α → κ) (f : α → List β) (xs : List α)
    (hsame : ∀ x ∈ xs, ∀ y ∈ xs, key x = key y → f x = f y) (heach : ∀ x ∈ xs, Settled lt (f x))
    (hacross : ∀ x ∈ xs, ∀ y ∈ xs, (xs.map key).idxOf (key x) < (xs.map key).idxOf (key y) →
      ∀ a ∈ f x, ∀ b ∈ f y, lt a b) : Settled lt (xs.flatMap f) := by
  intro front b back he
  obtain ⟨us, x, vs, as, bs, rfl, hx, rfl⟩ : ∃ us x vs as bs, xs = us ++ x :: vs ∧ f x = as ++ b :: bs ∧
      front = us.flatMap f ++ as := by
    clear hsame heach hacross
    induction xs generalizing front with
    | nil => simp at he
    | cons x xs ih =>
      rw [List.flatMap_cons] at he
      rcases List.append_eq_append_iff.1 he with ⟨ys, rfl, hys⟩ | ⟨ys, hys, hback⟩
      · obtain ⟨us, z, vs, as, bs, rfl, hz, rfl⟩ := ih ys hys
        exact ⟨x :: us, z, vs, as, bs, rfl, hz, by simp⟩
      · rcases ys with _ | ⟨c, ys⟩
        · obtain ⟨us, z, vs, as, bs, rfl, hz, hnil⟩ := ih [] (by simpa using hback.symm)
          refine ⟨x :: us, z, vs, as, bs, rfl, hz, ?_⟩
          rw [List.flatMap_cons, List.append_assoc, ← hnil, hys, List.append_nil, List.append_nil]
        · simp only [List.cons_append, List.cons.injEq] at hback
          exact ⟨[], x, xs, front, ys, rfl, by rw [hys, hback.1], by simp⟩
  by_cases hseen : key x ∈ us.map key
  · obtain ⟨y, hy, hkey⟩ := List.mem_map.1 hseen
    have hf : f y = f x := hsame y (by simp [hy]) x (by simp) hkey
    exact Or.inl (List.mem_append_left _ (List.mem_flatMap.2 ⟨y, hy, by rw [hf, hx]; simp⟩))
  · rcases heach x (by simp) as b bs hx with hmem | hlt
    · exact Or.inl (List.mem_append_right _ hmem)
    · refine Or.inr fun a ha => ?_
      rcases List.mem_append.1 ha with ha | ha
      · obtain ⟨y, hy, hay⟩ := List.mem_flatMap.1 ha
        refine hacross y (by simp [hy]) x (by simp) ?_ a hay b (by rw [hx]; simp)
        have hymem : key y ∈ us.map key := List.mem_map_of_mem hy
        rw [List.map_append, List.map_cons, List.idxOf_append_of_mem hymem, List.idxOf_append_of_notMem hseen]
        have := List.idxOf_lt_length_of_mem hymem
        omega
      · exact hlt a ha

/-- The first occurrences of a settled list stand in order. -/
theorem Settled.pairwise_eraseDups [BEq α] [LawfulBEq α] {lt : α → α → Prop} {xs : List α} (h : Settled lt xs) :
    xs.eraseDups.Pairwise lt := by
  induction xs using sifted_induction with
  | nil => simp
  | cons x xs ih =>
      have htail : Settled lt (xs.filter fun b => !b == x) := by
        have hfilter := h.filter fun b => !b == x
        simpa using hfilter
      rw [List.eraseDups_cons, List.pairwise_cons]
      refine ⟨fun y hy => ?_, ih _ htail⟩
      rw [List.mem_eraseDups, List.mem_filter] at hy
      obtain ⟨hmem, hne⟩ := hy
      -- The first occurrence of `y` stands behind `x`, and `y` is not among the items before it.
      obtain ⟨front, back, rfl, hfirst⟩ := List.eq_append_cons_of_mem hmem
      rcases h (x :: front) y back (by simp) with hin | hlt
      · rcases List.mem_cons.1 hin with rfl | hin
        · simp at hne
        · exact absurd hin hfirst
      · exact hlt x (by simp)

/-! ## Places of first occurrences -/

theorem findIdx_lt_of_filterMap (f : α → Option β) (p q : β → Bool) : ∀ {xs : List α},
    (xs.filterMap f).findIdx p < (xs.filterMap f).findIdx q →
      xs.findIdx (fun a => (f a).any p) < xs.findIdx fun a => (f a).any q
  | [], h => by simp at h
  | x :: xs, h => by
    rw [List.filterMap_cons] at h
    rw [List.findIdx_cons, List.findIdx_cons]
    cases hx : f x with
    | none =>
        rw [hx] at h
        have ih := findIdx_lt_of_filterMap f p q h
        simpa using ih
    | some b =>
        rw [hx] at h
        simp only [List.findIdx_cons] at h
        cases hq : q b with
        | true => simp [hq] at h
        | false =>
            cases hp : p b with
            | true => simp [hp, hq]
            | false =>
                have htail : (xs.filterMap f).findIdx p < (xs.filterMap f).findIdx q := by simpa [hp, hq] using h
                have ih := findIdx_lt_of_filterMap f p q htail
                simpa [hp, hq] using ih

theorem findIdx_lt_of_filter (keep : α → Bool) {p q : α → Bool} (hp : ∀ a, p a = true → keep a = true)
    (hq : ∀ a, q a = true → keep a = true) {xs : List α} (h : (xs.filter keep).findIdx p < (xs.filter keep).findIdx q) :
    xs.findIdx p < xs.findIdx q := by
  have hany : ∀ r : α → Bool, (∀ a, r a = true → keep a = true) →
      (fun a => (Option.guard keep a).any r) = r := by
    intro r hr
    funext a
    unfold Option.guard
    cases hk : keep a with
    | true => simp
    | false => simpa using (Bool.eq_false_iff.2 fun hra => by simp [hr a hra] at hk).symm
  rw [← List.filterMap_eq_filter] at h
  have hlt := findIdx_lt_of_filterMap _ p q h
  rwa [hany p hp, hany q hq] at hlt

/-- The first items of their keys stand in the order of their places. -/
theorem pairwise_findIdx_eraseDupsBy [BEq κ] [LawfulBEq κ] (key : α → κ) (xs : List α) :
    (xs.eraseDupsBy fun a b => key a == key b).Pairwise fun x y =>
      xs.findIdx (key · == key x) < xs.findIdx (key · == key y) := by
  induction xs using sifted_induction with
  | nil => simp
  | cons x xs ih =>
      rw [List.eraseDupsBy_cons, List.pairwise_cons]
      have hother : ∀ y ∈ (xs.filter fun a => (key a == key x) = false).eraseDupsBy (fun a b => key a == key b),
          (key x == key y) = false := by
        intro y hy
        have hne := (List.mem_filter.1 ((eraseDupsBy_sublist _ _).subset hy)).2
        rw [decide_eq_true_iff, beq_eq_false_iff_ne] at hne
        exact beq_false_of_ne (Ne.symm hne)
      refine ⟨fun y hy => ?_, (ih _).imp_of_mem fun {y z} hy hz hlt => ?_⟩
      · simp [List.findIdx_cons, hother y hy]
      · have hkeep : ∀ w, (key x == key w) = false → ∀ a, (key a == key w) = true →
            decide ((key a == key x) = false) = true := by
          intro w hw a ha
          rw [beq_iff_eq.1 ha, decide_eq_true_iff, beq_eq_false_iff_ne]
          exact Ne.symm (beq_eq_false_iff_ne.1 hw)
        have htail := findIdx_lt_of_filter _ (hkeep y (hother y hy)) (hkeep z (hother z hz)) hlt
        simpa [List.findIdx_cons, hother y hy, hother z hz] using htail

/-! ## The first item of least measure -/

/-- A fold that keeps the smaller of two items ends at one that is smaller than all before it and at most as large as
all behind it. -/
theorem foldl_least (f : α → Nat) : ∀ (xs : List α) (x : α), ∃ front least back,
    xs.foldl (fun best a => if f a < f best then a else best) x = least ∧ x :: xs = front ++ least :: back ∧
      (∀ a ∈ front, f least < f a) ∧ ∀ a ∈ back, f least ≤ f a
  | [], x => ⟨[], x, [], by simp⟩
  | y :: ys, x => by
    rw [List.foldl_cons]
    by_cases hlt : f y < f x
    · obtain ⟨front, least, back, hfold, heq, hfront, hback⟩ := foldl_least f ys y
      have hy : f least ≤ f y := by
        have hmem : y ∈ front ++ least :: back := heq ▸ List.mem_cons_self
        rcases List.mem_append.1 hmem with hmem | hmem
        · exact Nat.le_of_lt (hfront y hmem)
        · rcases List.mem_cons.1 hmem with rfl | hmem
          · exact Nat.le_refl _
          · exact hback y hmem
      refine ⟨x :: front, least, back, by rw [if_pos hlt, hfold], by rw [heq, List.cons_append], ?_, hback⟩
      intro a ha
      rcases List.mem_cons.1 ha with rfl | ha
      · omega
      · exact hfront a ha
    · obtain ⟨front, least, back, hfold, heq, hfront, hback⟩ := foldl_least f ys x
      rw [if_neg hlt]
      rcases front with _ | ⟨z, front⟩
      · obtain ⟨rfl, rfl⟩ := List.cons.inj heq
        refine ⟨[], x, y :: ys, hfold, rfl, by simp, fun a ha => ?_⟩
        rcases List.mem_cons.1 ha with rfl | ha
        · omega
        · exact hback a ha
      · rw [List.cons_append] at heq
        obtain ⟨rfl, hys⟩ := List.cons.inj heq
        refine ⟨x :: y :: front, least, back, hfold, by rw [hys]; rfl, fun a ha => ?_, hback⟩
        have hx := hfront x List.mem_cons_self
        rcases List.mem_cons.1 ha with rfl | ha
        · exact hx
        · rcases List.mem_cons.1 ha with rfl | ha
          · omega
          · exact hfront a (List.mem_cons_of_mem _ ha)

/-- A fold that keeps the smaller of two items finds the first item of least measure. -/
theorem find?_least (f : α → Nat) (x : α) (xs : List α) :
    (x :: xs).find? (fun a => (x :: xs).all fun b => f a ≤ f b) =
      some (xs.foldl (fun best a => if f a < f best then a else best) x) := by
  obtain ⟨front, least, back, hfold, heq, hfront, hback⟩ := foldl_least f xs x
  rw [hfold, heq, List.find?_eq_some_iff_append]
  refine ⟨?_, front, back, rfl, fun a ha => ?_⟩
  · simp only [List.all_eq_true, decide_eq_true_eq]
    intro b hb
    rcases List.mem_append.1 hb with hb | hb
    · exact Nat.le_of_lt (hfront b hb)
    · rcases List.mem_cons.1 hb with rfl | hb
      · exact Nat.le_refl _
      · exact hback b hb
  · have hlt := hfront a ha
    simp only [Bool.not_eq_eq_eq_not, Bool.not_true, List.all_eq_false, decide_eq_true_eq]
    exact ⟨least, by simp, by omega⟩

end Lists
end Plotline
