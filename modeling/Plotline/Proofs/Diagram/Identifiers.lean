import Mathlib.Logic.Relation
import Plotline.Diagram.Mermaid
import Plotline.Proofs.Tables
import Std.Data.String.ToNat

/-!
# Identifiers in Mermaid

* `exists_numbered`: among as many numbers as there are taken identifiers, and one more, some number makes an identifier
  that is not taken.
* `Turn`: one turn of the search for a free identifier; `exists_turns_fresh`: the turns from an identifier end at
  `fresh`.
* `contains_identifiers`: every id that was gone through has an identifier.
* `Apart`: different ids have different identifiers, made of letters, digits and underscores; `apart_assign` for one id,
  `apart_identifiers` for all.
* `Carries`: the identifiers that stand in the lines of a diagram; `identifiers_distinct`: they tell ids apart.
-/

namespace Plotline.Mermaid
open Relation Text

/-! ## The search -/

theorem numbered_inj {base : String} {m n : Nat} : numbered base m = numbered base n ↔ m = n := by
  unfold numbered
  rw [String.append_right_inj]
  exact ⟨Nat.repr_injective, fun h => congrArg toString h⟩

/-- The candidates are pairwise different, so they cannot all be taken. -/
theorem exists_numbered (taken : List String) (base : String) : ∃ candidate,
    ((List.range (taken.length + 1)).map fun i => numbered base (i + 2)).find? (!taken.contains ·) =
      some candidate := by
  rw [← Option.isSome_iff_exists, List.find?_isSome]
  by_contra hnone
  have htaken : ((List.range (taken.length + 1)).map fun i => numbered base (i + 2)) ⊆ taken := by
    intro candidate hcandidate
    by_contra hfree
    exact hnone ⟨candidate, hcandidate, by simpa using hfree⟩
  have hnodup : ((List.range (taken.length + 1)).map fun i => numbered base (i + 2)).Nodup :=
    List.nodup_range.map fun i j hij => by
      have := numbered_inj.1 hij
      omega
  have hle := hnodup.length_le_of_subset htaken
  rw [List.length_map, List.length_range] at hle
  omega

/-- One turn of the search, from a candidate and the next number: a candidate that is taken gives way to the one with
that number. -/
inductive Turn (taken : List String) (base : String) : String × Nat → String × Nat → Prop
  | next {candidate n} : candidate ∈ taken → Turn taken base (candidate, n) (numbered base n, n + 1)

section Search
variable {taken : List String} {base : String}

theorem turns_numbered (hbase : base ∈ taken) : ∀ i, (∀ j < i, numbered base (j + 2) ∈ taken) →
    ReflTransGen (Turn taken base) (base, 2) (numbered base (i + 2), i + 3)
  | 0, _ => .single (.next hbase)
  | i + 1, htaken => (turns_numbered hbase i fun j hj => htaken j (by omega)).tail (.next (htaken i (by omega)))

/-- The search ends, at an identifier that is not taken. -/
theorem exists_turns_fresh (taken : List String) (base : String) :
    ∃ n, ReflTransGen (Turn taken base) (base, 2) (fresh taken base, n) ∧ fresh taken base ∉ taken := by
  unfold fresh
  by_cases hbase : base ∈ taken
  · obtain ⟨candidate, hfind⟩ := exists_numbered taken base
    rw [if_pos (List.contains_iff_mem.2 hbase), hfind, Option.getD_some]
    rw [List.find?_map, Option.map_eq_some_iff] at hfind
    obtain ⟨i, hfirst, rfl⟩ := hfind
    -- the number found is the least free one, so all before it are taken and each makes a turn
    obtain ⟨hfree, -, htaken⟩ := List.find?_range_eq_some.1 hfirst
    exact ⟨i + 3, turns_numbered hbase i fun j hj => by simpa using htaken j hj, by simpa using hfree⟩
  · rw [if_neg (mt List.contains_iff_mem.1 hbase)]
    exact ⟨2, .refl, hbase⟩

theorem fresh_eq_base_iff : fresh taken base = base ↔ base ∉ taken := by
  obtain ⟨-, -, hfree⟩ := exists_turns_fresh taken base
  refine ⟨fun h => h ▸ hfree, fun h => ?_⟩
  exact if_neg (mt List.contains_iff_mem.1 h)

/-! ## Letters, digits and underscores -/

/-- A text of letters, digits and underscores. -/
def IsIdentifier (s : String) : Prop := ∀ c ∈ s.toList, isWordChar c = true

instance (s : String) : Decidable (IsIdentifier s) := List.decidableBAll _ _

theorem isIdentifier_identifier (id : String) : IsIdentifier (identifier id) := by
  intro c hc
  rw [identifier, String.toList_ofList, List.mem_map] at hc
  obtain ⟨d, -, rfl⟩ := hc
  split
  · assumption
  · decide

theorem isWordChar_of_isDigit {c : Char} (h : c.isDigit = true) : isWordChar c = true := by
  have hdigit : 48 ≤ c.toNat ∧ c.toNat ≤ 57 := by simpa [Char.isDigit, UInt32.le_iff_toNat_le] using h
  have hascii : c.toNat < 128 := by omega
  simp [isWordChar, Unicode.isAlphanumeric, hascii, Char.isAlphanum, h]

theorem isIdentifier_numbered (hbase : IsIdentifier base) (n : Nat) : IsIdentifier (numbered base n) := by
  intro c hc
  rw [numbered, String.toList_append, String.toList_append, List.mem_append, List.mem_append] at hc
  obtain (hc | hc) | hc := hc
  · exact hbase c hc
  · obtain rfl : c = '_' := by simpa using hc
    decide
  · exact isWordChar_of_isDigit (Nat.isDigit_of_mem_toDigits (by decide) (by decide) (Nat.toList_repr ▸ hc))

theorem Turn.isIdentifier (hbase : IsIdentifier base) {s t : String × Nat} (h : Turn taken base s t) :
    IsIdentifier t.1 := by
  cases h
  exact isIdentifier_numbered hbase _

theorem isIdentifier_of_turns (hbase : IsIdentifier base) {n : Nat} {t : String × Nat}
    (h : ReflTransGen (Turn taken base) (base, n) t) : IsIdentifier t.1 := by
  cases h with
  | refl => exact hbase
  | tail _ hlast => exact hlast.isIdentifier hbase

end Search

/-! ## Identifiers of ids -/

theorem contains_assign {ids : Table String String} {id k : String} :
    (assign ids id).contains k = true ↔ k = id ∨ ids.contains k = true := by
  unfold assign
  split
  · rename_i hid
    exact ⟨Or.inr, fun h => h.elim (fun heq => heq ▸ hid) fun hk => hk⟩
  · exact Table.contains_insert

theorem contains_foldl_assign {k : String} : ∀ {ids : List String} {t : Table String String},
    (ids.foldl assign t).contains k = true ↔ k ∈ ids ∨ t.contains k = true
  | [], t => by simp
  | id :: ids, t => by
    rw [List.foldl_cons, contains_foldl_assign, contains_assign, List.mem_cons]
    tauto

/-- Every id that was gone through has an identifier, and no other one. -/
theorem contains_identifiers {ids : List String} {k : String} : (identifiers ids).contains k = true ↔ k ∈ ids := by
  rw [identifiers, contains_foldl_assign]
  exact or_iff_left fun h => Bool.noConfusion h

/-- Identifiers of letters, digits and underscores, a different one for each id. -/
structure Apart (t : Table String String) : Prop where
  nodup : t.values.Nodup
  isIdentifier : ∀ x ∈ t.values, IsIdentifier x

theorem Apart.inj {t : Table String String} (h : Apart t) {a b x : String} (ha : t.get? a = some x)
    (hb : t.get? b = some x) : a = b :=
  congrArg Prod.fst
    (List.inj_on_of_nodup_map h.nodup (Table.mem_entries_iff.2 ha) (Table.mem_entries_iff.2 hb) rfl)

theorem values_assign {t : Table String String} {id : String} (h : t.contains id = false) :
    (assign t id).values = t.values ++ [fresh t.values (identifier id)] := by
  have hid : id ∉ t.keys := fun hmem => by rw [Table.contains_eq_true_iff.2 hmem] at h; cases h
  rw [assign, if_neg (by simp [h]), Table.values, Table.entries_insert hid, List.map_append]
  rfl

theorem apart_assign {t : Table String String} (h : Apart t) (id : String) : Apart (assign t id) := by
  cases hid : t.contains id with
  | true =>
      rw [assign, if_pos hid]
      exact h
  | false =>
      obtain ⟨n, hturns, hfree⟩ := exists_turns_fresh t.values (identifier id)
      have hfresh := isIdentifier_of_turns (isIdentifier_identifier id) hturns
      constructor
      · rw [values_assign hid, ← List.concat_eq_append, List.nodup_concat]
        exact ⟨hfree, h.nodup⟩
      · rw [values_assign hid, List.forall_mem_append, List.forall_mem_singleton]
        exact ⟨h.isIdentifier, hfresh⟩

theorem apart_foldl_assign : ∀ (ids : List String) {t : Table String String}, Apart t → Apart (ids.foldl assign t)
  | [], _, h => h
  | id :: ids, _, h => apart_foldl_assign ids (apart_assign h id)

theorem apart_identifiers (ids : List String) : Apart (identifiers ids) :=
  apart_foldl_assign ids ⟨List.nodup_nil, fun _ hx => absurd hx List.not_mem_nil⟩

/-! ## Which id keeps its form -/

theorem get?_assign_of_some {t : Table String String} {k x : String} (h : t.get? k = some x) (id : String) :
    (assign t id).get? k = some x := by
  unfold assign
  split
  · exact h
  · rename_i hid
    rw [Table.get?_insert, if_neg, h]
    rintro rfl
    exact hid (by rw [Table.contains, h]; rfl)

/-- An id never loses its identifier. -/
theorem get?_foldl_assign_of_some : ∀ (ids : List String) {t : Table String String} {k x : String},
    t.get? k = some x → (ids.foldl assign t).get? k = some x
  | [], _, _, _, h => h
  | id :: ids, _, _, _, h => get?_foldl_assign_of_some ids (get?_assign_of_some h id)

section Front
variable {front back : List String}

theorem get?_identifiers_append {k : String} (hk : k ∈ front) :
    (identifiers (front ++ back)).get? k = (identifiers front).get? k := by
  obtain ⟨x, hx⟩ := Option.isSome_iff_exists.1 (contains_identifiers.2 hk)
  rw [hx, identifiers, List.foldl_append]
  exact get?_foldl_assign_of_some back hx

theorem mem_values_identifiers (back : List String) {x : String} :
    x ∈ (identifiers front).values ↔ ∃ k ∈ front, (identifiers (front ++ back)).get? k = some x := by
  rw [Table.mem_values]
  constructor
  · rintro ⟨k, hk⟩
    have hmem : k ∈ front := contains_identifiers.1 (by rw [Table.contains, hk]; rfl)
    exact ⟨k, hmem, (get?_identifiers_append hmem).trans hk⟩
  · rintro ⟨k, hmem, hk⟩
    exact ⟨k, (get?_identifiers_append hmem).symm.trans hk⟩

theorem get?_identifiers_first {id : String} (hid : id ∉ front) : (identifiers (front ++ id :: back)).get? id =
    some (fresh (identifiers front).values (identifier id)) := by
  have hnew : (identifiers front).contains id = false := by
    rw [← Bool.not_eq_true, contains_identifiers]
    exact hid
  have hassign : (assign (identifiers front) id).get? id = some (fresh (identifiers front).values (identifier id)) := by
    rw [assign, if_neg (by simp [hnew]), Table.get?_insert, if_pos rfl]
  rw [identifiers, List.foldl_append, List.foldl_cons]
  exact get?_foldl_assign_of_some back hassign

end Front

/-! ## Identifiers in a diagram -/

/-- The identifier at the head of a line, behind two blanks. -/
def leading (line : String) : List Char := (line.toList.drop 2).takeWhile isWordChar

def trailing (line : String) : List Char := (line.toList.reverse.takeWhile isWordChar).reverse

/-- A node or an end of an edge, by its id, and the identifier that stands for it in the line that declares the node or
draws the edge. -/
inductive Carries (d : Diagram) (labels : Bool) : String → List Char → Prop
  | node {n} : n ∈ d.nodes → Carries d labels n.id (leading ((nodeLines d.mermaidIds n).headD ""))
  | source {e} : e ∈ d.edges → Carries d labels e.source (leading (edgeLine labels d.mermaidIds e))
  | target {e} : e ∈ d.edges → Carries d labels e.target (trailing (edgeLine labels d.mermaidIds e))

theorem leading_eq {x : String} (hx : IsIdentifier x) {line : String} {c : Char} {rest : List Char}
    (hline : line.toList = ' ' :: ' ' :: (x.toList ++ c :: rest)) (hc : isWordChar c = false) :
    leading line = x.toList := by
  rw [leading, hline, List.drop_succ_cons, List.drop_succ_cons, List.drop_zero, List.takeWhile_append_of_pos hx,
    List.takeWhile_cons_of_neg (by simp [hc]), List.append_nil]

theorem trailing_eq {x : String} (hx : IsIdentifier x) {line : String} {c : Char} {front : List Char}
    (hline : line.toList = front ++ c :: x.toList) (hc : isWordChar c = false) : trailing line = x.toList := by
  have hreverse : line.toList.reverse = x.toList.reverse ++ c :: front.reverse := by simp [hline]
  rw [trailing, hreverse, List.takeWhile_append_of_pos fun c hc => hx c (List.mem_reverse.1 hc),
    List.takeWhile_cons_of_neg (by simp [hc]), List.append_nil, List.reverse_reverse]

theorem exists_opening (n : DiagramNode) : ∃ c rest, (brackets n).1.toList = c :: rest ∧ isWordChar c = false := by
  unfold brackets
  split
  · exact ⟨'\x7b', ['\x7b'], rfl, by decide⟩
  · exact ⟨'[', ['"'], rfl, by decide⟩

theorem headD_nodeLines (ids : Table String String) (n : DiagramNode) : (nodeLines ids n).headD "" =
    "  " ++ ids.getD n.id "" ++ (brackets n).1 ++ escaped n.label ++ (brackets n).2 ++ style n := rfl

theorem exists_edgeLine_source (labels : Bool) (ids : Table String String) (e : DiagramEdge) :
    ∃ rest, (edgeLine labels ids e).toList = ' ' :: ' ' :: ((ids.getD e.source "").toList ++ ' ' :: rest) := by
  simp only [edgeLine, String.toList_append, List.append_assoc]
  exact ⟨_, rfl⟩

theorem exists_edgeLine_target (labels : Bool) (ids : Table String String) (e : DiagramEdge) :
    ∃ front, (edgeLine labels ids e).toList = front ++ ' ' :: (ids.getD e.target "").toList := by
  rw [edgeLine, String.toList_append, String.toList_append, List.append_assoc]
  exact ⟨_, rfl⟩

theorem get?_mermaidIds {d : Diagram} {id : String}
    (hid : id ∈ d.nodes.map (·.id) ++ d.edges.flatMap fun e => [e.source, e.target]) :
    d.mermaidIds.get? id = some (d.mermaidIds.getD id "") ∧ IsIdentifier (d.mermaidIds.getD id "") := by
  obtain ⟨s, hs⟩ : ∃ s, d.mermaidIds.get? id = some s := Option.isSome_iff_exists.1 (contains_identifiers.2 hid)
  rw [Table.getD, hs]
  exact ⟨rfl, (apart_identifiers _).isIdentifier s (Table.mem_values.2 ⟨id, hs⟩)⟩

theorem Carries.get? {d : Diagram} {labels : Bool} {id : String} {x : List Char} (h : Carries d labels id x) :
    ∃ s, d.mermaidIds.get? id = some s ∧ x = s.toList := by
  cases h with
  | @node n hn =>
      obtain ⟨hget, hword⟩ := get?_mermaidIds (List.mem_append_left _ (List.mem_map_of_mem hn))
      obtain ⟨c, rest, hopening, hc⟩ := exists_opening n
      have hchars : ((nodeLines d.mermaidIds n).headD "").toList = ' ' :: ' ' :: ((d.mermaidIds.getD n.id "").toList ++
          c :: (rest ++ (escaped n.label ++ (brackets n).2 ++ style n).toList)) := by
        rw [headD_nodeLines]
        simp [hopening]
      exact ⟨_, hget, leading_eq hword hchars hc⟩
  | @source e he =>
      obtain ⟨hget, hword⟩ := get?_mermaidIds (List.mem_append_right _ (List.mem_flatMap.2 ⟨e, he, List.mem_cons_self⟩))
      obtain ⟨rest, hchars⟩ := exists_edgeLine_source labels d.mermaidIds e
      exact ⟨_, hget, leading_eq hword hchars (by decide)⟩
  | @target e he =>
      obtain ⟨hget, hword⟩ := get?_mermaidIds
        (List.mem_append_right _ (List.mem_flatMap.2 ⟨e, he, List.mem_cons_of_mem _ List.mem_cons_self⟩))
      obtain ⟨front, hchars⟩ := exists_edgeLine_target labels d.mermaidIds e
      exact ⟨_, hget, trailing_eq hword hchars (by decide)⟩

/-- **Identifiers tell ids apart.** Each id of a list has an identifier of letters, digits and underscores, and
different ids have different ones. Where an id comes first, the search from its own form ends, and it keeps that form if
and only if no earlier id has taken it. So the lines of a diagram carry the same identifier for the same id, and only
for it. -/
theorem identifiers_distinct (ids : List String) :
    (∀ id ∈ ids, ∃ x, (identifiers ids).get? id = some x ∧ IsIdentifier x) ∧
      (∀ a b x, (identifiers ids).get? a = some x → (identifiers ids).get? b = some x → a = b) ∧
      (∀ front id back, ids = front ++ id :: back → id ∉ front → ∃ x n, (identifiers ids).get? id = some x ∧
        ReflTransGen (Turn (identifiers front).values (identifier id)) (identifier id, 2) (x, n) ∧
        x ∉ (identifiers front).values ∧
        (x = identifier id ↔ ∀ k ∈ front, (identifiers ids).get? k ≠ some (identifier id))) ∧
      ∀ (d : Diagram) (labels : Bool) a b x y, Carries d labels a x → Carries d labels b y → (x = y ↔ a = b) := by
  refine ⟨fun id hid => ?_, fun a b x ha hb => (apart_identifiers ids).inj ha hb, ?_, ?_⟩
  · obtain ⟨x, hx⟩ : ∃ x, (identifiers ids).get? id = some x := Option.isSome_iff_exists.1 (contains_identifiers.2 hid)
    exact ⟨x, hx, (apart_identifiers ids).isIdentifier x (Table.mem_values.2 ⟨id, hx⟩)⟩
  · rintro front id back rfl hid
    obtain ⟨n, hturns, hfree⟩ := exists_turns_fresh (identifiers front).values (identifier id)
    refine ⟨_, n, get?_identifiers_first hid, hturns, hfree, ?_⟩
    -- what is taken in front stays with its id, so it can be looked up at the end
    rw [fresh_eq_base_iff, mem_values_identifiers (id :: back)]
    simp only [not_exists, not_and, ne_eq]
  · intro d labels a b x y ha hb
    obtain ⟨s, hs, rfl⟩ := ha.get?
    obtain ⟨t, ht, rfl⟩ := hb.get?
    rw [String.toList_inj]
    constructor
    · rintro rfl
      exact (apart_identifiers _).inj hs ht
    · rintro rfl
      exact Option.some.inj (hs.symm.trans ht)

/-- Four ids of nearly one form. The second takes the form of the third. -/
def slashes : Diagram where
  nodes := [{ id := "a/b", label := "" }, { id := "a_b", label := "" }]
  edges := [{ source := "a_b_2", target := "a b" }]

theorem identifiers_distinct_slashes :
    (identifiers ["a/b", "a_b", "a_b_2", "a b"]).values = ["a_b", "a_b_2", "a_b_2_2", "a_b_3"] ∧
      (∃ x n, (identifiers ["a/b", "a_b", "a_b_2", "a b"]).get? "a_b_2" = some x ∧
        ReflTransGen (Turn ["a_b", "a_b_2"] "a_b_2") ("a_b_2", 2) (x, n) ∧ x ≠ "a_b_2") ∧
      Carries slashes true "a_b" "a_b_2".toList ∧ Carries slashes true "a_b_2" "a_b_2_2".toList ∧
      ("a_b_2".toList = "a_b_2_2".toList ↔ "a_b" = "a_b_2") := by
  obtain ⟨-, -, hfirst, hcarries⟩ := identifiers_distinct ["a/b", "a_b", "a_b_2", "a b"]
  have hnode : Carries slashes true "a_b" "a_b_2".toList := by
    have hline : leading ((nodeLines slashes.mermaidIds { id := "a_b", label := "" }).headD "") = "a_b_2".toList := by
      decide +kernel
    have hmem : ({ id := "a_b", label := "" } : DiagramNode) ∈ slashes.nodes := by decide
    rw [← hline]
    exact .node hmem
  have hsource : Carries slashes true "a_b_2" "a_b_2_2".toList := by
    have hline : leading (edgeLine true slashes.mermaidIds { source := "a_b_2", target := "a b" }) =
        "a_b_2_2".toList := by decide +kernel
    have hmem : ({ source := "a_b_2", target := "a b" } : DiagramEdge) ∈ slashes.edges := by decide
    rw [← hline]
    exact .source hmem
  refine ⟨by decide +kernel, ?_, hnode, hsource, hcarries slashes true _ _ _ _ hnode hsource⟩
  obtain ⟨x, n, hget, hturns, -, hform⟩ := hfirst ["a/b", "a_b"] "a_b_2" ["a b"] rfl (by decide)
  have hvalues : (identifiers ["a/b", "a_b"]).values = ["a_b", "a_b_2"] := by decide +kernel
  have hself : identifier "a_b_2" = "a_b_2" := by decide +kernel
  rw [hvalues, hself] at hturns
  rw [hself] at hform
  exact ⟨x, n, hget, hturns, fun h => hform.1 h "a_b" (by decide) (by decide +kernel)⟩

end Plotline.Mermaid
