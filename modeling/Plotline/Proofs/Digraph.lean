import Mathlib.Data.List.Chain
import Mathlib.Data.List.Perm.Subperm
import Mathlib.Logic.Relation
import Mathlib.Order.Bounds.Defs
import Plotline.Layout.Layers
import Plotline.Proofs.Occurrence

/-!
# Directed graphs of names

A graph is a list of names with a list of edges; an edge counts if both of its ends are among the names.

* `counted`, `Leads`: the edges that count, and the relation between nodes that they make.
* `successors`: the nodes that the edges out of a node lead to, in the order of the edges.
* `firstNodes`: the nodes that no edge leads to, else the first node that the fewest edges lead to.
* `BehindCycle`: a node is on a cycle, or a cycle leads to it.
* `pathLengths`: the numbers of edges of the paths that end at a node.
* `WalkTo`: so many edges in a row end at a node. A node has walks of every length if and only if it is behind a cycle
  (`behindCycle_iff_walkTo`); otherwise its longest walk is its longest path (`isGreatest_pathLengths`).
-/

namespace Plotline.Layout

/-! ## Edges that count -/

section Counted
variable (ids : List String) (edges : List Edge)

/-- The edges between listed nodes. -/
def counted : List Edge := edges.filter fun e => ids.contains e.source && ids.contains e.target

/-- An edge between listed nodes leads from one node to another. -/
def Leads (a b : String) : Prop := ⟨a, b⟩ ∈ counted ids edges

instance (a b : String) : Decidable (Leads ids edges a b) := inferInstanceAs (Decidable (_ ∈ _))

/-- The nodes that edges lead to from a node, in the order of these edges. -/
def successors (n : String) : List String := ((counted ids edges).filter (·.source = n)).map (·.target)

/-- The nodes that no edge leads to, in order; if there are none, the first node that the fewest edges lead to. -/
def firstNodes : List String :=
  let inDegree := degree (counted ids edges)
  let sources := ids.eraseDups.filter fun n => inDegree n = 0
  if sources.isEmpty then (ids.find? fun n => ids.all fun m => inDegree n ≤ inDegree m).toList else sources

variable {ids edges}

theorem mem_counted {e : Edge} : e ∈ counted ids edges ↔ e ∈ edges ∧ e.source ∈ ids ∧ e.target ∈ ids := by
  simp [counted]

theorem Leads.source_mem {a b : String} (h : Leads ids edges a b) : a ∈ ids := (mem_counted.1 h).2.1

theorem Leads.target_mem {a b : String} (h : Leads ids edges a b) : b ∈ ids := (mem_counted.1 h).2.2

theorem mem_successors {a b : String} : b ∈ successors ids edges a ↔ Leads ids edges a b := by
  simp only [successors, List.mem_map, List.mem_filter, decide_eq_true_eq, Leads]
  constructor
  · rintro ⟨⟨_, _⟩, ⟨he, rfl⟩, rfl⟩
    exact he
  · intro h
    exact ⟨⟨a, b⟩, ⟨h, rfl⟩, rfl⟩

theorem degree_eq_zero {es : List Edge} {n : String} : degree es n = 0 ↔ ∀ a, (⟨a, n⟩ : Edge) ∉ es := by
  simp only [degree, List.countP_eq_zero, decide_eq_true_eq]
  constructor
  · intro h a ha
    exact h _ ha rfl
  · rintro h ⟨a, b⟩ he rfl
    exact h a he

theorem degree_counted_eq_zero {n : String} : degree (counted ids edges) n = 0 ↔ ∀ a, ¬ Leads ids edges a n :=
  degree_eq_zero

theorem firstNodes_of_source (h : ∃ n ∈ ids, degree (counted ids edges) n = 0) :
    firstNodes ids edges = ids.eraseDups.filter fun n => degree (counted ids edges) n = 0 := by
  obtain ⟨n, hn, hzero⟩ := h
  unfold firstNodes
  refine if_neg ?_
  rw [List.isEmpty_iff, List.filter_eq_nil_iff]
  intro hnone
  exact hnone n (List.mem_eraseDups.2 hn) (by simpa using hzero)

theorem firstNodes_of_no_source (h : ∀ n ∈ ids, degree (counted ids edges) n ≠ 0) :
    firstNodes ids edges = (ids.find? fun n => ids.all fun m =>
      degree (counted ids edges) n ≤ degree (counted ids edges) m).toList := by
  unfold firstNodes
  refine if_pos ?_
  rw [List.isEmpty_iff, List.filter_eq_nil_iff]
  intro n hn
  simpa using h n (List.mem_eraseDups.1 hn)

theorem mem_of_mem_firstNodes {n : String} (h : n ∈ firstNodes ids edges) : n ∈ ids := by
  simp only [firstNodes] at h
  split at h
  · exact List.mem_of_find?_eq_some (Option.mem_toList.1 h)
  · exact List.mem_eraseDups.1 (List.mem_filter.1 h).1

/-- What a fold finds that keeps the node with fewer edges is the first node that the fewest edges lead to. -/
theorem find?_least_degree {n : String} {ns : List String} (h : ids.eraseDups = n :: ns) (f : String → Nat) :
    ids.find? (fun a => ids.all fun b => f a ≤ f b) =
      some (ns.foldl (fun best m => if f m < f best then m else best) n) := by
  rw [← find?_least, ← h, find?_eraseDups]
  refine List.find?_congr fun a _ => ?_
  rw [Bool.eq_iff_iff, List.all_eq_true, List.all_eq_true]
  simp only [List.mem_eraseDups]

/-- The first nodes, with the fold that looks for the node with the fewest edges to it. -/
theorem firstNodes_eq : firstNodes ids edges =
    match ids.eraseDups.filter (fun n => degree (counted ids edges) n = 0), ids.eraseDups with
    | [], n :: ns => [leastDegree (counted ids edges) n ns]
    | sources, _ => sources := by
  unfold firstNodes
  rcases hsources : ids.eraseDups.filter (fun n => degree (counted ids edges) n = 0) with _ | ⟨m, sources⟩
  · rcases hids : ids.eraseDups with _ | ⟨n, ns⟩
    · have hnil : ids = [] := List.eq_nil_iff_forall_not_mem.2 fun m hm => by
        rw [← List.mem_eraseDups, hids] at hm
        exact List.not_mem_nil hm
      simp [hnil]
    · rw [hids] at hsources
      simp only [hsources, List.isEmpty_nil, if_true]
      rw [find?_least_degree hids]
      rfl
  · simp [hsources]

end Counted

/-! ## Walks and cycles -/

section Walks
variable (leads : String → String → Prop)

def BehindCycle (n : String) : Prop := ∃ c, Relation.TransGen leads c c ∧ Relation.ReflTransGen leads c n

/-- The numbers of edges of the paths that end at a node. -/
def pathLengths (n : String) : Set Nat :=
  {k | ∃ p : List String, p.Nodup ∧ p.IsChain leads ∧ p.getLast? = some n ∧ p.length = k + 1}

/-- So many edges in a row end at the node; it does not matter whether nodes repeat. -/
def WalkTo : Nat → String → Prop
  | 0, _ => True
  | k + 1, n => ∃ m, leads m n ∧ WalkTo k m

variable {leads}

theorem WalkTo.pred : ∀ {k : Nat} {n : String}, WalkTo leads (k + 1) n → WalkTo leads k n
  | 0, _, _ => trivial
  | _ + 1, _, ⟨m, hm, h⟩ => ⟨m, hm, h.pred⟩

theorem WalkTo.mono {j k : Nat} {n : String} (hjk : j ≤ k) (h : WalkTo leads k n) : WalkTo leads j n := by
  induction k with
  | zero =>
      obtain rfl : j = 0 := by omega
      exact h
  | succ k ih =>
      rcases Nat.lt_or_ge k j with hlt | hle
      · obtain rfl : j = k + 1 := by omega
        exact h
      · exact ih hle h.pred

theorem exists_longest_walk {k : Nat} {n : String} (h : ¬ WalkTo leads k n) :
    ∃ j, WalkTo leads j n ∧ ¬ WalkTo leads (j + 1) n := by
  induction k with
  | zero => exact absurd trivial h
  | succ k ih =>
      by_cases hk : WalkTo leads k n
      · exact ⟨k, hk, h⟩
      · exact ih hk

theorem walkTo_iff_exists_chain : ∀ {k : Nat} {n : String},
    WalkTo leads k n ↔ ∃ p : List String, p.IsChain leads ∧ p.getLast? = some n ∧ p.length = k + 1
  | 0, n => ⟨fun _ => ⟨[n], by simp⟩, fun _ => trivial⟩
  | k + 1, n => by
    constructor
    · rintro ⟨m, hm, h⟩
      obtain ⟨p, hp, hlast, hlen⟩ := walkTo_iff_exists_chain.1 h
      refine ⟨p ++ [n], ?_, by simp, by simp [hlen]⟩
      rw [List.isChain_append]
      refine ⟨hp, List.isChain_singleton n, ?_⟩
      simpa [hlast] using hm
    · rintro ⟨p, hp, hlast, hlen⟩
      obtain ⟨q, rfl⟩ := List.getLast?_eq_some_iff.1 hlast
      rw [List.isChain_append] at hp
      have hq : q.length = k + 1 := by simpa using hlen
      obtain ⟨m, hm⟩ : ∃ m, q.getLast? = some m := by
        rcases List.eq_nil_or_concat q with rfl | ⟨r, m, rfl⟩
        · simp at hq
        · exact ⟨m, by simp⟩
      exact ⟨m, hp.2.2 m (by simp [hm]) n (by simp), walkTo_iff_exists_chain.2 ⟨q, hp.1, hm, hq⟩⟩

theorem reflTransGen_of_isChain {p : List String} {n : String} (h : p.IsChain leads) (hlast : p.getLast? = some n) :
    ∀ x ∈ p, Relation.ReflTransGen leads x n := by
  obtain ⟨q, rfl⟩ := List.getLast?_eq_some_iff.1 hlast
  have hpair : (q ++ [n]).Pairwise (Relation.TransGen leads) :=
    List.isChain_iff_pairwise.1 (h.imp fun _ _ => Relation.TransGen.single)
  intro x hx
  rcases List.mem_append.1 hx with hx | hx
  · exact ((List.pairwise_append.1 hpair).2.2 x hx n (by simp)).to_reflTransGen
  · rw [List.mem_singleton.1 hx]

/-- A walk to a node that no cycle leads to is a path. -/
theorem nodup_of_isChain {p : List String} {n : String} (hn : ¬ BehindCycle leads n) (h : p.IsChain leads)
    (hlast : p.getLast? = some n) : p.Nodup := by
  have hpair : p.Pairwise (Relation.TransGen leads) :=
    List.isChain_iff_pairwise.1 (h.imp fun _ _ => Relation.TransGen.single)
  refine hpair.imp_of_mem fun {a b} ha _ hab heq => ?_
  subst heq
  exact hn ⟨a, hab, reflTransGen_of_isChain h hlast a ha⟩

theorem walkTo_of_reflTransGen {c n : String} (hcn : Relation.ReflTransGen leads c n) {k : Nat}
    (hc : WalkTo leads k c) : WalkTo leads k n := by
  induction hcn with
  | refl => exact hc
  | tail _ hbn ih => exact WalkTo.pred ⟨_, hbn, ih⟩

theorem walkTo_of_behindCycle {n : String} (h : BehindCycle leads n) : ∀ k, WalkTo leads k n := by
  obtain ⟨c, hcc, hcn⟩ := h
  intro k
  refine walkTo_of_reflTransGen hcn ?_
  obtain ⟨m, hcm, hmc⟩ := Relation.TransGen.tail'_iff.1 hcc
  induction k with
  | zero => trivial
  | succ k ih => exact ⟨m, hmc, walkTo_of_reflTransGen hcm ih⟩

/-- Among finitely many nodes a long walk comes from a cycle. -/
theorem behindCycle_of_walkTo {nodes : List String} {n : String} {k : Nat} (hn : n ∈ nodes)
    (hleads : ∀ a b, leads a b → a ∈ nodes) (hk : nodes.length ≤ k) (h : WalkTo leads k n) : BehindCycle leads n := by
  by_contra hcycle
  obtain ⟨p, hp, hlast, hlen⟩ := walkTo_iff_exists_chain.1 h
  have hnodup := nodup_of_isChain hcycle hp hlast
  have hsub : p ⊆ nodes := by
    intro x hx
    rcases Relation.ReflTransGen.cases_head (reflTransGen_of_isChain hp hlast x hx) with rfl | ⟨y, hxy, -⟩
    · exact hn
    · exact hleads x y hxy
  have := (List.subperm_of_subset hnodup hsub).length_le
  omega

theorem behindCycle_iff_walkTo {nodes : List String} {n : String} (hn : n ∈ nodes)
    (hleads : ∀ a b, leads a b → a ∈ nodes) : BehindCycle leads n ↔ ∀ k, WalkTo leads k n :=
  ⟨walkTo_of_behindCycle, fun h => behindCycle_of_walkTo hn hleads (Nat.le_refl _) (h _)⟩

/-- The longest walk to a node that no cycle leads to is its longest path. -/
theorem isGreatest_pathLengths {n : String} {k : Nat} (hn : ¬ BehindCycle leads n) (hk : WalkTo leads k n)
    (hmax : ¬ WalkTo leads (k + 1) n) : IsGreatest (pathLengths leads n) k := by
  constructor
  · obtain ⟨p, hp, hlast, hlen⟩ := walkTo_iff_exists_chain.1 hk
    exact ⟨p, nodup_of_isChain hn hp hlast, hp, hlast, hlen⟩
  · rintro j ⟨p, -, hp, hlast, hlen⟩
    by_contra hjk
    exact hmax (WalkTo.mono (by omega) (walkTo_iff_exists_chain.2 ⟨p, hp, hlast, hlen⟩))

end Walks
end Plotline.Layout
