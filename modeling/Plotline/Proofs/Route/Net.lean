import Plotline.Proofs.Digraph
import Plotline.Proofs.Tables
import Plotline.Route.Analysis

/-!
# The net of a graph of routes

* `Net.nodes_of`, `Net.targets_of`, `Net.key_of`: the nodes of a net, where its steps lead, and their keys.
* `Net.inDegree_of`: the steps to a node are the links that count and lead to it.
* `Net.entries_of`: routes begin at the first nodes of the graph.
-/

namespace Plotline
open Layout

def edgesOf (links : List RouteLink) : List Edge := links.map RouteLink.edge

/-- The key of a link between two nodes. -/
def linkKey (a b : String) : String := a ++ "-" ++ b

namespace Net

/-- The nodes that the steps out of a node lead to, in order. -/
def targets (net : Net) (n : String) : List String := (net.stepsOf n).map (·.1.target)

section Of
variable (ids : List String) (links : List RouteLink)

theorem nodes_of : (Net.of ids links).nodes = ids.eraseDups := NameSet.members_ofList ids

theorem mem_members_ofList {n : String} : n ∈ (NameSet.ofList ids).members ↔ n ∈ ids := by
  rw [NameSet.members_ofList, List.mem_eraseDups]

theorem map_target_stepsFrom (nodes : List String) (n : String) :
    (stepsFrom nodes links n).map (·.1.target) =
      (links.filter fun l => l.source = n ∧ l.target ∈ nodes).map (·.target) := by
  induction links with
  | nil => rfl
  | cons l links ih =>
      unfold stepsFrom at ih ⊢
      by_cases h : l.source = n ∧ l.target ∈ nodes
      · rw [List.filterMap_cons, dif_pos h, List.filter_cons, if_pos (by simpa using h)]
        simp only [List.map_cons, ih]
      · rw [List.filterMap_cons, dif_neg h, List.filter_cons, if_neg (by simpa using h)]
        exact ih

theorem stepsOf_eq (n : String) : (Net.of ids links).stepsOf n =
    (if n ∈ ids then stepsFrom (NameSet.ofList ids).members links n else [] :
      List { s : Step // s.target ∈ (NameSet.ofList ids).members }) := by
  have hget := Table.getD_ofList_map (NameSet.ofList ids).nodup
    (fun n => stepsFrom (NameSet.ofList ids).members links n) n []
  simp only [mem_members_ofList] at hget
  exact hget

theorem targets_of (n : String) : (Net.of ids links).targets n = successors ids (edgesOf links) n := by
  have hsucc : successors ids (edgesOf links) n =
      (links.filter fun l => l.source = n ∧ n ∈ ids ∧ l.target ∈ ids).map (·.target) := by
    unfold successors counted edgesOf
    rw [List.filter_map, List.filter_map, List.map_map, List.filter_filter]
    show (links.filter _).map (·.target) = _
    congr 1
    refine List.filter_congr fun l _ => ?_
    rw [Bool.eq_iff_iff]
    simp only [Function.comp_apply, Bool.and_eq_true, decide_eq_true_eq, List.contains_iff_mem]
    show l.source = n ∧ l.source ∈ ids ∧ l.target ∈ ids ↔ _
    constructor
    · rintro ⟨rfl, hs, ht⟩
      exact ⟨rfl, hs, ht⟩
    · rintro ⟨rfl, hs, ht⟩
      exact ⟨rfl, hs, ht⟩
  have hsteps : (Net.of ids links).targets n =
      (if n ∈ ids then stepsFrom (NameSet.ofList ids).members links n else []).map (·.1.target) :=
    congrArg (List.map fun s : { s : Step // s.target ∈ (NameSet.ofList ids).members } => s.1.target)
      (stepsOf_eq ids links n)
  rw [hsucc, hsteps]
  by_cases hn : n ∈ ids
  · rw [if_pos hn, map_target_stepsFrom]
    simp [hn, mem_members_ofList]
  · simp [hn]

theorem key_of {n : String} : ∀ s ∈ (Net.of ids links).stepsOf n, s.1.key = linkKey n s.1.target := by
  intro s hs
  rw [stepsOf_eq] at hs
  by_cases hn : n ∈ ids
  · rw [if_pos hn] at hs
    obtain ⟨l, -, hl⟩ := List.mem_filterMap.1 hs
    split at hl
    · rename_i h
      obtain rfl := Option.some.inj hl
      show linkKey l.source l.target = linkKey n l.target
      rw [h.1]
    · cases hl
  · rw [if_neg hn] at hs
    cases hs

/-! ## Entries -/

theorem countP_or {α : Type} {p q : α → Bool} (h : ∀ x, p x = true → q x = false) : ∀ xs : List α,
    xs.countP (fun x => p x || q x) = xs.countP p + xs.countP q
  | [] => rfl
  | x :: xs => by
    rw [List.countP_cons, List.countP_cons, List.countP_cons, countP_or h xs]
    cases hp : p x with
    | true => simp [h x hp]; omega
    | false => simp; omega

theorem total_countP_source (q : RouteLink → Bool) : ∀ {ns : List String}, ns.Nodup →
    Number.total (ns.map fun a => links.countP fun l => l.source = a && q l) =
      links.countP fun l => l.source ∈ ns && q l
  | [], _ => by simp [Number.total]
  | a :: ns, h => by
    obtain ⟨ha, hns⟩ := List.nodup_cons.1 h
    have ih := total_countP_source q hns
    show links.countP _ + Number.total _ = _
    rw [ih, ← countP_or]
    · refine List.countP_congr fun l _ => ?_
      simp only [List.mem_cons, Bool.or_eq_true, Bool.and_eq_true, decide_eq_true_eq]
      exact (or_and_right).symm
    · intro l hl
      simp only [Bool.and_eq_true, decide_eq_true_eq] at hl
      simp [hl.1, ha]

theorem countP_stepsFrom (nodes : List String) (a n : String) :
    (stepsFrom nodes links a).countP (·.1.target = n) =
      links.countP fun l => l.source = a && (decide (l.target ∈ nodes) && l.target = n) := by
  unfold stepsFrom
  rw [List.countP_filterMap]
  refine List.countP_congr fun l _ => ?_
  by_cases h : l.source = a ∧ l.target ∈ nodes
  · rw [dif_pos h]
    simp [h.1, h.2]
  · rw [dif_neg h]
    simp only [Option.map_none, Option.getD_none, Bool.false_eq_true, Bool.and_eq_true, decide_eq_true_eq, false_iff]
    rintro ⟨hs, ht, -⟩
    exact h ⟨hs, ht⟩

theorem inDegree_of (n : String) : (Net.of ids links).inDegree n = degree (counted ids (edgesOf links)) n := by
  have hvalues : (Net.of ids links).inDegree n = Number.total ((NameSet.ofList ids).members.map fun a =>
      (stepsFrom (NameSet.ofList ids).members links a).countP (·.1.target = n)) := by
    have h := congrArg (fun vs => Number.total (vs.map fun ss => ss.countP (·.1.target = n)))
      (Table.values_ofList_map (NameSet.ofList ids).nodup (stepsFrom (NameSet.ofList ids).members links))
    simp only [List.map_map] at h
    exact h
  rw [hvalues]
  simp only [countP_stepsFrom]
  rw [total_countP_source links _ (NameSet.ofList ids).nodup]
  unfold degree counted edgesOf
  rw [List.countP_filter, List.countP_map]
  refine List.countP_congr fun l _ => ?_
  simp only [Function.comp_apply, mem_members_ofList, Bool.and_eq_true, decide_eq_true_eq, List.contains_iff_mem]
  show _ ↔ l.target = n ∧ l.source ∈ ids ∧ l.target ∈ ids
  constructor
  · rintro ⟨hs, ht, he⟩
    exact ⟨he, hs, ht⟩
  · rintro ⟨he, hs, ht⟩
    exact ⟨hs, ht, he⟩

/-- Routes begin at the first nodes of the graph. -/
theorem entries_of : (Net.of ids links).entries = firstNodes ids (edgesOf links) := by
  have hdegrees : ((Net.of ids links).nodes.map fun n => (n, (Net.of ids links).inDegree n)) =
      ids.eraseDups.map fun n => (n, degree (counted ids (edgesOf links)) n) := by
    rw [nodes_of]
    simp only [inDegree_of]
  have hfilter : ((ids.eraseDups.map fun n => (n, degree (counted ids (edgesOf links)) n)).filter (·.2 = 0)).map
      (·.1) = ids.eraseDups.filter fun n => degree (counted ids (edgesOf links)) n = 0 := by
    rw [List.filter_map, List.map_map]
    simp [Function.comp_def]
  rw [firstNodes_eq]
  unfold entries
  simp only [hdegrees, hfilter]
  rcases ids.eraseDups.filter (fun n => degree (counted ids (edgesOf links)) n = 0) with _ | ⟨m, sources⟩
  · rcases ids.eraseDups with _ | ⟨n, ns⟩
    · rfl
    · -- The fold over nodes with their degrees is the fold over nodes.
      have hfold : ∀ m, ns.foldl (fun best k => if degree (counted ids (edgesOf links)) k < best.2
            then (k, degree (counted ids (edgesOf links)) k) else best) (m, degree (counted ids (edgesOf links)) m) =
          (leastDegree (counted ids (edgesOf links)) m ns,
            degree (counted ids (edgesOf links)) (leastDegree (counted ids (edgesOf links)) m ns)) := by
        unfold leastDegree
        induction ns with
        | nil => exact fun _ => rfl
        | cons k ns ih =>
            intro m
            simp only [List.foldl_cons]
            split <;> exact ih _
      simp only [List.map_cons, List.foldl_map, hfold]
  · rfl

end Of
end Net
end Plotline
