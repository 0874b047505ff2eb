import Plotline.Proofs.Digraph
import Plotline.Proofs.Strict.Basic

/-!
# Strict tables of a graph

* `Adjacency`: what follows each node of a graph, and how many edges lead to it.
* `Adjacency.of`: the tables of a graph, edge by edge; an edge that counts fetches its two ends.
* `Adjacency.of_eq`: the tables have the nodes of the graph as keys, and for each of them what the edges make of it.
* `Adjacency.first_eq`: the first nodes of a graph, by fetched numbers of edges.
-/

namespace Plotline.Strict
open Layout

/-- What follows each node of a graph, and how many edges lead to it. -/
structure Adjacency (π : Type) where
  successors : Table String (List π)
  inDegree : Table String Int

namespace Adjacency
variable {α π : Type}

/-- The tables of a graph without edges. -/
def start (ids : List String) : Adjacency π :=
  let nodes := (NameSet.ofList ids).members
  ⟨Table.ofList (nodes.map fun n => (n, [])), Table.ofList (nodes.map fun n => (n, 0))⟩

section Edges
variable (edge : α → Edge) (item : α → π)

/-- Adds an edge between nodes. -/
def enter (a : Adjacency π) (x : α) : Run (Adjacency π) :=
  if a.inDegree.contains (edge x).source && a.inDegree.contains (edge x).target then do
    let items ← a.successors.fetch (edge x).source
    let count ← a.inDegree.fetch (edge x).target
    return ⟨a.successors.insert (edge x).source (items ++ [item x]), a.inDegree.insert (edge x).target (count + 1)⟩
  else return a

def of (ids : List String) (xs : List α) : Run (Adjacency π) := xs.foldlM (enter edge item) (start ids)

/-- The tables have the nodes as keys; what follows a node are the items of the edges out of it that count, and the
number of edges to a node is its in-degree. -/
structure Holds (ids : List String) (xs : List α) (a : Adjacency π) : Prop where
  keys : a.inDegree.keys = ids.eraseDups
  successors : ∀ n ∈ ids, a.successors.get? n =
    some ((xs.filter fun x => (edge x).source = n ∧ (edge x).target ∈ ids).map item)
  inDegree : ∀ n ∈ ids, a.inDegree.get? n = some (degree (counted ids (xs.map edge)) n : Int)

variable {edge item} {ids : List String} {a : Adjacency π}

theorem Holds.contains {xs : List α} (h : a.Holds edge item ids xs) {n : String} :
    a.inDegree.contains n = true ↔ n ∈ ids := by
  rw [Table.contains_eq_true_iff, h.keys, List.mem_eraseDups]

theorem holds_start : (start ids : Adjacency π).Holds edge item ids [] := by
  have hnodup : (NameSet.ofList ids).members.Nodup := (NameSet.ofList ids).nodup
  have hmem : ∀ {n}, n ∈ (NameSet.ofList ids).members ↔ n ∈ ids := by
    intro n
    rw [NameSet.members_ofList, List.mem_eraseDups]
  refine ⟨?_, fun n hn => ?_, fun n hn => ?_⟩
  · show (Table.ofList _).entries.map (·.1) = _
    rw [Table.entries_ofList_map hnodup fun _ => (0 : Int), List.map_map, ← NameSet.members_ofList]
    exact List.map_id' _
  · exact (Table.get?_ofList_map hnodup (fun _ => []) n).trans (if_pos (hmem.2 hn))
  · exact (Table.get?_ofList_map hnodup (fun _ => 0) n).trans (if_pos (hmem.2 hn))

/-- What follows a node when one more edge out of `m` is known. -/
theorem successors_concat (done : List α) (x : α) (n : String) :
    ((done ++ [x]).filter fun x => (edge x).source = n ∧ (edge x).target ∈ ids).map item =
      (done.filter fun x => (edge x).source = n ∧ (edge x).target ∈ ids).map item ++
        if (edge x).source = n ∧ (edge x).target ∈ ids then [item x] else [] := by
  rw [List.filter_append, List.map_append, List.filter_singleton]
  congr 1
  by_cases h : (edge x).source = n ∧ (edge x).target ∈ ids <;> simp [h]

theorem degree_concat (done : List α) (x : α) (n : String) :
    degree (counted ids ((done ++ [x]).map edge)) n = degree (counted ids (done.map edge)) n +
      if ((edge x).source ∈ ids ∧ (edge x).target ∈ ids) ∧ (edge x).target = n then 1 else 0 := by
  unfold degree counted
  rw [List.map_append, List.filter_append, List.countP_append]
  congr 1
  by_cases h : (edge x).source ∈ ids ∧ (edge x).target ∈ ids
  · rw [List.map_singleton, List.filter_cons_of_pos (by simpa using h), List.filter_nil, List.countP_singleton]
    simp [h.1, h.2]
  · simp [h]

theorem Holds.enter {done : List α} (h : a.Holds edge item ids done) (x : α) :
    ∃ a', enter edge item a x = .ok a' ∧ a'.Holds edge item ids (done ++ [x]) := by
  by_cases hx : (edge x).source ∈ ids ∧ (edge x).target ∈ ids
  · have hends : (a.inDegree.contains (edge x).source && a.inDegree.contains (edge x).target) = true := by
      rw [Bool.and_eq_true, h.contains, h.contains]
      exact hx
    unfold Adjacency.enter
    rw [if_pos hends, Table.fetch_of_get? (h.successors _ hx.1), ok_bind, Table.fetch_of_get? (h.inDegree _ hx.2),
      ok_bind]
    refine ⟨_, rfl, ?_, fun n hn => ?_, fun n hn => ?_⟩
    · exact (Table.keys_insert_of_contains (h.contains.2 hx.2)).trans h.keys
    · rw [Table.get?_insert, successors_concat]
      split
      · rename_i heq
        subst heq
        rw [if_pos ⟨rfl, hx.2⟩]
      · rename_i hne
        rw [if_neg fun hboth => hne hboth.1, List.append_nil]
        exact h.successors n hn
    · rw [Table.get?_insert, degree_concat]
      split
      · rename_i heq
        subst heq
        rw [if_pos ⟨hx, rfl⟩]
        rfl
      · rename_i hne
        rw [if_neg fun hboth => hne hboth.2, Nat.add_zero]
        exact h.inDegree n hn
  · have hends : ¬(a.inDegree.contains (edge x).source && a.inDegree.contains (edge x).target) = true := by
      rw [Bool.and_eq_true, h.contains, h.contains]
      exact hx
    unfold Adjacency.enter
    rw [if_neg hends]
    refine ⟨a, rfl, h.keys, fun n hn => ?_, fun n hn => ?_⟩
    · rw [successors_concat, if_neg, List.append_nil]
      · exact h.successors n hn
      · rintro ⟨rfl, htarget⟩
        exact hx ⟨hn, htarget⟩
    · rw [degree_concat, if_neg fun hboth => hx hboth.1, Nat.add_zero]
      exact h.inDegree n hn

/-- The tables of a graph are made without breaking off. -/
theorem of_eq (ids : List String) (xs : List α) :
    ∃ a : Adjacency π, Adjacency.of edge item ids xs = .ok a ∧ a.Holds edge item ids xs :=
  foldlM_induct (fun done a => Holds edge item ids done a) xs [] holds_start fun _ x _ h _ => h.enter x

end Edges

/-! ## First nodes -/

/-- The first of the nodes with the least number. -/
def least : List (String × Int) → Run String
  | [] => throw .extremum
  | d :: ds => return (ds.foldl (fun best e => if e.2 < best.2 then e else best) d).1

/-- The nodes that no edge leads to; if there are none, but nodes, the first node that the fewest edges lead to. -/
def first (a : Adjacency π) : Run (List String) := do
  let degrees ← a.inDegree.keys.mapM fun n => do return (n, ← a.inDegree.fetch n)
  let sources := (degrees.filter (·.2 = 0)).map (·.1)
  if sources.isEmpty && !degrees.isEmpty then return [← least degrees]
  else return sources

theorem least_eq (f : String → Nat) (n : String) (ns : List String) : least ((n :: ns).map fun m => (m, (f m : Int))) =
    .ok (ns.foldl (fun best m => if f m < f best then m else best) n) := by
  have hfold : ∀ m, (ns.map fun k => (k, (f k : Int))).foldl (fun best e => if e.2 < best.2 then e else best)
      (m, (f m : Int)) =
      (ns.foldl (fun best k => if f k < f best then k else best) m,
        (f (ns.foldl (fun best k => if f k < f best then k else best) m) : Int)) := by
    induction ns with
    | nil => exact fun _ => rfl
    | cons k ns ih =>
        intro m
        simp only [List.map_cons, List.foldl_cons, Int.ofNat_lt]
        split <;> exact ih _
  show Except.ok _ = _
  rw [hfold]

/-- The first nodes of a graph are found without breaking off. -/
theorem Holds.first_eq {edge : α → Edge} {item : α → π} {ids : List String} {xs : List α} {a : Adjacency π}
    (h : a.Holds edge item ids xs) : a.first = .ok (firstNodes ids (xs.map edge)) := by
  have hdegrees : a.inDegree.keys.mapM (fun n => (do return (n, ← a.inDegree.fetch n) : Run (String × Int))) =
      .ok (ids.eraseDups.map fun n => (n, (degree (counted ids (xs.map edge)) n : Int))) := by
    rw [h.keys]
    refine mapM_eq_ok fun n hn => ?_
    rw [Table.fetch_of_get? (h.inDegree n (List.mem_eraseDups.1 hn))]
    rfl
  have hsources : ((ids.eraseDups.map fun n => (n, (degree (counted ids (xs.map edge)) n : Int))).filter (·.2 = 0)).map
      (·.1) = ids.eraseDups.filter fun n => degree (counted ids (xs.map edge)) n = 0 := by
    rw [List.filter_map, List.map_map]
    simp [Function.comp_def]
  unfold Adjacency.first
  rw [hdegrees, ok_bind, firstNodes_eq]
  simp only [hsources]
  rcases ids.eraseDups.filter (fun n => degree (counted ids (xs.map edge)) n = 0) with _ | ⟨m, sources⟩
  · rcases ids.eraseDups with _ | ⟨n, ns⟩
    · rfl
    · show (least ((n :: ns).map _) >>= fun n => pure [n]) = _
      rw [least_eq]
      rfl
  · rfl

end Adjacency
end Plotline.Strict
