import Plotline.Proofs.Layers
import Plotline.Proofs.Strict.Adjacency

/-!
# Strict layers

Layers are made from tables: every visited node fetches what follows it, and every node that follows fetches the number
of edges to it that are left.

* `Tally`: where a run stands; `reach`, `visit`, `waves`: its steps.
* `Strict.layers`: the layers of a graph.
* `Tracks`: the tables of a run tell which nodes wait and how many pending edges lead to each.
* `Strict.layers_eq`: a strict run yields the layers of the graph, in no more waves than there are nodes.
-/

namespace Plotline.Strict
open Layout

/-! ## Runs -/

/-- Where a run stands. -/
structure Tally where
  /-- The number of edges to each node that are left. -/
  inDegree : Table String Int
  /-- The nodes that were visited, in order. -/
  visited : List String
  /-- The nodes that were ever in line, in order. -/
  queued : List String
  /-- The nodes of the layer that is under way. -/
  layer : List String := []
  /-- The nodes in line for the next layer. -/
  next : List String := []

/-- Takes away an edge to a node, which gets in line if it was the last one. -/
def reach (s : Tally) (n : String) : Run Tally := do
  let count ← s.inDegree.fetch n
  let s := { s with inDegree := s.inDegree.insert n (count - 1) }
  if count - 1 ≤ 0 && !s.visited.contains n && !s.queued.contains n then
    return { s with next := s.next ++ [n], queued := s.queued ++ [n] }
  else return s

/-- Places a node unless it was placed before. -/
def visit (successors : Table String (List String)) (s : Tally) (n : String) : Run Tally :=
  if s.visited.contains n then return s
  else do
    let targets ← successors.fetch n
    targets.foldlM reach { s with visited := s.visited ++ [n], layer := s.layer ++ [n] }

/-- Places the nodes in line, layer by layer, in at most so many rounds. -/
def waves (successors : Table String (List String)) : (rounds : Nat) → (line : List String) → Tally →
    Run (List (List String) × Tally)
  | _, [], s => return ([], s)
  | 0, _ :: _, _ => throw .rounds
  | k + 1, n :: line, s => do
    let s ← (n :: line).foldlM (visit successors) { s with layer := [], next := [] }
    let (later, last) ← waves successors k s.next s
    return ((if s.layer.isEmpty then later else s.layer :: later), last)

/-- The nodes of a graph in layers; what is never visited stands in one last layer. -/
def layers (ids : List String) (edges : List Edge) : Run (List (List String)) := do
  let a ← Adjacency.of id Edge.target ids edges
  let first ← a.first
  let (ls, s) ← waves a.successors a.inDegree.keys.length first ⟨a.inDegree, [], first, [], []⟩
  let left := a.inDegree.keys.filter (!s.visited.contains ·)
  return if left.isEmpty then ls else ls ++ [left]

/-! ## What the tables tell -/

/-- The tables of a run tell how many pending edges lead to each node. The nodes that were never in line wait, and a
node that was visited was in line. -/
structure Tracks (nodes : List String) (s : Tally) (waiting : List String) (pending : List Edge) : Prop where
  inDegree : ∀ n ∈ nodes, s.inDegree.get? n = some (degree pending n : Int)
  waiting : waiting = nodes.filter (!s.queued.contains ·)
  visited : ∀ n ∈ s.visited, n ∈ s.queued

/-- A run has put nodes in line since it stood at `s`, and visited none. -/
structure Lines (s s' : Tally) (ready : List String) : Prop where
  visited : s'.visited = s.visited
  layer : s'.layer = s.layer
  queued : s'.queued = s.queued ++ ready
  next : s'.next = s.next ++ ready

theorem Lines.trans {s₁ s₂ s₃ : Tally} {xs ys : List String} (h : Lines s₁ s₂ xs) (h' : Lines s₂ s₃ ys) :
    Lines s₁ s₃ (xs ++ ys) :=
  ⟨h'.visited.trans h.visited, h'.layer.trans h.layer, by rw [h'.queued, h.queued, List.append_assoc],
    by rw [h'.next, h.next, List.append_assoc]⟩

theorem degree_cons (e : Edge) (es : List Edge) (n : String) :
    degree (e :: es) n = degree es n + if e.target = n then 1 else 0 := by
  unfold degree
  rw [List.countP_cons]
  simp

theorem last_edge_iff (e : Edge) (es : List Edge) :
    (degree (e :: es) e.target : Int) - 1 ≤ 0 ↔ ¬es.any (·.target = e.target) = true := by
  have hzero : degree es e.target = 0 ↔ ∀ e' ∈ es, ¬e'.target = e.target := by
    simp [degree, List.countP_eq_zero]
  rw [degree_cons, if_pos rfl, List.any_eq_true]
  constructor
  · rintro hle ⟨e', he', heq⟩
    exact hzero.1 (by omega) e' he' (by simpa using heq)
  · intro hnone
    have hdegree := hzero.2 fun e' he' heq => hnone ⟨e', he', by simpa using heq⟩
    omega

section Run
variable {nodes : List String} {s : Tally} {waiting : List String}

/-- When an edge is taken away, the number of edges to its target goes down by one. -/
theorem Tracks.inDegree_insert {e : Edge} {pending : List Edge} (h : Tracks nodes s waiting (e :: pending)) :
    ∀ n ∈ nodes, (s.inDegree.insert e.target ((degree (e :: pending) e.target : Int) - 1)).get? n =
      some (degree pending n : Int) := by
  intro n hn
  rw [Table.get?_insert]
  split
  · rename_i heq
    subst heq
    rw [degree_cons, if_pos rfl]
    simp
  · rename_i hne
    rw [h.inDegree n hn, degree_cons, if_neg hne, Nat.add_zero]

theorem Tracks.mem_waiting {pending : List Edge} (h : Tracks nodes s waiting pending) {n : String} (hn : n ∈ nodes) :
    n ∈ waiting ↔ n ∉ s.queued := by
  rw [h.waiting, List.mem_filter]
  simp [hn]

/-- The last pending edge to a waiting node puts the node in line, and any other edge just goes away. -/
theorem Tracks.reach {e : Edge} {pending : List Edge} (h : Tracks nodes s waiting (e :: pending))
    (hnodes : nodes.Nodup) (he : e.target ∈ nodes) : ∃ s', Strict.reach s e.target = .ok s' ∧
      if waiting.contains e.target && !pending.any (·.target = e.target) then
        Lines s s' [e.target] ∧ Tracks nodes s' (waiting.erase e.target) pending
      else Lines s s' [] ∧ Tracks nodes s' waiting pending := by
  have hline : (decide ((degree (e :: pending) e.target : Int) - 1 ≤ 0) && !s.visited.contains e.target &&
      !s.queued.contains e.target) = (waiting.contains e.target && !pending.any (·.target = e.target)) := by
    have hvisited := h.visited e.target
    have hwaiting := h.mem_waiting he
    rw [Bool.eq_iff_iff]
    simp only [Bool.and_eq_true, decide_eq_true_eq, last_edge_iff, Bool.not_eq_true', List.contains_iff_mem,
      ← Bool.not_eq_true, hwaiting]
    tauto
  unfold Strict.reach
  rw [Table.fetch_of_get? (h.inDegree _ he), ok_bind]
  simp only [hline]
  cases hready : waiting.contains e.target && !pending.any (·.target = e.target) with
  | false => exact ⟨_, rfl, ⟨rfl, rfl, by simp, by simp⟩, h.inDegree_insert, h.waiting, h.visited⟩
  | true =>
      refine ⟨_, rfl, ⟨rfl, rfl, rfl, rfl⟩, h.inDegree_insert, ?_, fun n hn => List.mem_append_left _ (h.visited n hn)⟩
      have hnodup : waiting.Nodup := h.waiting ▸ hnodes.filter _
      rw [hnodup.erase_eq_filter, h.waiting, List.filter_filter]
      refine List.filter_congr fun n _ => ?_
      rw [Bool.eq_iff_iff]
      simp [and_comm]

/-- Taking away the edges of one node puts those nodes in line that become ready. -/
theorem Tracks.release (hnodes : nodes.Nodup) (others : List Edge) : ∀ (mine : List Edge) {s : Tally}
    {waiting : List String}, Tracks nodes s waiting (mine ++ others) → (∀ e ∈ mine, e.target ∈ nodes) →
      ∃ s', (mine.map (·.target)).foldlM Strict.reach s = .ok s' ∧ Lines s s' (Layout.release others mine waiting).1 ∧
        Tracks nodes s' (Layout.release others mine waiting).2 others
  | [], s, waiting, h, _ => ⟨s, rfl, ⟨rfl, rfl, by simp [Layout.release], by simp [Layout.release]⟩, h⟩
  | e :: mine, s, waiting, h, hends => by
    rw [List.cons_append] at h
    obtain ⟨s₁, hreach, hcase⟩ := h.reach hnodes (hends e List.mem_cons_self)
    have hrest : ∀ e ∈ mine, e.target ∈ nodes := fun e' he' => hends e' (List.mem_cons_of_mem e he')
    rw [List.map_cons, List.foldlM_cons, hreach, ok_bind, Layout.release]
    rw [List.any_append] at hcase
    split
    · rename_i hready
      rw [if_pos hready] at hcase
      obtain ⟨s₂, hfold, hlines, htracks⟩ := Tracks.release hnodes others mine hcase.2 hrest
      exact ⟨s₂, hfold, hcase.1.trans hlines, htracks⟩
    · rename_i hready
      rw [if_neg hready] at hcase
      obtain ⟨s₂, hfold, hlines, htracks⟩ := Tracks.release hnodes others mine hcase.2 hrest
      exact ⟨s₂, hfold, hcase.1.trans hlines, htracks⟩

theorem degree_filter_source (pending : List Edge) (m n : String) :
    degree (pending.filter (·.source = m) ++ pending.filter (·.source ≠ m)) n = degree pending n := by
  unfold degree
  have hperm : (pending.filter (·.source = m) ++ pending.filter (·.source ≠ m)).Perm pending := by
    have h := List.filter_append_perm (fun e : Edge => decide (e.source = m)) pending
    simpa using h
  exact hperm.countP_eq _

variable {successors : Table String (List String)}

theorem Tracks.visit {pending : List Edge} (h : Tracks nodes s waiting pending) (hnodes : nodes.Nodup)
    (hends : ∀ e ∈ pending, e.target ∈ nodes) {n : String} (hvisited : n ∉ s.visited) (hqueued : n ∈ s.queued)
    (hsuccessors : successors.get? n = some ((pending.filter (·.source = n)).map (·.target))) :
    ∃ s', Strict.visit successors s n = .ok s' ∧
      Lines { s with visited := s.visited ++ [n], layer := s.layer ++ [n] } s'
        (Layout.release (pending.filter (·.source ≠ n)) (pending.filter (·.source = n)) waiting).1 ∧
      Tracks nodes s' (Layout.release (pending.filter (·.source ≠ n)) (pending.filter (·.source = n)) waiting).2
        (pending.filter (·.source ≠ n)) := by
  have hstart : Tracks nodes { s with visited := s.visited ++ [n], layer := s.layer ++ [n] } waiting
      (pending.filter (·.source = n) ++ pending.filter (·.source ≠ n)) := by
    refine ⟨fun m hm => ?_, h.waiting, fun m hm => ?_⟩
    · rw [degree_filter_source]
      exact h.inDegree m hm
    · rcases List.mem_append.1 hm with hm | hm
      · exact h.visited m hm
      · exact List.mem_singleton.1 hm ▸ hqueued
  unfold Strict.visit
  rw [if_neg (by simpa using hvisited), Table.fetch_of_get? hsuccessors, ok_bind]
  exact Tracks.release hnodes _ _ hstart fun e he => hends e (List.mem_of_mem_filter he)

/-- Placing a layer puts those nodes in line that become ready. -/
theorem Tracks.wave (hnodes : nodes.Nodup) {es : List Edge} (hends : ∀ e ∈ es, e.target ∈ nodes)
    (hsuccessors : ∀ n ∈ nodes, successors.get? n = some ((es.filter (·.source = n)).map (·.target))) :
    ∀ (layer : List String) {s : Tally} {r : Rest}, Tracks nodes s r.waiting r.pending →
      r.pending = es.filter (·.source ∉ s.visited) → layer.Nodup →
        (∀ n ∈ layer, n ∈ nodes ∧ n ∉ s.visited ∧ n ∈ s.queued) →
          ∃ s', layer.foldlM (Strict.visit successors) s = .ok s' ∧
            Lines { s with visited := s.visited ++ layer, layer := s.layer ++ layer } s' (Layout.wave layer r).1 ∧
            Tracks nodes s' (Layout.wave layer r).2.waiting (Layout.wave layer r).2.pending
  | [], s, r, h, _, _, _ => ⟨s, rfl, ⟨by simp, by simp, by simp [Layout.wave], by simp [Layout.wave]⟩, h⟩
  | n :: layer, s, ⟨waiting, pending⟩, h, hpending, hnodup, hlayer => by
    obtain ⟨hn, hvisited, hqueued⟩ := hlayer n List.mem_cons_self
    obtain ⟨hnew, hnodup'⟩ := List.nodup_cons.1 hnodup
    simp only at h hpending
    -- `n` was not visited, so all edges out of it are pending.
    have hmine : es.filter (·.source = n) = pending.filter (·.source = n) := by
      rw [hpending, List.filter_filter]
      refine List.filter_congr fun e _ => ?_
      by_cases he : e.source = n
      · simp [he, hvisited]
      · simp [he]
    have hsucc := hsuccessors n hn
    rw [hmine] at hsucc
    obtain ⟨s₁, hvisit, hlines, htracks⟩ := h.visit hnodes
      (fun e he => hends e (List.mem_of_mem_filter (hpending ▸ he))) hvisited hqueued hsucc
    have hpending' : pending.filter (·.source ≠ n) = es.filter (·.source ∉ s₁.visited) := by
      rw [hlines.visited, hpending, List.filter_filter]
      refine List.filter_congr fun e _ => ?_
      simp [and_comm]
    have hlayer' : ∀ m ∈ layer, m ∈ nodes ∧ m ∉ s₁.visited ∧ m ∈ s₁.queued := by
      intro m hm
      obtain ⟨hm', hfresh, hline⟩ := hlayer m (List.mem_cons_of_mem n hm)
      rw [hlines.visited, hlines.queued]
      refine ⟨hm', ?_, List.mem_append_left _ hline⟩
      rw [List.mem_append, List.mem_singleton, not_or]
      exact ⟨hfresh, fun heq => hnew (heq ▸ hm)⟩
    obtain ⟨s₂, hfold, hlines', htracks'⟩ := Tracks.wave hnodes hends hsuccessors layer
      (r := ⟨_, pending.filter (·.source ≠ n)⟩) htracks hpending' hnodup' hlayer'
    rw [List.foldlM_cons, hvisit, ok_bind]
    refine ⟨s₂, hfold, ⟨?_, ?_, ?_, ?_⟩, htracks'⟩
    · rw [hlines'.visited, hlines.visited, List.append_assoc, List.singleton_append]
    · rw [hlines'.layer, hlines.layer, List.append_assoc, List.singleton_append]
    · rw [hlines'.queued, hlines.queued, List.append_assoc]
      rfl
    · rw [hlines'.next, hlines.next, List.append_assoc]
      rfl

/-! ## Whole runs -/

/-- Where a run stands before the layer `line` is placed: it has visited all nodes that were ever in line but these, and
the edges out of other nodes are pending. -/
structure Stands (nodes : List String) (es : List Edge) (s : Tally) (line : List String) (r : Rest) : Prop where
  tracks : Tracks nodes s r.waiting r.pending
  pending : r.pending = es.filter (·.source ∉ s.visited)
  queued : s.queued = s.visited ++ line
  nodup : s.queued.Nodup
  mem : ∀ n ∈ s.queued, n ∈ nodes

theorem Stands.step (hnodes : nodes.Nodup) {es : List Edge} (hends : ∀ e ∈ es, e.target ∈ nodes)
    (hsuccessors : ∀ n ∈ nodes, successors.get? n = some ((es.filter (·.source = n)).map (·.target)))
    {line : List String} {r : Rest} (h : Stands nodes es s line r) :
    ∃ s', line.foldlM (Strict.visit successors) { s with layer := [], next := [] } = .ok s' ∧ s'.layer = line ∧
      s'.next = (Layout.wave line r).1 ∧ Stands nodes es s' s'.next (Layout.wave line r).2 := by
  have hparts : (s.visited ++ line).Nodup := h.queued ▸ h.nodup
  obtain ⟨-, hline, hdisjoint⟩ := List.nodup_append.1 hparts
  have hwaiting : r.waiting.Nodup := h.tracks.waiting ▸ hnodes.filter _
  obtain ⟨hready, -⟩ := wave_waiting line r hwaiting
  have hnew : ∀ n ∈ (Layout.wave line r).1, n ∈ nodes ∧ n ∉ s.queued := by
    intro n hn
    have hmem := ((mem_wave line r hwaiting).1 hn).1
    rw [h.tracks.waiting, List.mem_filter] at hmem
    exact ⟨hmem.1, by simpa using hmem.2⟩
  have hfresh : Tracks nodes { s with layer := [], next := [] } r.waiting r.pending :=
    ⟨h.tracks.inDegree, h.tracks.waiting, h.tracks.visited⟩
  obtain ⟨s', hfold, hlines, htracks⟩ := Tracks.wave hnodes hends hsuccessors line hfresh h.pending hline
    fun n hn => by
      have hq : n ∈ s.queued := h.queued ▸ List.mem_append_right _ hn
      exact ⟨h.mem n hq, fun hv => hdisjoint n hv n hn rfl, hq⟩
  have hqueued : s'.queued = s.queued ++ (Layout.wave line r).1 := hlines.queued
  have hvisited : s'.visited = s.visited ++ line := hlines.visited
  have hnext : s'.next = (Layout.wave line r).1 := by rw [hlines.next, List.nil_append]
  refine ⟨s', hfold, by rw [hlines.layer, List.nil_append], hnext, htracks, ?_, ?_, ?_, fun n hn => ?_⟩
  · rw [wave_pending, h.pending, hvisited, List.filter_filter]
    refine List.filter_congr fun e _ => ?_
    simp [and_comm]
  · rw [hqueued, hvisited, h.queued, hnext]
  · rw [hqueued]
    exact List.nodup_append.2 ⟨h.nodup, hready, fun a ha b hb hab => (hnew b hb).2 (hab ▸ ha)⟩
  · rw [hqueued] at hn
    rcases List.mem_append.1 hn with hn | hn
    · exact h.mem n hn
    · exact (hnew n hn).1

/-- The layers of a run, with the nodes that it never visits in one last layer. -/
def complete (nodes : List String) (ls : List (List String)) (s : Tally) : List (List String) :=
  let left := nodes.filter (!s.visited.contains ·)
  if left.isEmpty then ls else ls ++ [left]

theorem complete_cons (nodes : List String) (l : List String) (ls : List (List String)) (s : Tally) :
    complete nodes (l :: ls) s = l :: complete nodes ls s := by
  unfold complete
  simp only
  split <;> rfl

/-- A run from one layer on does not break off: every wave but the last puts some waiting node in line. -/
theorem Stands.waves (hnodes : nodes.Nodup) {es : List Edge} (hends : ∀ e ∈ es, e.target ∈ nodes)
    (hsuccessors : ∀ n ∈ nodes, successors.get? n = some ((es.filter (·.source = n)).map (·.target))) :
    ∀ (rounds : Nat) {s : Tally} {line : List String} {r : Rest}, Stands nodes es s line r →
      (line ≠ [] → r.waiting.length < rounds) → ∃ ls last, Strict.waves successors rounds line s = .ok (ls, last) ∧
        complete nodes ls last = layersFrom line r
  | rounds, s, [], r, h, _ => by
    refine ⟨[], s, by cases rounds <;> rfl, ?_⟩
    have hleft : nodes.filter (!s.visited.contains ·) = r.waiting := by
      rw [h.tracks.waiting, h.queued, List.append_nil]
    unfold complete
    rw [layersFrom, hleft]
    simp
  | 0, _, n :: line, _, _, hrounds => absurd (hrounds (List.cons_ne_nil n line)) (Nat.not_lt_zero _)
  | k + 1, s, n :: line, r, h, hrounds => by
    obtain ⟨s', hfold, hlayer, hnext, hstands⟩ := h.step hnodes hends hsuccessors
    -- The next layer waits no longer, so the rounds that are left are enough for it.
    have hless : s'.next ≠ [] → (Layout.wave (n :: line) r).2.waiting.length < k := by
      intro hne
      have hlength := length_wave (n :: line) r
      have hpos : 0 < (Layout.wave (n :: line) r).1.length := List.length_pos_iff.2 (hnext ▸ hne)
      have hbound := hrounds (List.cons_ne_nil n line)
      omega
    obtain ⟨ls, last, hwaves, hcomplete⟩ := Stands.waves hnodes hends hsuccessors k hstands hless
    refine ⟨(n :: line) :: ls, last, ?_, ?_⟩
    · rw [Strict.waves, hfold, ok_bind, hwaves, ok_bind, hlayer]
      rfl
    · rw [complete_cons, hcomplete, hnext, layersFrom.eq_def (n :: line)]
      rfl

end Run

section Graph
variable (ids : List String) (edges : List Edge)

/-- The tables of a graph with its first nodes in line. -/
theorem stands_first {a : Adjacency String} (h : a.Holds id Edge.target ids edges) :
    Stands ids.eraseDups (counted ids edges) ⟨a.inDegree, [], firstNodes ids edges, [], []⟩ (firstNodes ids edges)
      ⟨ids.eraseDups.filter fun n => !(firstNodes ids edges).contains n, counted ids edges⟩ := by
  obtain ⟨_, -, hwave⟩ := exists_wave ids edges
  refine ⟨⟨fun n hn => ?_, rfl, fun n hn => ?_⟩, ?_, rfl, hwave.nodup_layer, fun n hn => ?_⟩
  · have hdegree := h.inDegree n (List.mem_eraseDups.1 hn)
    rwa [List.map_id] at hdegree
  · cases hn
  · simp
  · exact List.mem_eraseDups.2 (mem_of_mem_firstNodes hn)

theorem successors_of_holds {a : Adjacency String} (h : a.Holds id Edge.target ids edges) :
    ∀ n ∈ ids.eraseDups, a.successors.get? n =
      some (((counted ids edges).filter (·.source = n)).map (·.target)) := by
  intro n hn
  have hmem := List.mem_eraseDups.1 hn
  rw [h.successors n hmem, counted, List.filter_filter]
  congr 2
  refine List.filter_congr fun e _ => ?_
  rw [Bool.eq_iff_iff]
  simp only [id, decide_eq_true_eq, Bool.and_eq_true, List.contains_iff_mem]
  constructor
  · rintro ⟨rfl, htarget⟩
    exact ⟨rfl, hmem, htarget⟩
  · rintro ⟨hsource, -, htarget⟩
    exact ⟨hsource, htarget⟩

/-- A strict run over a graph yields its layers, in no more rounds than there are nodes. -/
theorem layers_eq : layers ids edges = .ok (Layout.layers ids edges) := by
  obtain ⟨a, htables, hholds⟩ : ∃ a, Adjacency.of id Edge.target ids edges = .ok a ∧ a.Holds id Edge.target ids edges :=
    Adjacency.of_eq ids edges
  have hfirst := hholds.first_eq
  rw [List.map_id] at hfirst
  have hends : ∀ e ∈ counted ids edges, e.target ∈ ids.eraseDups :=
    fun e he => List.mem_eraseDups.2 (mem_counted.1 he).2.2
  -- A node of the first layer does not wait.
  have hrounds : firstNodes ids edges ≠ [] →
      (ids.eraseDups.filter fun n => !(firstNodes ids edges).contains n).length < ids.eraseDups.length := by
    intro hne
    obtain ⟨n, hn⟩ := List.exists_mem_of_ne_nil _ hne
    exact List.length_filter_lt_length_iff_exists.2
      ⟨n, List.mem_eraseDups.2 (mem_of_mem_firstNodes hn), by simpa using hn⟩
  obtain ⟨ls, last, hwaves, hcomplete⟩ := (stands_first ids edges hholds).waves (nodup_eraseDups ids) hends
    (successors_of_holds ids edges hholds) ids.eraseDups.length hrounds
  unfold layers
  rw [htables, ok_bind, hfirst, ok_bind, hholds.keys, hwaves, ok_bind, Layout.layers_eq, ← hcomplete]
  rfl

end Graph

end Plotline.Strict
