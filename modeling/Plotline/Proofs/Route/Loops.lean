import Mathlib.Data.List.Permutation
import Plotline.Proofs.Route.Listing

/-!
# Routes that close a cycle

* `Forced`: a path that could only go on by closing a cycle.
* `exists_way_on`: whatever edge a simple path takes next, it can be carried on to an end or to a cycle.
* `forced_iff`: where no path ends, a path is forced if and only if no loop route goes on from it to a new node.
* `loop_routes_forced_iff`: which of the listed loop routes close a forced path.
* `loop_route_beside_way_on`: a listed loop route whose path could have gone on to a new node.
-/

namespace Plotline
open Layout

section Forced
variable (ids : List String) (edges : List Edge)

/-- A path that could only go on by closing a cycle: every edge out of its last node leads to a node on it. -/
def Forced (q : List String) : Prop := ∀ x, q.getLast? = some x → ∀ m, Leads ids edges x m → m ∈ q

end Forced

/-! ## Ways on from a path -/

/-- From every target of a step there is a way on, because a walk by that step comes upon something. -/
theorem exists_goesOn {net : Net} {n a : String} (ha : a ∈ net.targets n) (path : List String) :
    ∃ t c, GoesOn net path a t c := by
  obtain ⟨s, -, rfl⟩ := List.mem_map.1 ha
  have hne : findsFrom net path [s] ≠ [] := fun h => List.cons_ne_nil s [] (findsFrom_eq_nil.1 h)
  obtain ⟨f, hf⟩ := List.exists_mem_of_ne_nil _ hne
  obtain ⟨b, hb, t, -, hgo⟩ := mem_findsFrom.1 hf
  obtain rfl := List.mem_singleton.1 hb
  exact ⟨t, f.closed, hgo⟩

section Paths
variable {ids : List String} {links : List RouteLink} {q : List String}

/-- A simple path from a first node that takes an edge to `y` can be carried on until it ends or closes a cycle. -/
theorem exists_way_on (hbegins : ∃ e ∈ firstNodes ids (edgesOf links), q.head? = some e) (hnodup : q.Nodup)
    (hchain : q.IsChain (Leads ids (edgesOf links))) {x y : String} (hx : q.getLast? = some x)
    (hy : Leads ids (edgesOf links) x y) :
    ∃ t, EndsRoute ids (edgesOf links) (q ++ y :: t) ∨ LoopRoute ids (edgesOf links) (q ++ y :: t) := by
  obtain ⟨e, he, hhead⟩ := hbegins
  have hne : q ≠ [] := by
    rintro rfl
    cases hhead
  have hfirst : ∀ t : List String, ∃ e ∈ firstNodes ids (edgesOf links), (q ++ y :: t).head? = some e :=
    fun t => ⟨e, he, by rw [List.head?_append, hhead]; rfl⟩
  have hjoin : ∀ t : List String, (y :: t).IsChain (Leads ids (edgesOf links)) →
      (q ++ y :: t).IsChain (Leads ids (edgesOf links)) := by
    intro t ht
    refine List.isChain_append.2 ⟨hchain, ht, fun a ha b hb => ?_⟩
    obtain rfl := Option.some.inj (hx.symm.trans ha)
    obtain rfl := Option.some.inj hb
    exact hy
  obtain ⟨t, c, hgo⟩ := exists_goesOn (mem_targets_of.2 hy) q.reverse
  refine ⟨t, ?_⟩
  cases c with
  | false =>
      have hway := (goesOn_false_iff (List.nodup_reverse.2 hnodup)).1 hgo
      simp only [List.reverse_reverse, mem_targets_of, targets_of_eq_nil] at hway
      obtain ⟨hrest, hsimple, hends⟩ := hway
      have hlength : 2 ≤ (q ++ y :: t).length := by
        have hpos := List.length_pos_iff.2 hne
        rw [List.length_append, List.length_cons]
        omega
      refine Or.inl ⟨hfirst t, hlength, hsimple, hjoin t hrest, fun z hz => hends z ?_⟩
      rwa [List.getLast?_append_of_ne_nil _ (List.cons_ne_nil y t)] at hz
  | true =>
      have hway := (goesOn_true_iff (List.nodup_reverse.2 hnodup)).1 hgo
      simp only [List.reverse_reverse, mem_targets_of] at hway
      exact Or.inr ⟨hfirst t, hjoin t hway.1, hway.2⟩

/-- Before its last node, a loop route is a simple path that has this node on it. -/
theorem LoopRoute.closing {edges : List Edge} {z : String} (h : LoopRoute ids edges (q ++ [z])) : q.Nodup ∧ z ∈ q := by
  obtain ⟨q', z', heq, hnodup, hmem⟩ := h.closes
  obtain ⟨rfl, hz⟩ := List.append_inj' heq rfl
  obtain rfl := List.singleton_inj.1 hz
  exact ⟨hnodup, hmem⟩

/-- Where no path ends, a loop route closes a forced path if and only if every loop route that goes on from this path
closes there, too. -/
theorem forced_iff (hnone : ¬ ∃ p, EndsRoute ids (edgesOf links) p) {z : String}
    (hloop : LoopRoute ids (edgesOf links) (q ++ [z])) :
    Forced ids (edgesOf links) q ↔ ∀ y t, LoopRoute ids (edgesOf links) (q ++ y :: t) → y ∈ q := by
  obtain ⟨hnodup, hz⟩ := hloop.closing
  have hne : q ≠ [] := List.ne_nil_of_mem hz
  constructor
  · intro hforced y t hway
    have hlast := List.getLast?_eq_some_getLast hne
    exact hforced _ hlast y ((List.isChain_append.1 hway.chain).2.2 _ hlast y rfl)
  · intro hways x hx m hm
    obtain ⟨e, he, hhead⟩ := hloop.begins
    rw [List.head?_append_of_ne_nil _ hne] at hhead
    obtain ⟨t, hends | hway⟩ := exists_way_on ⟨e, he, hhead⟩ hnodup (List.isChain_append.1 hloop.chain).1 hx hm
    · exact absurd ⟨_, hends⟩ hnone
    · exact hways m t hway

end Paths

/-! ## The listed loop routes -/

section Listed
variable {ids : List String} {links : List RouteLink} {cap : Int}

/-- Loop routes are listed only where no path ends. -/
theorem not_endsRoute_of_loopRoutes (h : 0 < (Enumeration.of ids links cap).loopRoutes) :
    ¬ ∃ p, EndsRoute ids (edgesOf links) p := by
  rw [← pathsOf_false_eq_nil]
  by_contra hsome
  rw [loopRoutes_of, if_neg hsome] at h
  exact Nat.lt_irrefl 0 h

/-- **Listed loop routes.** If loop routes are listed, no path ends, and each of the routes closes a simple path from a
first node. It could only have gone on by closing a cycle if and only if no loop route goes on from it to a new node. -/
theorem loop_routes_forced_iff (hloops : 0 < (Enumeration.of ids links cap).loopRoutes) :
    (¬ ∃ p, EndsRoute ids (edgesOf links) p) ∧ ∀ i r, (Enumeration.of ids links cap).routes[i]? = some r →
      ∃ q z, Draws links i (q ++ [z]) r ∧ LoopRoute ids (edgesOf links) (q ++ [z]) ∧ q.Nodup ∧ z ∈ q ∧
        (Forced ids (edgesOf links) q ↔ ¬ ∃ y t, y ∉ q ∧ LoopRoute ids (edgesOf links) (q ++ y :: t)) := by
  have hnone := not_endsRoute_of_loopRoutes hloops
  refine ⟨hnone, fun i r hr => ?_⟩
  obtain ⟨p, hends | ⟨-, hloop⟩, hdraws⟩ := exists_path_of_getElem? hr
  · exact absurd ⟨p, hends⟩ hnone
  · obtain ⟨q, z, rfl, hnodup, hz⟩ := hloop.closes
    refine ⟨q, z, hdraws, hloop, hnodup, hz, ?_⟩
    rw [forced_iff hnone hloop]
    push Not
    exact forall₂_congr fun y t => not_imp_not.symm

end Listed

/-- Two eddies: both `a` and `c` lead to `b`, and `b` leads back to both. -/
def eddyLinks : List RouteLink :=
  [⟨"a", "b", .jump⟩, ⟨"b", "a", .jump⟩, ⟨"b", "c", .jump⟩, ⟨"c", "b", .jump⟩]

theorem unlike_listed_eddy :
    unlike (listed (Net.of ["a", "b", "c"] eddyLinks)) = [["a", "b", "a"], ["a", "b", "c", "b"]] := by cbv

theorem loopRoutes_eddy : 0 < (Enumeration.of ["a", "b", "c"] eddyLinks 10).loopRoutes := by
  have hends : pathsOf false (allFinds (Net.of ["a", "b", "c"] eddyLinks)) = [] := by cbv
  rw [loopRoutes_of, if_pos hends, routes_of, length_number, List.length_map, List.length_take, unlike_listed_eddy]
  decide

theorem loop_routes_forced_iff_eddy : 0 < (Enumeration.of ["a", "b", "c"] eddyLinks 10).loopRoutes ∧
    ∀ i r, (Enumeration.of ["a", "b", "c"] eddyLinks 10).routes[i]? = some r →
      ∃ q z, Draws eddyLinks i (q ++ [z]) r ∧ LoopRoute ["a", "b", "c"] (edgesOf eddyLinks) (q ++ [z]) ∧
        q.Nodup ∧ z ∈ q ∧ (Forced ["a", "b", "c"] (edgesOf eddyLinks) q ↔
          ¬ ∃ y t, y ∉ q ∧ LoopRoute ["a", "b", "c"] (edgesOf eddyLinks) (q ++ y :: t)) :=
  ⟨loopRoutes_eddy, (loop_routes_forced_iff loopRoutes_eddy).2⟩

/-- The first loop route of the eddies goes from `a` to `b` and back, although `b` leads on to `c`. -/
theorem loop_route_beside_way_on : ¬ ∀ (ids : List String) (links : List RouteLink) (cap : Int), 1 ≤ cap →
    0 < (Enumeration.of ids links cap).loopRoutes → ∀ i r, (Enumeration.of ids links cap).routes[i]? = some r →
      ∃ q z, Draws links i (q ++ [z]) r ∧ LoopRoute ids (edgesOf links) (q ++ [z]) ∧ Forced ids (edgesOf links) q := by
  intro h
  obtain ⟨r, hr, hkeys⟩ : ∃ r, (Enumeration.of ["a", "b", "c"] eddyLinks 10).routes[0]? = some r ∧
      r.links.members = ["a-b", "b-a"] := by
    rw [routes_of, unlike_listed_eddy, getElem?_number]
    exact ⟨_, rfl, by decide⟩
  obtain ⟨q, z, hdraws, hloop, hforced⟩ := h _ _ 10 (by decide) loopRoutes_eddy 0 r hr
  obtain ⟨hnodup, hz⟩ := hloop.closing
  obtain ⟨e, he, hhead⟩ := hloop.begins
  -- The keys of the route leave only the path from `a` to `b`, which is not forced.
  rcases q with _ | ⟨a, q⟩
  · cases hz
  obtain rfl : a = "a" := (Option.some.inj hhead).trans (List.mem_singleton.1 he)
  rcases q with _ | ⟨b, q⟩
  · obtain rfl := List.mem_singleton.1 hz
    have hself : "a" ∈ ["b"] := mem_successors.2 (List.isChain_cons_cons.1 hloop.chain).1
    exact absurd hself (by decide)
  obtain ⟨hab, hchain⟩ := List.isChain_cons_cons.1 hloop.chain
  obtain rfl : b = "b" := List.mem_singleton.1 (mem_successors.2 hab)
  rcases q with _ | ⟨x, q⟩
  · have hc : "c" ∈ ["a", "b"] := hforced "b" rfl "c" (mem_successors.1 (by decide))
    exact absurd hc (by decide)
  · have hx : x ∈ ["a", "c"] := mem_successors.2 (List.isChain_cons_cons.1 hchain).1
    have hnew : x ≠ "a" := by
      rintro rfl
      simp at hnodup
    obtain rfl : x = "c" := by simpa [hnew] using hx
    have hkey : "b-c" ∈ r.links.members :=
      (hdraws.mem_links "b-c").2 ⟨⟨"b", "c", .jump⟩, by decide, ⟨["a"], q ++ [z], rfl⟩, rfl⟩
    rw [hkeys] at hkey
    exact absurd hkey (by decide)

end Plotline
