import Plotline.Proofs.Route.Paths

/-!
# The routes of a graph

* `signature_injective`: names without an arrow can be read back from the text of a path.
* `mem_keysAlong`: the keys along a path are those of the links between its neighbours.
* `Draws`: a route is drawn along a path.
* `routes_listing`: the routes are drawn along exactly the paths to list, in depth-first order, each path once.
* `routes_take`: the routes under a smaller cap are the first of those under a larger one.
* `routes_ne_nil_iff`: a graph in which an edge leads to every node has a route if and only if its entry leads
  somewhere.
-/

namespace Plotline
open Layout

/-! ## Paths as texts -/

/-- A text without an arrow can be read back from in front of an arrow. -/
theorem append_arrow_inj {a c x y : List Char} (ha : ¬ ['-', '>'] <:+: a) (hc : ¬ ['-', '>'] <:+: c)
    (h : a ++ '-' :: '>' :: x = c ++ '-' :: '>' :: y) : a = c ∧ x = y := by
  have hlonger : ∀ {a c x y : List Char}, ¬ ['-', '>'] <:+: c → ∀ z, c = a ++ z →
      '-' :: '>' :: x = z ++ '-' :: '>' :: y → a = c ∧ x = y := by
    intro a c x y hc z hz h
    rcases z with _ | ⟨z₁, _ | ⟨z₂, z⟩⟩
    · simp at hz h
      exact ⟨hz.symm, h⟩
    · simp at h
    · simp at h
      exact absurd ⟨a, z, by rw [hz, ← h.1, ← h.2.1]; simp⟩ hc
  rcases List.append_eq_append_iff.1 h with ⟨z, hz, h⟩ | ⟨z, hz, h⟩
  · exact hlonger hc z hz h
  · obtain ⟨hca, hyx⟩ := hlonger ha z hz h
    exact ⟨hca.symm, hyx.symm⟩

theorem toList_signature_cons_cons (a b : String) (p : List String) :
    (signature (a :: b :: p)).toList = a.toList ++ '-' :: '>' :: (signature (b :: p)).toList := by
  unfold signature
  rw [String.intercalate_cons_cons, String.toList_append, String.toList_append]
  simp

/-- Names without an arrow can be read back from the text of a path. -/
theorem signature_injective : ∀ {p q : List String}, p ≠ [] → q ≠ [] →
    (∀ n ∈ p, ¬ ['-', '>'] <:+: n.toList) → (∀ n ∈ q, ¬ ['-', '>'] <:+: n.toList) →
    signature p = signature q → p = q
  | [a], [b], _, _, _, _, h => by
    have hab : a = b := by simpa [signature] using h
    rw [hab]
  | [a], b :: c :: q, _, _, ha, _, h => by
    have hlist := congrArg String.toList h
    rw [toList_signature_cons_cons] at hlist
    refine absurd ⟨b.toList, (signature (c :: q)).toList, ?_⟩ (ha a (by simp))
    simpa [signature] using hlist.symm
  | a :: b :: p, [c], _, _, _, hc, h => by
    have hlist := congrArg String.toList h
    rw [toList_signature_cons_cons] at hlist
    refine absurd ⟨a.toList, (signature (b :: p)).toList, ?_⟩ (hc c (by simp))
    simpa [signature] using hlist
  | a :: b :: p, c :: d :: q, _, _, hp, hq, h => by
    have hlist := congrArg String.toList h
    rw [toList_signature_cons_cons, toList_signature_cons_cons] at hlist
    obtain ⟨hac, hrest⟩ := append_arrow_inj (hp a (by simp)) (hq c (by simp)) hlist
    have ih : b :: p = d :: q := signature_injective (by simp) (by simp) (fun n hn => hp n (List.mem_cons_of_mem _ hn))
      (fun n hn => hq n (List.mem_cons_of_mem _ hn)) (String.toList_injective hrest)
    rw [String.toList_injective hac, ih]

/-! ## Routes along paths -/

/-- A route that is drawn along a path: its number, its colour, and the keys of the links on the path. -/
structure Draws (links : List RouteLink) (i : Nat) (p : List String) (r : Route) : Prop where
  id_eq : r.id = i
  color_eq : r.color = Palette.color i
  mem_links : ∀ k, k ∈ r.links.members ↔ ∃ l ∈ links, [l.source, l.target] <:+: p ∧ l.key = k

theorem mem_keysAlong {k : String} : ∀ {p : List String},
    k ∈ keysAlong p ↔ ∃ a b, [a, b] <:+: p ∧ k = linkKey a b
  | [] => by simp [keysAlong]
  | [a] => by
    refine ⟨fun h => absurd h List.not_mem_nil, ?_⟩
    rintro ⟨b, c, hinfix, -⟩
    have := hinfix.length_le
    simp at this
  | a :: b :: p => by
    rw [keysAlong, List.mem_cons, mem_keysAlong (p := b :: p)]
    constructor
    · rintro (rfl | ⟨c, d, hinfix, rfl⟩)
      · exact ⟨a, b, (List.prefix_append [a, b] p).isInfix, rfl⟩
      · exact ⟨c, d, hinfix.trans (List.suffix_cons a _).isInfix, rfl⟩
    · rintro ⟨c, d, hinfix, rfl⟩
      rcases List.infix_cons_iff.1 hinfix with hprefix | hinfix
      · obtain ⟨rfl, hrest⟩ := List.cons_prefix_cons.1 hprefix
        obtain ⟨rfl, -⟩ := List.cons_prefix_cons.1 hrest
        exact Or.inl rfl
      · exact Or.inr ⟨c, d, hinfix, rfl⟩

theorem getElem?_number (keys : List (List String)) (i : Nat) :
    (Enumeration.number keys)[i]? = keys[i]?.map fun ks => ⟨i, Palette.color i, NameSet.ofList ks⟩ := by
  unfold Enumeration.number
  rw [List.getElem?_map, List.getElem?_zipIdx, Option.map_map]
  simp [Function.comp_def]

/-- The route that is numbered `i` is drawn along its path if edges lead along the path. -/
theorem draws_of_chain {ids : List String} {links : List RouteLink} {p : List String}
    (hchain : p.IsChain (Leads ids (edgesOf links))) (i : Nat) :
    Draws links i p ⟨i, Palette.color i, NameSet.ofList (keysAlong p)⟩ where
  id_eq := rfl
  color_eq := rfl
  mem_links k := by
    rw [NameSet.members_ofList, List.mem_eraseDups, mem_keysAlong]
    constructor
    · rintro ⟨a, b, hinfix, rfl⟩
      have hleads : Leads ids (edgesOf links) a b := List.isChain_pair.1 <| List.IsChain.infix hchain hinfix
      obtain ⟨l, hl, hedge⟩ := List.mem_map.1 (mem_counted.1 hleads).1
      obtain ⟨rfl, rfl⟩ := Edge.mk.inj hedge
      exact ⟨l, hl, hinfix, rfl⟩
    · rintro ⟨l, -, hinfix, rfl⟩
      exact ⟨l.source, l.target, hinfix, rfl⟩

theorem mem_of_isChain_leads {ids : List String} {edges : List Edge} : ∀ {p : List String},
    p.IsChain (Leads ids edges) → (∀ e, p.head? = some e → e ∈ ids) → ∀ n ∈ p, n ∈ ids
  | a :: p, hchain, hhead, n, hn => by
    rcases List.mem_cons.1 hn with rfl | hn
    · exact hhead n rfl
    · refine mem_of_isChain_leads hchain.tail (fun e he => ?_) n hn
      rcases p with _ | ⟨b, p⟩
      · cases he
      · obtain rfl := Option.some.inj he
        exact (List.isChain_cons_cons.1 hchain).1.target_mem

theorem IsRoute.mem_ids {ids : List String} {edges : List Edge} {p : List String} (h : IsRoute ids edges p) :
    ∀ n ∈ p, n ∈ ids := by
  obtain ⟨e, he, hhead⟩ := h.begins
  refine mem_of_isChain_leads h.chain fun e' he' => ?_
  obtain rfl := Option.some.inj (hhead.symm.trans he')
  exact mem_of_mem_firstNodes he

theorem exists_path_of_getElem? {ids : List String} {links : List RouteLink} {cap : Int} {i : Nat} {r : Route}
    (h : (Enumeration.of ids links cap).routes[i]? = some r) :
    ∃ p, IsRoute ids (edgesOf links) p ∧ Draws links i p r := by
  rw [routes_of, getElem?_number, List.getElem?_map, Option.map_map, Option.map_eq_some_iff] at h
  obtain ⟨p, hp, rfl⟩ := h
  have hlisted : p ∈ listed (Net.of ids links) :=
    (eraseDupsBy_sublist _ _).subset (List.mem_of_mem_take (List.mem_of_getElem? hp))
  have hroute := mem_listed.1 hlisted
  exact ⟨p, hroute, draws_of_chain hroute.chain i⟩

/-- **The routes of a graph.** If no name has an arrow in it, there is a list of exactly the paths to list, each once,
in depth-first order, and if the cap is not less than their number, the routes are drawn along them. -/
theorem routes_listing (ids : List String) (links : List RouteLink)
    (harrow : ∀ n ∈ ids, ¬ ['-', '>'] <:+: n.toList) :
    ∃ paths : List (List String), paths.Nodup ∧ (∀ p, p ∈ paths ↔ IsRoute ids (edgesOf links) p) ∧
      paths.Pairwise (Precedes (successors ids (edgesOf links)) (firstNodes ids (edgesOf links))) ∧
      ∀ cap : Int, paths.length ≤ cap → (Enumeration.of ids links cap).routes.length = paths.length ∧
        ∀ i p, paths[i]? = some p → ∃ r, (Enumeration.of ids links cap).routes[i]? = some r ∧ Draws links i p r := by
  have hunlike : unlike (listed (Net.of ids links)) = (listed (Net.of ids links)).eraseDups := by
    refine eraseDupsBy_key signature _ fun p hp q hq hpq => ?_
    have hp' := mem_listed.1 hp
    have hq' := mem_listed.1 hq
    exact signature_injective hp'.ne_nil hq'.ne_nil (fun n hn => harrow n (hp'.mem_ids n hn))
      (fun n hn => harrow n (hq'.mem_ids n hn)) hpq
  have htargets : (Net.of ids links).targets = successors ids (edgesOf links) :=
    funext (Net.targets_of ids links)
  refine ⟨(listed (Net.of ids links)).eraseDups, nodup_eraseDups _, ?_, ?_, ?_⟩
  · intro p
    rw [List.mem_eraseDups]
    exact mem_listed
  · rw [← htargets, ← Net.entries_of]
    exact (settled_listed _).pairwise_eraseDups
  · intro cap hcap
    have htake : (listed (Net.of ids links)).eraseDups.take cap.toNat = (listed (Net.of ids links)).eraseDups :=
      List.take_of_length_le (by omega)
    rw [routes_of, hunlike, htake]
    refine ⟨by simp [Enumeration.number], ?_⟩
    intro i p hp
    have hroute : IsRoute ids (edgesOf links) p :=
      mem_listed.1 (List.mem_eraseDups.1 (List.mem_of_getElem? hp))
    refine ⟨_, ?_, draws_of_chain hroute.chain i⟩
    rw [getElem?_number, List.getElem?_map, hp]
    rfl

/-- Two ways to an end, a link back to the start, and a link from a node that is not listed. -/
def forkLinks : List RouteLink :=
  [⟨"left", "start", .jump⟩, ⟨"start", "left", .call⟩, ⟨"left", "end", .implicit⟩, ⟨"start", "end", .jump⟩,
    ⟨"shop", "start", .jump⟩]

theorem routes_listing_fork :
    (∀ n ∈ ["start", "left", "end"], ¬ ['-', '>'] <:+: n.toList) ∧
      ∃ paths : List (List String), paths.Nodup ∧
        (∀ p, p ∈ paths ↔ IsRoute ["start", "left", "end"] (edgesOf forkLinks) p) ∧
        paths.Pairwise (Precedes (successors ["start", "left", "end"] (edgesOf forkLinks)) ["start"]) ∧
        ∀ cap : Int, paths.length ≤ cap →
          (Enumeration.of ["start", "left", "end"] forkLinks cap).routes.length = paths.length ∧
          ∀ i p, paths[i]? = some p → ∃ r,
            (Enumeration.of ["start", "left", "end"] forkLinks cap).routes[i]? = some r ∧ Draws forkLinks i p r :=
  ⟨by decide, routes_listing _ _ (by decide)⟩

/-! ## Smaller caps -/

theorem number_take (keys : List (List String)) (n : Nat) :
    Enumeration.number (keys.take n) = (Enumeration.number keys).take n := by
  apply List.ext_getElem?
  intro i
  rw [getElem?_number, List.getElem?_take, List.getElem?_take, getElem?_number]
  split <;> rfl

/-- **A smaller cap cuts the list of routes off.** The routes under a cap are the first of those under any larger one,
with the same numbers, colours and links; a negative cap counts as zero. -/
theorem routes_take (ids : List String) (links : List RouteLink) {m n : Int} (hmn : m ≤ n) :
    (Enumeration.of ids links m).routes = (Enumeration.of ids links n).routes.take (max m 0).toNat := by
  have hcap : min (max m 0).toNat n.toNat = m.toNat := by omega
  calc (Enumeration.of ids links m).routes
      = Enumeration.number (((unlike (listed (Net.of ids links))).take m.toNat).map keysAlong) := routes_of ids links m
    _ = Enumeration.number
          ((((unlike (listed (Net.of ids links))).take n.toNat).map keysAlong).take (max m 0).toNat) := by
        rw [← List.map_take, List.take_take, hcap]
    _ = (Enumeration.of ids links n).routes.take (max m 0).toNat := by rw [number_take, routes_of]

theorem routes_take_fork : (1 : Int) ≤ 10 ∧
    (Enumeration.of ["start", "left", "end"] forkLinks 1).routes =
      (Enumeration.of ["start", "left", "end"] forkLinks 10).routes.take 1 :=
  ⟨by decide, routes_take _ _ (by decide)⟩

/-! ## Graphs without a first node -/

/-- There is room for a route, and no route, if and only if the first nodes lead nowhere. -/
theorem routes_eq_nil_iff {ids : List String} {links : List RouteLink} {cap : Int} (hcap : 1 ≤ cap) :
    (Enumeration.of ids links cap).routes = [] ↔
      ∀ e ∈ firstNodes ids (edgesOf links), ∀ m, ¬ Leads ids (edgesOf links) e m := by
  have hroom : cap.toNat ≠ 0 := by omega
  have hroutes : (Enumeration.of ids links cap).routes = [] ↔ listed (Net.of ids links) = [] := by
    have hnumber : ∀ keys : List (List String), Enumeration.number keys = [] ↔ keys = [] := fun keys => by
      simp [Enumeration.number]
    rw [routes_of, hnumber, List.map_eq_nil_iff, List.take_eq_nil_iff, unlike_eq_nil]
    exact or_iff_right hroom
  have hlisted : listed (Net.of ids links) = [] ↔ allFinds (Net.of ids links) = [] := by
    unfold listed
    constructor
    · intro h
      split at h
      · rename_i hends
        rw [List.eq_nil_iff_forall_not_mem]
        intro f hf
        have hmem : f.path ∈ pathsOf f.closed (allFinds (Net.of ids links)) :=
          List.mem_map_of_mem (List.mem_filter.2 ⟨hf, by simp⟩)
        cases hclosed : f.closed with
        | true => rw [hclosed, h] at hmem; exact List.not_mem_nil hmem
        | false => rw [hclosed, hends] at hmem; exact List.not_mem_nil hmem
      · rename_i hends
        exact absurd h hends
    · intro h
      simp [h, pathsOf]
  rw [hroutes, hlisted, allFinds, List.flatMap_eq_nil_iff, Net.entries_of]
  refine forall_congr' fun e => imp_congr_right fun _ => ?_
  rw [List.map_eq_nil_iff, findsFrom_eq_nil, ← List.isEmpty_iff, ← targets_eq_nil, targets_of_eq_nil]

/-- **Routes of a graph in which an edge leads to every node.** There is a route if and only if the first node that
the fewest edges lead to leads somewhere itself. -/
theorem routes_ne_nil_iff (ids : List String) (links : List RouteLink) (cap : Int)
    (hin : ∀ n ∈ ids, ∃ l ∈ links, l.source ∈ ids ∧ l.target = n) (hcap : 1 ≤ cap) :
    (Enumeration.of ids links cap).routes ≠ [] ↔
      ∃ e m, ids.find? (fun a => ids.all fun b =>
        degree (counted ids (edgesOf links)) a ≤ degree (counted ids (edgesOf links)) b) = some e ∧
          Leads ids (edgesOf links) e m := by
  have hdegree : ∀ n ∈ ids, degree (counted ids (edgesOf links)) n ≠ 0 := by
    intro n hn hzero
    obtain ⟨l, hl, hsource, rfl⟩ := hin n hn
    exact degree_eq_zero.1 hzero l.source (mem_counted.2 ⟨List.mem_map_of_mem hl, hsource, hn⟩)
  rw [Ne, routes_eq_nil_iff hcap, firstNodes_of_no_source hdegree]
  push Not
  simp only [Option.mem_toList]
  refine exists_congr fun e => ?_
  rw [exists_and_left]

/-- Two nodes that lead to each other, and a way out of the first. -/
def exitLinks : List RouteLink := [⟨"a", "b", .jump⟩, ⟨"b", "a", .jump⟩, ⟨"a", "t", .jump⟩]

theorem routes_ne_nil_iff_exit :
    ((∀ n ∈ ["a", "b", "t"], ∃ l ∈ exitLinks, l.source ∈ ["a", "b", "t"] ∧ l.target = n) ∧ (1 : Int) ≤ 10) ∧
      (Enumeration.of ["a", "b", "t"] exitLinks 10).routes ≠ [] :=
  ⟨by decide, (routes_ne_nil_iff _ _ _ (by decide) (by decide)).2 ⟨"a", "b", by decide, by decide⟩⟩

/-- If the end of the way out is the first of the nodes, routes are looked for from there, and there is none. -/
theorem no_route_from_end : ¬ ∀ (ids : List String) (links : List RouteLink) (cap : Int), ids ≠ [] →
    (∀ n ∈ ids, ∃ l ∈ links, l.source ∈ ids ∧ l.target = n) → 1 ≤ cap → (Enumeration.of ids links cap).routes ≠ [] := by
  intro h
  refine h ["t", "a", "b"] exitLinks 10 (by decide) (by decide) (by decide) ((routes_eq_nil_iff (by decide)).2 ?_)
  intro e he m hm
  have hentry : e ∈ ["t"] := he
  obtain rfl := List.mem_singleton.1 hentry
  have hsucc : m ∈ ([] : List String) := mem_successors.2 hm
  exact List.not_mem_nil hsucc

end Plotline
