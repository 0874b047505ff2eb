import Plotline.Proofs.Route.Finds

/-!
# The paths of routes

* `EndsRoute`, `LoopRoute`, `IsRoute`: the paths that should be listed, said without a walk.
* `Precedes`: depth-first order of paths.
* `GoesOn`: the ways on from a path.
* `mem_findsFrom`, `settled_findsFrom`: a walk comes upon exactly the ways on from its path, in depth-first order.
* `mem_listed`, `settled_listed`: the listed paths of a graph are those that should be, in depth-first order.
-/

namespace Plotline
open Layout

/-! ## The paths to list -/

section Paths
variable (ids : List String) (edges : List Edge)

/-- A simple path of one or more edges from a first node to a node that leads nowhere. -/
structure EndsRoute (p : List String) : Prop where
  begins : ∃ e ∈ firstNodes ids edges, p.head? = some e
  length : 2 ≤ p.length
  nodup : p.Nodup
  chain : p.IsChain (Leads ids edges)
  ends : ∀ z, p.getLast? = some z → ∀ m, ¬ Leads ids edges z m

/-- A walk from a first node whose nodes are distinct except that the last edge returns to a node on it. -/
structure LoopRoute (p : List String) : Prop where
  begins : ∃ e ∈ firstNodes ids edges, p.head? = some e
  chain : p.IsChain (Leads ids edges)
  closes : ∃ q z, p = q ++ [z] ∧ q.Nodup ∧ z ∈ q

/-- The paths to list: those that end, or those that close a cycle if no path ends. -/
def IsRoute (p : List String) : Prop :=
  EndsRoute ids edges p ∨ (¬ ∃ q, EndsRoute ids edges q) ∧ LoopRoute ids edges p

end Paths

/-- Depth-first order: where two paths part, the one that takes the earlier choice comes first. The nodes that may
begin a path are `choices`, and those that may follow a node are given by `next`. -/
inductive Precedes (next : String → List String) : (choices : List String) → List String → List String → Prop
  | fork {choices : List String} {a b : String} {p q : List String} :
      choices.idxOf a < choices.idxOf b → Precedes next choices (a :: p) (b :: q)
  | agree {choices : List String} {a : String} {p q : List String} :
      Precedes next (next a) p q → Precedes next choices (a :: p) (a :: q)

/-! ## Where a walk goes on -/

section Walk
variable (net : Net)

/-- The ways on from a path, which begins at its end, to a node `a` and then along a list of nodes. The last flag
says whether the way closes a cycle. -/
inductive GoesOn : (path : List String) → (a : String) → List String → Bool → Prop
  | close {path : List String} {a : String} : a ∈ path → GoesOn path a [] true
  | stop {path : List String} {a : String} : a ∉ path → net.targets a = [] → GoesOn path a [] false
  | step {path : List String} {a b : String} {t : List String} {c : Bool} :
      a ∉ path → b ∈ net.targets a → GoesOn (a :: path) b t c → GoesOn path a (b :: t) c

def findsBy (path : List String) (s : { s : Step // s.target ∈ net.nodes }) : List Find :=
  if path.contains s.1.target = true then [⟨[s.1.target], true⟩]
  else if (net.stepsOf s.1.target).isEmpty then [⟨[s.1.target], false⟩]
  else (findsFrom net (s.1.target :: path) (net.stepsOf s.1.target)).map (Find.behind [s.1.target])

variable {net}

theorem findsFrom_eq_flatMap (path : List String) : ∀ steps : List { s : Step // s.target ∈ net.nodes },
    findsFrom net path steps = steps.flatMap (findsBy net path)
  | [] => by rw [findsFrom]; rfl
  | s :: rest => by
    rw [findsFrom, findsFrom_eq_flatMap path rest, List.flatMap_cons, findsBy]
    split
    · rfl
    · split <;> rfl

theorem targets_eq_nil {n : String} : net.targets n = [] ↔ (net.stepsOf n).isEmpty = true := by
  rw [Net.targets, List.map_eq_nil_iff, List.isEmpty_iff]

theorem mem_findsFrom {path : List String} {steps : List { s : Step // s.target ∈ net.nodes }} {f : Find} :
    f ∈ findsFrom net path steps ↔
      ∃ a ∈ steps.map (·.1.target), ∃ t, f.path = a :: t ∧ GoesOn net path a t f.closed := by
  fun_induction findsFrom net path steps generalizing f with
  | case1 path => simp
  | case2 path s rest hpath ih =>
      have hmem : s.1.target ∈ path := by simpa using hpath
      rw [List.mem_cons, ih, List.map_cons, List.exists_mem_cons_iff]
      refine or_congr ?_ Iff.rfl
      constructor
      · rintro rfl
        exact ⟨[], rfl, .close hmem⟩
      · rintro ⟨t, hf, hgo⟩
        rcases f with ⟨p, c⟩
        cases hgo with
        | close _ => rw [Find.mk.injEq]; exact ⟨hf, rfl⟩
        | stop hnot _ => exact absurd hmem hnot
        | step hnot _ _ => exact absurd hmem hnot
  | case3 path s rest hpath hend ih =>
      have hnot : s.1.target ∉ path := by simpa using hpath
      have hnone : net.targets s.1.target = [] := targets_eq_nil.2 hend
      rw [List.mem_cons, ih, List.map_cons, List.exists_mem_cons_iff]
      refine or_congr ?_ Iff.rfl
      constructor
      · rintro rfl
        exact ⟨[], rfl, .stop hnot hnone⟩
      · rintro ⟨t, hf, hgo⟩
        rcases f with ⟨p, c⟩
        cases hgo with
        | close hmem => exact absurd hmem hnot
        | stop _ _ => rw [Find.mk.injEq]; exact ⟨hf, rfl⟩
        | step _ hb _ => rw [hnone] at hb; exact absurd hb List.not_mem_nil
  | case4 path s rest hpath hend ih₁ ih₂ =>
      have hnot : s.1.target ∉ path := by simpa using hpath
      rw [List.mem_append, ih₂, List.map_cons, List.exists_mem_cons_iff]
      refine or_congr ?_ Iff.rfl
      rw [List.mem_map]
      constructor
      · rintro ⟨g, hg, rfl⟩
        obtain ⟨b, hb, t, hpath, hgo⟩ := ih₁.1 hg
        exact ⟨b :: t, by rw [Find.behind_path, hpath]; rfl, .step hnot hb hgo⟩
      · rintro ⟨t, hf, hgo⟩
        rcases f with ⟨p, c⟩
        cases hgo with
        | close hmem => exact absurd hmem hnot
        | stop _ hnone => exact absurd (targets_eq_nil.1 hnone) hend
        | @step _ _ b t _ _ hb hgo =>
            refine ⟨⟨b :: t, c⟩, ih₁.2 ⟨b, hb, t, rfl, hgo⟩, ?_⟩
            rw [Find.behind, Find.mk.injEq]
            exact ⟨hf.symm, rfl⟩

theorem findsFrom_eq_nil {path : List String} {steps : List { s : Step // s.target ∈ net.nodes }} :
    findsFrom net path steps = [] ↔ steps = [] := by
  fun_induction findsFrom net path steps with
  | case1 path => simp
  | case2 path s rest hpath ih => simp
  | case3 path s rest hpath hend ih => simp
  | case4 path s rest hpath hend ih₁ ih₂ =>
      have hne : net.stepsOf s.1.target ≠ [] := by simpa using hend
      simp [ih₁, hne]

/-- The finds of a walk stand in depth-first order, except for those that came before. -/
theorem settled_findsFrom (net : Net) (path : List String) (steps : List { s : Step // s.target ∈ net.nodes }) :
    Settled (fun f g => Precedes net.targets (steps.map (·.1.target)) f.path g.path) (findsFrom net path steps) := by
  have hhead : ∀ s ∈ steps, ∀ f ∈ findsBy net path s, ∃ p, f.path = s.1.target :: p := by
    intro s _ f hf
    unfold findsBy at hf
    split at hf
    · exact ⟨[], by rw [List.mem_singleton.1 hf]⟩
    · split at hf
      · exact ⟨[], by rw [List.mem_singleton.1 hf]⟩
      · obtain ⟨g, -, rfl⟩ := List.mem_map.1 hf
        exact ⟨g.path, rfl⟩
  rw [findsFrom_eq_flatMap]
  refine Settled.flatMap (fun s => s.1.target) _ _ ?_ ?_ ?_
  · intro s _ t _ hst
    unfold findsBy
    rw [hst]
  · intro s hs
    unfold findsBy
    split
    · exact Settled.singleton _ _
    · rename_i hpath
      split
      · exact Settled.singleton _ _
      · have hrest := settled_findsFrom net (s.1.target :: path) (net.stepsOf s.1.target)
        exact hrest.map _ fun f g hfg => Precedes.agree hfg
  · intro s hs t ht hlt f hf g hg
    obtain ⟨p, hp⟩ := hhead s hs f hf
    obtain ⟨q, hq⟩ := hhead t ht g hg
    rw [hp, hq]
    exact Precedes.fork hlt
termination_by (net.off path).length
decreasing_by exact net.length_off_lt s.2 (by simpa using ‹¬ path.contains s.1.target = true›)

theorem mem_allFinds {f : Find} : f ∈ allFinds net ↔
    ∃ e ∈ net.entries, ∃ a ∈ net.targets e, ∃ t, f.path = e :: a :: t ∧ GoesOn net [e] a t f.closed := by
  unfold allFinds
  rw [List.mem_flatMap]
  refine exists_congr fun e => and_congr_right fun _ => ?_
  rw [List.mem_map]
  constructor
  · rintro ⟨g, hg, rfl⟩
    obtain ⟨a, ha, t, hpath, hgo⟩ := mem_findsFrom.1 hg
    exact ⟨a, ha, t, by rw [Find.behind_path, hpath]; rfl, hgo⟩
  · rintro ⟨a, ha, t, hpath, hgo⟩
    rcases f with ⟨p, c⟩
    refine ⟨⟨a :: t, c⟩, mem_findsFrom.2 ⟨a, ha, t, rfl, hgo⟩, ?_⟩
    rw [Find.behind, Find.mk.injEq]
    exact ⟨hpath.symm, rfl⟩

theorem settled_allFinds (net : Net) :
    Settled (fun f g => Precedes net.targets net.entries f.path g.path) (allFinds net) := by
  unfold allFinds
  refine Settled.flatMap id _ _ ?_ ?_ ?_
  · intro e _ e' _ h
    rw [show e = e' from h]
  · intro e _
    exact (settled_findsFrom net [e] (net.stepsOf e)).map _ fun f g hfg => Precedes.agree hfg
  · intro e _ e' _ hlt f hf g hg
    obtain ⟨f', -, rfl⟩ := List.mem_map.1 hf
    obtain ⟨g', -, rfl⟩ := List.mem_map.1 hg
    rw [List.map_id] at hlt
    exact Precedes.fork hlt

/-! ## Ways on as paths -/

/-- A way that stops: no node of it is met twice, and its last node leads nowhere. -/
theorem goesOn_false_iff {path : List String} {a : String} {t : List String} (hpath : path.Nodup) :
    GoesOn net path a t false ↔ (a :: t).IsChain (fun x y => y ∈ net.targets x) ∧ (path.reverse ++ a :: t).Nodup ∧
      ∀ z, (a :: t).getLast? = some z → net.targets z = [] := by
  induction t generalizing path a with
  | nil =>
      constructor
      · intro h
        cases h with
        | stop hnot hnone =>
            refine ⟨List.isChain_singleton a, ?_, ?_⟩
            · rw [← List.reverse_cons, List.nodup_reverse]
              exact List.nodup_cons.2 ⟨hnot, hpath⟩
            · intro z hz
              obtain rfl := Option.some.inj hz
              exact hnone
      · rintro ⟨-, hnodup, hend⟩
        rw [← List.reverse_cons, List.nodup_reverse] at hnodup
        exact .stop (List.nodup_cons.1 hnodup).1 (hend a rfl)
  | cons b t ih =>
      have hshift : path.reverse ++ a :: b :: t = (a :: path).reverse ++ b :: t := by simp
      rw [List.isChain_cons_cons, hshift, List.getLast?_cons_cons]
      constructor
      · intro h
        cases h with
        | step hnot hb hgo =>
            obtain ⟨hchain, hnodup, hend⟩ := (ih (List.nodup_cons.2 ⟨hnot, hpath⟩)).1 hgo
            exact ⟨⟨hb, hchain⟩, hnodup, hend⟩
      · rintro ⟨⟨hb, hchain⟩, hnodup, hend⟩
        have hcons : (a :: path).Nodup := List.nodup_reverse.1 (List.nodup_append.1 hnodup).1
        exact .step (List.nodup_cons.1 hcons).1 hb ((ih hcons).2 ⟨hchain, hnodup, hend⟩)

/-- A way that closes a cycle: its last node was met before, and no other node of it is met twice. -/
theorem goesOn_true_iff {path : List String} {a : String} {t : List String} (hpath : path.Nodup) :
    GoesOn net path a t true ↔ (a :: t).IsChain (fun x y => y ∈ net.targets x) ∧
      ∃ q z, path.reverse ++ a :: t = q ++ [z] ∧ q.Nodup ∧ z ∈ q := by
  induction t generalizing path a with
  | nil =>
      constructor
      · intro h
        cases h with
        | close hmem =>
            exact ⟨List.isChain_singleton a, path.reverse, a, rfl, List.nodup_reverse.2 hpath, List.mem_reverse.2 hmem⟩
      · rintro ⟨-, q, z, heq, -, hmem⟩
        obtain ⟨rfl, hz⟩ := List.append_inj' heq rfl
        obtain rfl := List.singleton_inj.1 hz
        exact .close (List.mem_reverse.1 hmem)
  | cons b t ih =>
      have hshift : path.reverse ++ a :: b :: t = (a :: path).reverse ++ b :: t := by simp
      rw [List.isChain_cons_cons, hshift]
      constructor
      · intro h
        cases h with
        | step hnot hb hgo =>
            obtain ⟨hchain, hcloses⟩ := (ih (List.nodup_cons.2 ⟨hnot, hpath⟩)).1 hgo
            exact ⟨⟨hb, hchain⟩, hcloses⟩
      · rintro ⟨⟨hb, hchain⟩, q, z, heq, hnodup, hmem⟩
        -- The last node of the way is `z`, so that `q` begins with the path and `a`.
        obtain ⟨t', hq⟩ : ∃ t', q = (a :: path).reverse ++ t' := by
          rcases List.append_eq_append_iff.1 heq with ⟨ys, hq, -⟩ | ⟨ys, hrev, hys⟩
          · exact ⟨ys, hq⟩
          · rcases ys with _ | ⟨y, ys⟩
            · exact ⟨[], by rw [hrev]; simp⟩
            · simp at hys
        have hcons : (a :: path).Nodup := by
          rw [hq] at hnodup
          exact List.nodup_reverse.1 (List.nodup_append.1 hnodup).1
        exact .step (List.nodup_cons.1 hcons).1 hb ((ih hcons).2 ⟨hchain, q, z, heq, hnodup, hmem⟩)

theorem mem_pathsOf {c : Bool} {p : List String} : p ∈ pathsOf c (allFinds net) ↔
    ∃ e ∈ net.entries, ∃ a ∈ net.targets e, ∃ t, p = e :: a :: t ∧ GoesOn net [e] a t c := by
  unfold pathsOf
  rw [List.mem_map]
  constructor
  · rintro ⟨f, hf, rfl⟩
    obtain ⟨hmem, hclosed⟩ := List.mem_filter.1 hf
    have hc : f.closed = c := by simpa using hclosed
    obtain ⟨e, he, a, ha, t, hpath, hgo⟩ := mem_allFinds.1 hmem
    exact ⟨e, he, a, ha, t, hpath, hc ▸ hgo⟩
  · rintro ⟨e, he, a, ha, t, rfl, hgo⟩
    exact ⟨⟨e :: a :: t, c⟩, List.mem_filter.2 ⟨mem_allFinds.2 ⟨e, he, a, ha, t, rfl, hgo⟩, by simp⟩, rfl⟩

end Walk

/-! ## The listed paths of a graph -/

section Listed
variable {ids : List String} {links : List RouteLink}

theorem mem_targets_of {a b : String} : b ∈ (Net.of ids links).targets a ↔ Leads ids (edgesOf links) a b := by
  rw [Net.targets_of]
  exact mem_successors

theorem targets_of_eq_nil {a : String} :
    (Net.of ids links).targets a = [] ↔ ∀ m, ¬ Leads ids (edgesOf links) a m := by
  rw [List.eq_nil_iff_forall_not_mem]
  exact forall_congr' fun m => not_congr mem_targets_of

theorem mem_pathsOf_false {p : List String} :
    p ∈ pathsOf false (allFinds (Net.of ids links)) ↔ EndsRoute ids (edgesOf links) p := by
  rw [mem_pathsOf]
  simp only [goesOn_false_iff (List.nodup_singleton _), Net.entries_of, mem_targets_of, targets_of_eq_nil]
  constructor
  · rintro ⟨e, he, a, ha, t, rfl, hchain, hnodup, hends⟩
    exact ⟨⟨e, he, rfl⟩, by simp, hnodup, List.isChain_cons_cons.2 ⟨ha, hchain⟩,
      by rwa [List.getLast?_cons_cons]⟩
  · rintro ⟨⟨e, he, hhead⟩, hlength, hnodup, hchain, hends⟩
    rcases p with _ | ⟨e', _ | ⟨a, t⟩⟩
    · simp at hlength
    · simp at hlength
    · obtain rfl := Option.some.inj hhead
      obtain ⟨ha, hchain⟩ := List.isChain_cons_cons.1 hchain
      exact ⟨e', he, a, ha, t, rfl, hchain, hnodup, by rwa [List.getLast?_cons_cons] at hends⟩

theorem pathsOf_false_eq_nil :
    pathsOf false (allFinds (Net.of ids links)) = [] ↔ ¬ ∃ p, EndsRoute ids (edgesOf links) p := by
  rw [List.eq_nil_iff_forall_not_mem, not_exists]
  exact forall_congr' fun p => not_congr mem_pathsOf_false

theorem mem_pathsOf_true {p : List String} :
    p ∈ pathsOf true (allFinds (Net.of ids links)) ↔ LoopRoute ids (edgesOf links) p := by
  rw [mem_pathsOf]
  simp only [goesOn_true_iff (List.nodup_singleton _), Net.entries_of, mem_targets_of]
  constructor
  · rintro ⟨e, he, a, ha, t, rfl, hchain, hcloses⟩
    exact ⟨⟨e, he, rfl⟩, List.isChain_cons_cons.2 ⟨ha, hchain⟩, hcloses⟩
  · rintro ⟨⟨e, he, hhead⟩, hchain, q, z, rfl, hnodup, hmem⟩
    rcases q with _ | ⟨e', q⟩
    · simp at hmem
    · obtain rfl := Option.some.inj hhead
      rcases hrest : q ++ [z] with _ | ⟨a, t⟩
      · simp at hrest
      · rw [List.cons_append, hrest] at hchain ⊢
        obtain ⟨ha, hchain⟩ := List.isChain_cons_cons.1 hchain
        exact ⟨e', he, a, ha, t, rfl, hchain, e' :: q, z, by rw [List.cons_append, hrest]; rfl, hnodup, hmem⟩

theorem mem_listed {p : List String} : p ∈ listed (Net.of ids links) ↔ IsRoute ids (edgesOf links) p := by
  unfold listed IsRoute
  split
  · rename_i h
    have hnone := pathsOf_false_eq_nil.1 h
    rw [mem_pathsOf_true]
    refine ⟨fun hp => Or.inr ⟨hnone, hp⟩, ?_⟩
    rintro (hp | ⟨-, hp⟩)
    · exact absurd ⟨p, hp⟩ hnone
    · exact hp
  · rename_i h
    rw [mem_pathsOf_false]
    refine ⟨Or.inl, ?_⟩
    rintro (hp | ⟨hno, -⟩)
    · exact hp
    · exact absurd (pathsOf_false_eq_nil.2 hno) h

theorem IsRoute.chain {edges : List Edge} {p : List String} : IsRoute ids edges p → p.IsChain (Leads ids edges)
  | .inl h => EndsRoute.chain h
  | .inr h => LoopRoute.chain h.2

theorem IsRoute.begins {edges : List Edge} {p : List String} :
    IsRoute ids edges p → ∃ e ∈ firstNodes ids edges, p.head? = some e
  | .inl h => EndsRoute.begins h
  | .inr h => LoopRoute.begins h.2

theorem IsRoute.ne_nil {edges : List Edge} {p : List String} (h : IsRoute ids edges p) : p ≠ [] := by
  obtain ⟨e, -, hhead⟩ := h.begins
  rintro rfl
  cases hhead

/-- The listed paths stand in depth-first order, except for those that came before. -/
theorem settled_listed (net : Net) : Settled (Precedes net.targets net.entries) (listed net) := by
  unfold listed
  split
  · exact ((settled_allFinds net).filter _).map _ fun _ _ h => h
  · exact ((settled_allFinds net).filter _).map _ fun _ _ h => h

end Listed

end Plotline
