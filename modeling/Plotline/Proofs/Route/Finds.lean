import Plotline.Proofs.Route.Net

/-!
# What a walk comes upon

* `findsFrom`: everything that a walk on from a path comes upon if it is never cut off, in order.
* `explore_eq_foldl`: exploring is taking these finds one by one.
* `Collected.routes_foldl_add`: taking paths keeps the first path of each signature, as long as there is room.
* `listed`: the paths that are listed: those that end, or those that close a cycle if there are no others.
* `routes_of`: the routes of a graph are drawn along the first listed paths.
* `loopRoutes_of`: the routes that close a cycle are counted only if they are all there are.
-/

namespace Plotline

/-- What a walk comes upon: a path, and whether its last step closes a cycle. -/
structure Find where
  path : List String
  closed : Bool
deriving DecidableEq

def Find.behind (front : List String) (f : Find) : Find := { f with path := front ++ f.path }

@[simp] theorem Find.behind_path (front : List String) (f : Find) : (f.behind front).path = front ++ f.path := rfl

@[simp] theorem Find.behind_closed (front : List String) (f : Find) : (f.behind front).closed = f.closed := rfl

theorem Find.behind_behind (front back : List String) (f : Find) :
    (f.behind back).behind front = f.behind (front ++ back) := by
  simp [Find.behind]

theorem Find.behind_injective (front : List String) : Function.Injective (Find.behind front) := by
  rintro ⟨p, c⟩ ⟨q, d⟩ h
  have hpath : p = q := List.append_cancel_left (congrArg Find.path h)
  have hclosed : c = d := congrArg Find.closed h
  rw [hpath, hclosed]

/-- Everything that a walk comes upon on from the head of `path` by the `steps`, without the path itself. -/
def findsFrom (net : Net) (path : List String) (steps : List { s : Step // s.target ∈ net.nodes }) : List Find :=
  match steps with
  | [] => []
  | s :: rest =>
    if _hpath : path.contains s.1.target = true then ⟨[s.1.target], true⟩ :: findsFrom net path rest
    else if (net.stepsOf s.1.target).isEmpty then ⟨[s.1.target], false⟩ :: findsFrom net path rest
    else
      (findsFrom net (s.1.target :: path) (net.stepsOf s.1.target)).map (Find.behind [s.1.target]) ++
        findsFrom net path rest
termination_by ((net.off path).length, steps.length)
decreasing_by
  all_goals first
    | exact Prod.Lex.right _ (by simp)
    | exact Prod.Lex.left _ _ (net.length_off_lt s.2 (by simpa using _hpath))

/-- The keys of the links along a path. -/
def keysAlong : List String → List String
  | a :: b :: path => linkKey a b :: keysAlong (b :: path)
  | _ => []

theorem keysAlong_concat : ∀ (path : List String) (a b : String),
    keysAlong (path ++ [a, b]) = keysAlong (path ++ [a]) ++ [linkKey a b]
  | [], a, b => rfl
  | [c], a, b => rfl
  | c :: d :: path, a, b => by
    show linkKey c d :: keysAlong (d :: path ++ [a, b]) = linkKey c d :: keysAlong (d :: path ++ [a]) ++ [linkKey a b]
    rw [keysAlong_concat (d :: path)]
    rfl

/-- One step further along a path, its keys are still the keys along it; path and keys begin at their end. -/
theorem keysAlong_step {path keys : List String} {n m : String} (hn : path.head? = some n)
    (hkeys : keys.reverse = keysAlong path.reverse) :
    (linkKey n m :: keys).reverse = keysAlong (m :: path).reverse := by
  rcases path with _ | ⟨a, path⟩
  · cases hn
  · obtain rfl := Option.some.inj hn
    rw [List.reverse_cons, hkeys]
    simp only [List.reverse_cons, List.append_assoc]
    exact (keysAlong_concat _ _ _).symm

/-! ## Taking paths -/

def signature (path : List String) : String := "->".intercalate path

def unlike (paths : List (List String)) : List (List String) :=
  paths.eraseDupsBy fun p q => signature p == signature q

namespace Collected

/-- Takes a path with the keys of its links, unless a path like it was taken or there is no room. -/
def addPath (c : Collected) (path : List String) : Collected :=
  if c.full || c.seen.contains (signature path) then c
  else { c with found := c.found.push (keysAlong path), seen := c.seen.insert (signature path) }

theorem add_eq_addPath (c : Collected) {path keys : List String} (hkeys : keys = keysAlong path) (hne : keys ≠ []) :
    c.add path keys = c.addPath path := by
  unfold add
  rw [List.isEmpty_eq_false_iff.2 hne, Bool.false_or, hkeys]
  rfl

/-- The number of routes that there is still room for. -/
def room (c : Collected) : Nat := (c.cap - c.found.size).toNat

theorem full_iff_room {c : Collected} : c.full = true ↔ c.room = 0 := by
  unfold full room
  rw [decide_eq_true_eq]
  omega

theorem addPath_of_full {c : Collected} (h : c.full = true) (path : List String) : c.addPath path = c := by
  unfold addPath
  simp [h]

theorem addPath_of_seen {c : Collected} {path : List String} (h : c.seen.contains (signature path) = true) :
    c.addPath path = c := by
  unfold addPath
  simp [h]

theorem addPath_of_new {c : Collected} {path : List String} (hfull : c.full = false)
    (hnew : c.seen.contains (signature path) = false) : c.addPath path =
      { c with found := c.found.push (keysAlong path), seen := c.seen.insert (signature path) } := by
  unfold addPath
  simp [hfull, hnew]

/-- Taking paths keeps the first path of each signature that was not seen before, as long as there is room. -/
theorem routes_foldl_addPath : ∀ (paths : List (List String)) (c : Collected),
    (paths.foldl addPath c).routes =
      c.routes ++ ((unlike (paths.filter fun p => !c.seen.contains (signature p))).take c.room).map keysAlong
  | [], c => by simp [unlike]
  | p :: paths, c => by
    rw [List.foldl_cons]
    cases hfull : c.full with
    | true =>
        rw [addPath_of_full hfull, routes_foldl_addPath paths, full_iff_room.1 hfull]
        simp
    | false =>
        cases hseen : c.seen.contains (signature p) with
        | true =>
            rw [addPath_of_seen hseen, routes_foldl_addPath paths, List.filter_cons, if_neg (by simp [hseen])]
        | false =>
            rw [addPath_of_new hfull hseen, routes_foldl_addPath paths, List.filter_cons, if_pos (by simp [hseen])]
            obtain ⟨k, hk⟩ : ∃ k, c.room = k + 1 := by
              refine ⟨c.room - 1, ?_⟩
              have : c.room ≠ 0 := fun h => by simp [full_iff_room.2 h] at hfull
              omega
            have hroom : room { c with found := c.found.push (keysAlong p), seen := c.seen.insert (signature p) } =
              k := by
              unfold room at hk ⊢
              simp only [Array.size_push]
              omega
            -- What is like `p` is no longer new, whether it is sifted out before or after.
            have hunlike : unlike (p :: paths.filter fun q => !c.seen.contains (signature q)) =
                p :: unlike (paths.filter fun q => !(c.seen.insert (signature p)).contains (signature q)) := by
              unfold unlike
              rw [List.eraseDupsBy_cons, List.filter_filter]
              congr 2
              refine List.filter_congr fun q _ => ?_
              rw [Std.HashSet.contains_insert, Bool.not_or]
              by_cases hq : signature p = signature q
              · simp [hq]
              · simp [hq, Ne.symm hq]
            rw [hroom, hk, hunlike, List.take_succ_cons, List.map_cons]
            simp [routes]

theorem routes_foldl_addPath_empty (paths : List (List String)) (cap : Int) :
    (paths.foldl addPath ⟨cap, #[], ∅⟩).routes = ((unlike paths).take cap.toNat).map keysAlong := by
  rw [routes_foldl_addPath]
  simp [routes, room]

end Collected

/-! ## Exploring takes the finds -/

/-- Takes a find, unless there is no room. -/
def Harvest.take (h : Harvest) (f : Find) : Harvest :=
  if h.terminal.full then h
  else if f.closed then { h with loops := h.loops.addPath f.path }
  else { h with terminal := h.terminal.addPath f.path }

theorem Harvest.foldl_take_of_full {h : Harvest} (hfull : h.terminal.full = true) : ∀ fs : List Find,
    fs.foldl Harvest.take h = h
  | [] => rfl
  | f :: fs => by
    have hstep : h.take f = h := if_pos hfull
    rw [List.foldl_cons, hstep, foldl_take_of_full hfull fs]

/-- Exploring is taking the finds one by one. -/
theorem explore_eq_foldl {net : Net} (hkey : ∀ n, ∀ s ∈ net.stepsOf n, s.1.key = linkKey n s.1.target)
    {n : String} {path keys : List String} {steps : List { s : Step // s.target ∈ net.nodes }} {h : Harvest}
    (hn : path.head? = some n) (hkeys : keys.reverse = keysAlong path.reverse)
    (hsteps : ∀ s ∈ steps, s.1.key = linkKey n s.1.target) :
    explore net path keys steps h =
      ((findsFrom net path steps).map (Find.behind path.reverse)).foldl Harvest.take h := by
  fun_induction explore net path keys steps h generalizing n with
  | case1 path keys h => rw [findsFrom]; rfl
  | case2 path keys h s rest hfull => rw [Harvest.foldl_take_of_full hfull]
  | case3 path keys h s rest hfull hpath ih =>
      have hs := hsteps s (by simp)
      have hstep : (s.1.key :: keys).reverse = keysAlong (s.1.target :: path).reverse := hs ▸ keysAlong_step hn hkeys
      rw [ih hn hkeys fun t ht => hsteps t (by simp [ht]), findsFrom, dif_pos hpath]
      have htake : h.take ⟨path.reverse ++ [s.1.target], true⟩ =
          h.addLoop (s.1.target :: path) (s.1.key :: keys) := by
        rw [Harvest.take, if_neg hfull, if_pos rfl, Harvest.addLoop, Collected.add_eq_addPath _ hstep (by simp),
          List.reverse_cons]
      rw [List.map_cons, List.foldl_cons]
      exact congrArg (fun h => List.foldl Harvest.take h _) htake.symm
  | case4 path keys h s rest hfull hpath hend ih =>
      have hs := hsteps s (by simp)
      have hstep : (s.1.key :: keys).reverse = keysAlong (s.1.target :: path).reverse := hs ▸ keysAlong_step hn hkeys
      rw [ih hn hkeys fun t ht => hsteps t (by simp [ht]), findsFrom, dif_neg hpath, if_pos hend]
      have htake : h.take ⟨path.reverse ++ [s.1.target], false⟩ =
          h.addTerminal (s.1.target :: path) (s.1.key :: keys) := by
        rw [Harvest.take, if_neg hfull, if_neg (by simp), Harvest.addTerminal,
          Collected.add_eq_addPath _ hstep (by simp), List.reverse_cons]
      rw [List.map_cons, List.foldl_cons]
      exact congrArg (fun h => List.foldl Harvest.take h _) htake.symm
  | case5 path keys h s rest hfull hpath hend ih₁ ih₂ =>
      have hs := hsteps s (by simp)
      rw [ih₂ hn hkeys fun t ht => hsteps t (by simp [ht]),
        ih₁ rfl (hs ▸ keysAlong_step hn hkeys) (hkey s.1.target), findsFrom, dif_neg hpath, if_neg hend,
        List.map_append, List.foldl_append, List.map_map]
      have hbehind : Find.behind path.reverse ∘ Find.behind [s.1.target] =
        Find.behind (s.1.target :: path).reverse := by
        funext f
        rw [Function.comp_apply, Find.behind_behind, List.reverse_cons]
      rw [hbehind]

/-! ## The listed paths -/

/-- The paths of the finds that end, or that close a cycle. -/
def pathsOf (closed : Bool) (fs : List Find) : List (List String) := (fs.filter (·.closed = closed)).map (·.path)

theorem terminal_foldl_take : ∀ (fs : List Find) (h : Harvest),
    (fs.foldl Harvest.take h).terminal = (pathsOf false fs).foldl Collected.addPath h.terminal
  | [], h => rfl
  | f :: fs, h => by
    rw [List.foldl_cons, terminal_foldl_take fs]
    unfold Harvest.take pathsOf
    cases hfull : h.terminal.full with
    | true =>
        cases hclosed : f.closed with
        | true => simp [hclosed]
        | false => simp [hclosed, Collected.addPath_of_full hfull]
    | false =>
        cases hclosed : f.closed with
        | true => simp [hclosed]
        | false => simp [hclosed]

theorem loops_foldl_take : ∀ (fs : List Find) (h : Harvest), h.terminal.full = false → pathsOf false fs = [] →
    (fs.foldl Harvest.take h).loops = (pathsOf true fs).foldl Collected.addPath h.loops
  | [], h, _, _ => rfl
  | f :: fs, h, hfull, hnone => by
    cases hclosed : f.closed with
    | true =>
        have htake : h.take f = { h with loops := h.loops.addPath f.path } := by
          simp [Harvest.take, hfull, hclosed]
        have hrest : pathsOf false fs = [] := by
          simpa [pathsOf, hclosed] using hnone
        rw [List.foldl_cons, htake, loops_foldl_take fs { h with loops := h.loops.addPath f.path } hfull hrest]
        simp [pathsOf, hclosed]
    | false => simp [pathsOf, hclosed] at hnone

/-- Everything that the walks from the entries of a net come upon. -/
def allFinds (net : Net) : List Find :=
  net.entries.flatMap fun e => (findsFrom net [e] (net.stepsOf e)).map (Find.behind [e])

/-- The paths that are listed: those that end, or those that close a cycle if there are no others. -/
def listed (net : Net) : List (List String) :=
  if pathsOf false (allFinds net) = [] then pathsOf true (allFinds net) else pathsOf false (allFinds net)

theorem foldl_walk_eq {net : Net} (hkey : ∀ n, ∀ s ∈ net.stepsOf n, s.1.key = linkKey n s.1.target) :
    ∀ (es : List String) (h : Harvest), es.foldl (walk net) h =
      (es.flatMap fun e => (findsFrom net [e] (net.stepsOf e)).map (Find.behind [e])).foldl Harvest.take h
  | [], h => rfl
  | e :: es, h => by
    have hwalk : walk net h e = ((findsFrom net [e] (net.stepsOf e)).map (Find.behind [e])).foldl Harvest.take h := by
      unfold walk
      split
      · rename_i hfull
        rw [Harvest.foldl_take_of_full hfull]
      · exact explore_eq_foldl hkey rfl rfl (hkey e)
    rw [List.foldl_cons, foldl_walk_eq hkey es, List.flatMap_cons, List.foldl_append, hwalk]

theorem unlike_eq_nil {paths : List (List String)} : unlike paths = [] ↔ paths = [] := eraseDupsBy_eq_nil

section Of
variable (ids : List String) (links : List RouteLink) (cap : Int)

/-- What the walks from the entries of a graph collect. -/
def harvestOf : Harvest := (Net.of ids links).entries.foldl (walk (Net.of ids links)) (Harvest.start cap)

theorem harvestOf_eq :
    harvestOf ids links cap = (allFinds (Net.of ids links)).foldl Harvest.take (Harvest.start cap) :=
  foldl_walk_eq (fun _ => Net.key_of ids links) _ _

theorem harvestOf_of_no_room {cap : Int} (h : cap.toNat = 0) : harvestOf ids links cap = Harvest.start cap := by
  have hcap : ¬ 0 < cap := by omega
  rw [harvestOf_eq, Harvest.foldl_take_of_full (by simpa [Harvest.start, Collected.full] using hcap)]

theorem terminal_harvestOf : (harvestOf ids links cap).terminal.routes =
    ((unlike (pathsOf false (allFinds (Net.of ids links)))).take cap.toNat).map keysAlong := by
  rw [harvestOf_eq, terminal_foldl_take]
  exact Collected.routes_foldl_addPath_empty _ cap

theorem terminal_harvestOf_isEmpty : (harvestOf ids links cap).terminal.routes.isEmpty = true ↔
    cap.toNat = 0 ∨ pathsOf false (allFinds (Net.of ids links)) = [] := by
  rw [List.isEmpty_iff, terminal_harvestOf, List.map_eq_nil_iff, List.take_eq_nil_iff, unlike_eq_nil]

theorem loops_harvestOf (hnone : pathsOf false (allFinds (Net.of ids links)) = []) :
    (harvestOf ids links cap).loops.routes =
      ((unlike (pathsOf true (allFinds (Net.of ids links)))).take cap.toNat).map keysAlong := by
  by_cases hcap : 0 < cap
  · rw [harvestOf_eq,
      loops_foldl_take _ (Harvest.start cap) (by simpa [Harvest.start, Collected.full] using hcap) hnone]
    exact Collected.routes_foldl_addPath_empty _ cap
  · have hzero : cap.toNat = 0 := by omega
    rw [harvestOf_of_no_room ids links hzero, hzero]
    rfl

/-- **The routes of a graph are drawn along its first listed paths**, one for each signature. -/
theorem routes_of : (Enumeration.of ids links cap).routes =
    Enumeration.number (((unlike (listed (Net.of ids links))).take cap.toNat).map keysAlong) := by
  show Enumeration.number (if (harvestOf ids links cap).terminal.routes.isEmpty then
    (harvestOf ids links cap).loops.routes else (harvestOf ids links cap).terminal.routes) = _
  unfold listed
  by_cases hnone : pathsOf false (allFinds (Net.of ids links)) = []
  · rw [if_pos hnone, if_pos ((terminal_harvestOf_isEmpty ids links cap).2 (Or.inr hnone)),
      loops_harvestOf ids links cap hnone]
  · rw [if_neg hnone]
    by_cases hzero : cap.toNat = 0
    · rw [if_pos ((terminal_harvestOf_isEmpty ids links cap).2 (Or.inl hzero)), harvestOf_of_no_room ids links hzero,
        hzero]
      rfl
    · rw [if_neg (fun h => ((terminal_harvestOf_isEmpty ids links cap).1 h).elim hzero hnone), terminal_harvestOf]

theorem length_number (keys : List (List String)) : (Enumeration.number keys).length = keys.length := by
  simp [Enumeration.number]

/-- Routes that close a cycle are counted if no path ends, and then they are all the routes. -/
theorem loopRoutes_of : (Enumeration.of ids links cap).loopRoutes =
    if pathsOf false (allFinds (Net.of ids links)) = [] then (Enumeration.of ids links cap).routes.length else 0 := by
  rw [routes_of, length_number, List.length_map]
  show (if (harvestOf ids links cap).terminal.routes.isEmpty then
    (harvestOf ids links cap).loops.routes.length else 0) = _
  by_cases hnone : pathsOf false (allFinds (Net.of ids links)) = []
  · rw [if_pos hnone, if_pos ((terminal_harvestOf_isEmpty ids links cap).2 (Or.inr hnone)),
      loops_harvestOf ids links cap hnone, List.length_map, listed, if_pos hnone]
  · rw [if_neg hnone]
    by_cases hzero : cap.toNat = 0
    · rw [harvestOf_of_no_room ids links hzero]
      simp [Harvest.start, Collected.routes]
    · rw [if_neg fun h => ((terminal_harvestOf_isEmpty ids links cap).1 h).elim hzero hnone]

end Of
end Plotline
