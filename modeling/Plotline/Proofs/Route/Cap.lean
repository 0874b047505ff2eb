import Mathlib.Data.List.Permutation
import Plotline.Log.Progress
import Plotline.Proofs.Route.Listing

/-!
# The cap on routes

A walk stops as soon as it has as many routes that end as the cap allows, and that is when a warning is logged, whether
or not the walk would have come upon more.

* `Drops`, `Warns`: a larger cap would give more routes; the log warns of the cap.
* `truncated_iff`, `drops_iff`: both compare the cap with a number of paths, but not always with the same.
* `warns_iff_full`: where a path ends, a warning is logged if and only if the list of routes is full, so that it is
  logged whenever a route was dropped.
* `warns_not_iff_drops`: a warning without a dropped route, and a dropped route without a warning.
-/

namespace Plotline
open Layout

/-- A larger cap would give more routes. -/
def Drops (ids : List String) (links : List RouteLink) (cap : Int) : Prop :=
  ∃ n, cap < n ∧ (Enumeration.of ids links cap).routes.length < (Enumeration.of ids links n).routes.length

/-- What is logged about routes warns that the cap was reached. -/
def Warns (settings : AnalysisSettings) (r : RouteAnalysis) : Prop :=
  ∃ e ∈ Log.Event.ofRoutes settings r, e.level = .warning ∧ e.name = "routes_truncated"

theorem warns_iff {settings : AnalysisSettings} {r : RouteAnalysis} :
    Warns settings r ↔ r.enumeration.truncated = true := by
  unfold Warns Log.Event.ofRoutes Log.Event.counting
  cases r.enumeration.truncated <;> simp

/-! ## Collected routes -/

namespace Collected

theorem cap_addPath (c : Collected) (path : List String) : (c.addPath path).cap = c.cap := by
  unfold addPath
  split <;> rfl

theorem cap_foldl_addPath (paths : List (List String)) (c : Collected) : (paths.foldl addPath c).cap = c.cap := by
  induction paths generalizing c with
  | nil => rfl
  | cons p paths ih => rw [List.foldl_cons, ih, cap_addPath]

/-- Paths fill the room if and only if the cap is not more than the number of their signatures. -/
theorem full_foldl_addPath_empty (paths : List (List String)) (cap : Int) :
    (paths.foldl addPath ⟨cap, #[], ∅⟩).full = true ↔ cap ≤ (unlike paths).length := by
  have hsize : (paths.foldl addPath ⟨cap, #[], ∅⟩).found.size = min cap.toNat (unlike paths).length := by
    rw [← Array.length_toList, ← routes, routes_foldl_addPath_empty, List.length_map, List.length_take]
  rw [full, decide_eq_true_eq, cap_foldl_addPath, hsize]
  show cap ≤ _ ↔ _
  omega

end Collected

/-! ## The cap and the number of paths -/

section Of
variable {ids : List String} {links : List RouteLink} {cap : Int}

theorem truncated_iff : (Enumeration.of ids links cap).truncated = true ↔
    cap ≤ (unlike (pathsOf false (allFinds (Net.of ids links)))).length := by
  show (harvestOf ids links cap).terminal.full = true ↔ _
  rw [harvestOf_eq, terminal_foldl_take]
  exact Collected.full_foldl_addPath_empty _ cap

theorem length_routes :
    (Enumeration.of ids links cap).routes.length = min cap.toNat (unlike (listed (Net.of ids links))).length := by
  rw [routes_of, length_number, List.length_map, List.length_take]

theorem drops_iff (hcap : 0 ≤ cap) : Drops ids links cap ↔ cap < (unlike (listed (Net.of ids links))).length := by
  unfold Drops
  simp only [length_routes]
  constructor
  · rintro ⟨n, hn, hlonger⟩
    omega
  · intro hmore
    exact ⟨(unlike (listed (Net.of ids links))).length, hmore, by omega⟩

theorem listed_of_endsRoute (hends : ∃ p, EndsRoute ids (edgesOf links) p) :
    listed (Net.of ids links) = pathsOf false (allFinds (Net.of ids links)) :=
  if_neg fun hnil => pathsOf_false_eq_nil.1 hnil hends

end Of

/-! ## The warning -/

/-- **The warning about the cap.** Where a path ends, a warning is logged if and only if there are as many routes as the
cap allows: whenever a route was dropped, and without a dropped route only if every larger cap gives that many, too.
Where no path ends and no route was dropped, none is logged. -/
theorem warns_iff_full (settings : AnalysisSettings) (r : RouteAnalysis) (ids : List String)
    (hr : r.enumeration = Enumeration.of ids r.links settings.maxRoutes) :
    ((∃ p, EndsRoute ids (edgesOf r.links) p) →
      (Warns settings r ↔ r.routes.length = settings.maxRoutes) ∧
      (Drops ids r.links settings.maxRoutes → Warns settings r) ∧
      (Warns settings r ∧ ¬ Drops ids r.links settings.maxRoutes ↔
        ∀ n : Int, settings.maxRoutes ≤ n → (Enumeration.of ids r.links n).routes.length = settings.maxRoutes)) ∧
    ((¬ ∃ p, EndsRoute ids (edgesOf r.links) p) → ¬ Drops ids r.links settings.maxRoutes → ¬ Warns settings r) := by
  have hlength : r.routes.length =
      min settings.maxRoutes (unlike (listed (Net.of ids r.links))).length := by
    unfold RouteAnalysis.routes
    rw [hr, length_routes, Int.toNat_natCast]
  have hdrops : Drops ids r.links settings.maxRoutes ↔
      settings.maxRoutes < (unlike (listed (Net.of ids r.links))).length := by
    rw [drops_iff (Int.natCast_nonneg _), Int.ofNat_lt]
  constructor
  · intro hends
    rw [warns_iff, hr, truncated_iff, ← listed_of_endsRoute hends, hlength, hdrops]
    refine ⟨by omega, by omega, ?_⟩
    constructor
    · rintro ⟨hfull, hall⟩ n hn
      rw [length_routes]
      omega
    · intro hall
      have hmore := hall (settings.maxRoutes + 1) (by omega)
      rw [length_routes] at hmore
      omega
  · intro hnone _
    have hpos := settings.maxRoutes_pos
    rw [warns_iff, hr, truncated_iff, pathsOf_false_eq_nil.2 hnone]
    simp [unlike]
    omega

/-- A way from one node to the other, and no other one. -/
def onlyWay : List RouteLink := [⟨"a", "b", .jump⟩]

theorem length_onlyWay : (unlike (pathsOf false (allFinds (Net.of ["a", "b"] onlyWay)))).length = 1 := by cbv

theorem endsRoute_onlyWay : ∃ p, EndsRoute ["a", "b"] (edgesOf onlyWay) p := by
  by_contra hnone
  have hone := length_onlyWay
  rw [pathsOf_false_eq_nil.2 hnone] at hone
  cases hone

/-- Settings that allow one route. -/
def oneRoute : AnalysisSettings := { maxRoutes := 1 }

theorem warns_iff_full_onlyWay :
    (∃ p, EndsRoute ["a", "b"] (edgesOf onlyWay) p) ∧
      (Warns oneRoute ⟨[], onlyWay, Enumeration.of ["a", "b"] onlyWay 1⟩ ↔
        (Enumeration.of ["a", "b"] onlyWay 1).routes.length = 1) :=
  ⟨endsRoute_onlyWay, ((warns_iff_full oneRoute ⟨[], onlyWay, Enumeration.of ["a", "b"] onlyWay 1⟩ ["a", "b"] rfl).1
    endsRoute_onlyWay).1⟩

/-- Two nodes that lead to each other, one of them also to itself. -/
def whirlLinks : List RouteLink := [⟨"a", "a", .jump⟩, ⟨"a", "b", .jump⟩, ⟨"b", "a", .jump⟩]

theorem length_whirl : (unlike (listed (Net.of ["a", "b"] whirlLinks))).length = 2 := by cbv

theorem not_endsRoute_whirl : ¬ ∃ p, EndsRoute ["a", "b"] (edgesOf whirlLinks) p := by
  rintro ⟨p, hp⟩
  -- Each of the nodes leads somewhere.
  have hroute : IsRoute ["a", "b"] (edgesOf whirlLinks) p := Or.inl hp
  have hlast := List.getLast?_eq_some_getLast hroute.ne_nil
  have hz : p.getLast hroute.ne_nil ∈ ["a", "b"] := hroute.mem_ids _ (List.mem_of_getLast? hlast)
  have hleads : ∀ z ∈ ["a", "b"], Leads ["a", "b"] (edgesOf whirlLinks) z "a" := by decide
  exact hp.ends _ hlast "a" (hleads _ hz)

/-- With room for one route, a warning is logged about the only way, of which nothing is dropped, and none about two
routes that close a cycle, of which one is dropped. -/
theorem warns_not_iff_drops :
    (¬ ∀ (settings : AnalysisSettings) (r : RouteAnalysis) (ids : List String),
      r.enumeration = Enumeration.of ids r.links settings.maxRoutes → (∃ p, EndsRoute ids (edgesOf r.links) p) →
        (Warns settings r ↔ Drops ids r.links settings.maxRoutes)) ∧
    ¬ ∀ (settings : AnalysisSettings) (r : RouteAnalysis) (ids : List String),
      r.enumeration = Enumeration.of ids r.links settings.maxRoutes → (¬ ∃ p, EndsRoute ids (edgesOf r.links) p) →
        (Warns settings r ↔ Drops ids r.links settings.maxRoutes) := by
  constructor
  · intro hall
    have hiff := hall oneRoute ⟨[], onlyWay, Enumeration.of ["a", "b"] onlyWay 1⟩ ["a", "b"] rfl endsRoute_onlyWay
    rw [warns_iff, truncated_iff, drops_iff (by decide), listed_of_endsRoute endsRoute_onlyWay, length_onlyWay] at hiff
    exact absurd (hiff.1 (by decide)) (by decide)
  · intro hall
    have hiff := hall oneRoute ⟨[], whirlLinks, Enumeration.of ["a", "b"] whirlLinks 1⟩ ["a", "b"] rfl
      not_endsRoute_whirl
    rw [warns_iff, truncated_iff, drops_iff (by decide), length_whirl, pathsOf_false_eq_nil.2 not_endsRoute_whirl]
      at hiff
    exact absurd (hiff.2 (by decide)) (by decide)

end Plotline
