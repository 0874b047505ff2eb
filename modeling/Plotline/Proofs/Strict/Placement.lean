import Plotline.Proofs.Placement
import Plotline.Proofs.Strict.Layers

/-!
# Strict placing

Every node of a layer fetches its size, and the width of a layer is the greatest of some widths.

* `Strict.place`: the positions of all nodes.
* `Strict.place_eq`: strict placing yields the positions, whatever ids are repeated.
* `Strict.contains_place`: every node has a position.
-/

namespace Plotline

namespace Table
variable {α : Type}

theorem mapM_fetch {t : Table String α} : ∀ {ks : List String}, (∀ k ∈ ks, t.contains k = true) →
    ks.mapM t.fetch = .ok (ks.filterMap t.get?) ∧ (ks.filterMap t.get?).length = ks.length
  | [], _ => ⟨rfl, rfl⟩
  | k :: ks, h => by
    obtain ⟨v, hv⟩ := Option.isSome_iff_exists.1 (h k List.mem_cons_self)
    obtain ⟨hrest, hlength⟩ := mapM_fetch fun k' hk' => h k' (List.mem_cons_of_mem k hk')
    rw [List.mapM_cons, fetch_of_get? hv, hrest, List.filterMap_cons_some hv, List.length_cons, hlength]
    exact ⟨rfl, rfl⟩

end Table

namespace Strict
open Layout Length
variable {R : Type} [Length R]

def layerWidth : List (Sized R) → Run R
  | [] => throw .extremum
  | n :: ns => return widest n.width (ns.map (·.width))

/-- Places the nodes of a layer; yields where the next layer begins, and the positions so far. -/
def placeLayer (spacing : Spacing R) (known : Table String (Sized R)) (s : R × Table String (Position R))
    (layer : List String) : Run (R × Table String (Position R)) := do
  let members ← layer.mapM known.fetch
  let width ← layerWidth members
  let placed := stack spacing s.1 width (half (neg (layerHeight spacing members))) members
  return (add s.1 (add width spacing.x), placed.foldl (fun t e => t.insert e.1 e.2) s.2)

def place (spacing : Spacing R) (nodes : List (Sized R)) (edges : List Edge) : Run (Table String (Position R)) := do
  let ls ← layers (nodes.map (·.id)) edges
  let (_, positions) ← ls.foldlM (placeLayer spacing (sizes nodes)) (zero, ∅)
  return positions

theorem layerWidth_eq {members : List (Sized R)} (h : members ≠ []) :
    layerWidth members = .ok (Layout.layerWidth members) := by
  cases members with
  | nil => exact absurd rfl h
  | cons n ns => rfl

theorem placeLayer_eq (spacing : Spacing R) {known : Table String (Sized R)} {layer : List String} (hne : layer ≠ [])
    (hknown : ∀ n ∈ layer, known.contains n = true) (x : R) (t : Table String (Position R)) :
    placeLayer spacing known (x, t) layer =
      .ok (add x (add (Layout.layerWidth (layer.filterMap known.get?)) spacing.x),
        (Layout.placeLayer spacing x (layer.filterMap known.get?)).foldl (fun t e => t.insert e.1 e.2) t) := by
  obtain ⟨hfetch, hlength⟩ := Table.mapM_fetch hknown
  have hmembers : layer.filterMap known.get? ≠ [] := by
    intro hnil
    rw [hnil] at hlength
    exact hne (List.length_eq_zero_iff.1 hlength.symm)
  unfold placeLayer
  rw [hfetch, ok_bind, layerWidth_eq hmembers]
  rfl

theorem placeLayers_eq (spacing : Spacing R) {known : Table String (Sized R)} : ∀ {ls : List (List String)},
    (∀ l ∈ ls, l ≠ [] ∧ ∀ n ∈ l, known.contains n = true) → ∀ (x : R) (t : Table String (Position R)),
      ∃ x', ls.foldlM (placeLayer spacing known) (x, t) =
        .ok (x', (placeLayers spacing x (ls.map fun l => l.filterMap known.get?)).foldl (fun t e => t.insert e.1 e.2) t)
  | [], _, x, t => ⟨x, rfl⟩
  | l :: ls, h, x, t => by
    obtain ⟨hne, hknown⟩ := h l List.mem_cons_self
    obtain ⟨x', hrest⟩ := placeLayers_eq spacing (fun m hm => h m (List.mem_cons_of_mem l hm))
      (add x (add (Layout.layerWidth (l.filterMap known.get?)) spacing.x))
      ((Layout.placeLayer spacing x (l.filterMap known.get?)).foldl (fun t e => t.insert e.1 e.2) t)
    refine ⟨x', ?_⟩
    rw [List.foldlM_cons, placeLayer_eq spacing hne hknown, ok_bind, hrest, List.map_cons, placeLayers,
      List.foldl_append]

section Sizes
variable {S : Type} {nodes : List (Sized S)}

theorem contains_sizes {n : String} : (sizes nodes).contains n = true ↔ n ∈ nodes.map (·.id) := by
  unfold sizes
  rw [Table.contains_ofList, List.map_map]
  rfl

theorem id_of_get?_sizes {n : String} {m : Sized S} (h : (sizes nodes).get? n = some m) : m.id = n := by
  unfold sizes Table.ofList at h
  rw [List.foldl_map, Table.get?_foldl_insert] at h
  rcases Option.or_eq_some_iff.1 h with hfound | ⟨-, hnone⟩
  · simpa using List.find?_some hfound
  · cases hnone

end Sizes

section Nodes
variable (spacing : Spacing R) (nodes : List (Sized R)) (edges : List Edge)

/-- Strict placing does not break off, and yields the positions. -/
theorem place_eq : place spacing nodes edges = .ok (Layout.place spacing nodes edges) := by
  have hlayers : ∀ l ∈ Layout.layers (nodes.map (·.id)) edges, l ≠ [] ∧ ∀ n ∈ l, (sizes nodes).contains n = true := by
    intro l hl
    refine ⟨ne_nil_of_mem_layers _ edges hl, fun n hn => ?_⟩
    rw [contains_sizes, ← (flatten_layers _ edges).2 n]
    exact List.mem_flatten_of_mem hl hn
  obtain ⟨x, hfold⟩ := placeLayers_eq spacing hlayers zero ∅
  unfold place
  rw [layers_eq, ok_bind, hfold]
  rfl

theorem contains_place {n : Sized R} (hn : n ∈ nodes) : (Layout.place spacing nodes edges).contains n.id = true := by
  unfold Layout.place
  rw [Table.contains_ofList, map_fst_placeLayers]
  have hid : n.id ∈ nodes.map (·.id) := List.mem_map_of_mem hn
  obtain ⟨l, hl, hnl⟩ := List.mem_flatten.1 (((flatten_layers _ edges).2 n.id).2 hid)
  obtain ⟨m, hm⟩ := Option.isSome_iff_exists.1 (contains_sizes.2 hid)
  refine List.mem_flatten.2 ⟨_, List.mem_map_of_mem (List.mem_map_of_mem hl), ?_⟩
  exact List.mem_map.2 ⟨m, List.mem_filterMap.2 ⟨n.id, hnl, hm⟩, id_of_get?_sizes hm⟩

end Nodes
end Strict
end Plotline
