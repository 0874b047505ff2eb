import Mathlib.Algebra.Order.BigOperators.Group.List
import Mathlib.Algebra.Order.Field.Rat
import Mathlib.Tactic.Linarith
import Plotline.Layout.Placement
import Plotline.Proofs.Layers
import Plotline.Proofs.Occurrence
import Plotline.Proofs.Tables

/-!
# Placed nodes keep their distance

Positions are read over the rational numbers here, where sums and halves are exact.

* `depth`, `advance`: how far nodes of a layer, and layers, move what comes after them.
* `Spot`: a node stands in a layer behind other layers and below other nodes; `Spot.corner` is where it begins.
* `get?_place`, `exists_spot`: `place` puts every node at its spot.
* `Spot.behind`, `Spot.under`: spots in different layers, and in one layer, keep their distance.
* `LaidOut`: nodes are apart, and each layer is centred both ways.
* `place_laidOut`: `place` lays all nodes out.
-/

namespace Plotline.Layout

/-- Exact lengths. -/
instance : Length ℚ where
  zero := 0
  add := (· + ·)
  sub := (· - ·)
  neg := (- ·)
  half := (· / 2)
  times n x := n * x
  less x y := x < y

/-! ## Sizes of layers -/

theorem widest_cons (first w : ℚ) (ws : List ℚ) : widest first (w :: ws) = widest (max first w) ws := by
  rw [max_def_lt]
  simp [widest, Length.less]

theorem mem_widest (first : ℚ) (widths : List ℚ) : widest first widths ∈ first :: widths := by
  induction widths generalizing first with
  | nil => exact List.mem_singleton_self _
  | cons w ws ih =>
      rw [widest_cons]
      rcases List.mem_cons.1 (ih (max first w)) with h | h
      · rw [h]
        rcases max_choice first w with h | h <;> simp [h]
      · simp [h]

theorem le_widest (first : ℚ) (widths : List ℚ) : ∀ w ∈ first :: widths, w ≤ widest first widths := by
  induction widths generalizing first with
  | nil => simp [widest]
  | cons v vs ih =>
      intro w hw
      have hmax := ih (max first v) _ List.mem_cons_self
      rw [widest_cons]
      rcases List.mem_cons.1 hw with rfl | hw
      · exact (le_max_left _ _).trans hmax
      · rcases List.mem_cons.1 hw with rfl | hw
        · exact (le_max_right _ _).trans hmax
        · exact ih _ w (List.mem_cons_of_mem _ hw)

theorem le_layerWidth {layer : List (Sized ℚ)} {n : Sized ℚ} (hn : n ∈ layer) : n.width ≤ layerWidth layer := by
  cases layer with
  | nil => cases hn
  | cons m ms => exact le_widest m.width _ n.width (List.mem_map_of_mem hn : n.width ∈ (m :: ms).map (·.width))

theorem exists_widest {layer : List (Sized ℚ)} (h : layer ≠ []) : ∃ n ∈ layer, n.width = layerWidth layer := by
  cases layer with
  | nil => exact absurd rfl h
  | cons m ms => exact List.mem_map.1 (mem_widest m.width (ms.map (·.width)) : _ ∈ (m :: ms).map (·.width))

theorem layerWidth_nonneg {layer : List (Sized ℚ)} (h : ∀ n ∈ layer, 0 ≤ n.width) : 0 ≤ layerWidth layer := by
  cases layer with
  | nil => exact le_rfl
  | cons m ms => exact (h m List.mem_cons_self).trans (le_layerWidth List.mem_cons_self)

variable (spacing : Spacing ℚ)

/-- How far the nodes of a layer move down what is below them. -/
def depth (ns : List (Sized ℚ)) : ℚ := (ns.map fun n => n.height + spacing.y).sum

/-- How far layers move to the right what is behind them. -/
def advance (ls : List (List (Sized ℚ))) : ℚ := (ls.map fun l => layerWidth l + spacing.x).sum

@[simp] theorem depth_nil : depth spacing [] = 0 := rfl

@[simp] theorem depth_cons (n : Sized ℚ) (ns : List (Sized ℚ)) :
    depth spacing (n :: ns) = n.height + spacing.y + depth spacing ns := rfl

@[simp] theorem depth_append (ms ns : List (Sized ℚ)) :
    depth spacing (ms ++ ns) = depth spacing ms + depth spacing ns := by
  unfold depth
  rw [List.map_append, List.sum_append]

@[simp] theorem advance_nil : advance spacing [] = 0 := rfl

@[simp] theorem advance_cons (l : List (Sized ℚ)) (ls : List (List (Sized ℚ))) :
    advance spacing (l :: ls) = layerWidth l + spacing.x + advance spacing ls := rfl

@[simp] theorem advance_append (ks ls : List (List (Sized ℚ))) :
    advance spacing (ks ++ ls) = advance spacing ks + advance spacing ls := by
  unfold advance
  rw [List.map_append, List.sum_append]

theorem foldl_heights (front : List (Sized ℚ)) (n : Sized ℚ) (h : ℚ) :
    (front ++ [n]).foldl (fun h n => h + n.height) h + front.length * spacing.y =
      h + depth spacing front + n.height := by
  induction front generalizing h with
  | nil => simp
  | cons m front ih =>
      have hm := ih (h + m.height)
      rw [List.cons_append, List.foldl_cons, List.length_cons, depth_cons]
      push_cast
      linarith

/-- A layer ends with its last node. -/
theorem layerHeight_concat (front : List (Sized ℚ)) (n : Sized ℚ) :
    layerHeight spacing (front ++ [n]) = depth spacing front + n.height := by
  have hsum := foldl_heights spacing front n 0
  rw [zero_add] at hsum
  rw [← hsum]
  unfold layerHeight
  rw [List.length_append]
  rfl

section Nonneg
variable {spacing}

theorem depth_nonneg (hspacing : 0 ≤ spacing.y) {ns : List (Sized ℚ)} (h : ∀ n ∈ ns, 0 ≤ n.height) :
    0 ≤ depth spacing ns := by
  refine List.sum_nonneg fun x hx => ?_
  obtain ⟨n, hn, rfl⟩ := List.mem_map.1 hx
  exact add_nonneg (h n hn) hspacing

theorem advance_nonneg (hspacing : 0 ≤ spacing.x) {ls : List (List (Sized ℚ))} (h : ∀ l ∈ ls, ∀ n ∈ l, 0 ≤ n.width) :
    0 ≤ advance spacing ls := by
  refine List.sum_nonneg fun x hx => ?_
  obtain ⟨l, hl, rfl⟩ := List.mem_map.1 hx
  exact add_nonneg (layerWidth_nonneg (h l hl)) hspacing

end Nonneg

/-! ## Where nodes stand -/

/-- A node stands in a layer, behind the layers `before` and below the nodes `above`. -/
structure Spot (ls : List (List (Sized ℚ))) (n : Sized ℚ) where
  before : List (List (Sized ℚ))
  above : List (Sized ℚ)
  below : List (Sized ℚ)
  after : List (List (Sized ℚ))
  split : ls = before ++ (above ++ n :: below) :: after

namespace Spot
variable {ls : List (List (Sized ℚ))} {m n : Sized ℚ}

/-- The layer in which the node stands. -/
def layer (s : Spot ls n) : List (Sized ℚ) := s.above ++ n :: s.below

theorem mem_layer (s : Spot ls n) : n ∈ s.layer := by
  unfold layer
  simp

theorem exists_in {before after : List (List (Sized ℚ))} {layer : List (Sized ℚ)}
    (hsplit : ls = before ++ layer :: after)
    (hn : n ∈ layer) : ∃ s : Spot ls n, s.before = before ∧ s.layer = layer := by
  obtain ⟨above, below, rfl⟩ := List.append_of_mem hn
  exact ⟨⟨before, above, below, after, hsplit⟩, rfl, rfl⟩

/-- The top left corner of the node: in the middle of its layer, which is centred around zero. -/
def corner (s : Spot ls n) : Position ℚ :=
  ⟨advance spacing s.before + (layerWidth s.layer - n.width) / 2,
    -layerHeight spacing s.layer / 2 + depth spacing s.above⟩

end Spot

theorem mem_stack (x width : ℚ) (n : Sized ℚ) (below : List (Sized ℚ)) : ∀ (above : List (Sized ℚ)) (y : ℚ),
    (n.id, ⟨x + (width - n.width) / 2, y + depth spacing above⟩) ∈ stack spacing x width y (above ++ n :: below)
  | [], y => by
    rw [depth_nil, add_zero]
    exact List.mem_cons_self
  | m :: above, y => by
    rw [depth_cons, ← add_assoc]
    exact List.mem_cons_of_mem _ (mem_stack x width n below above _)

theorem mem_placeLayers {e : String × Position ℚ} (layer : List (Sized ℚ)) (after : List (List (Sized ℚ))) :
    ∀ (before : List (List (Sized ℚ))) (x : ℚ), e ∈ placeLayer spacing (x + advance spacing before) layer →
      e ∈ placeLayers spacing x (before ++ layer :: after)
  | [], x, h => by
    rw [advance_nil, add_zero] at h
    exact List.mem_append_left _ h
  | l :: before, x, h => by
    rw [advance_cons, ← add_assoc] at h
    exact List.mem_append_right _ (mem_placeLayers layer after before _ h)

theorem Spot.mem_placeLayers {ls : List (List (Sized ℚ))} {n : Sized ℚ} (s : Spot ls n) :
    (n.id, s.corner spacing) ∈ placeLayers spacing 0 ls := by
  obtain ⟨before, above, below, after, rfl⟩ := s
  refine Layout.mem_placeLayers spacing (above ++ n :: below) after before 0 ?_
  rw [zero_add]
  exact mem_stack spacing _ _ n below above _

theorem map_fst_stack {R : Type} [Length R] (spacing : Spacing R) (x width : R) : ∀ (ns : List (Sized R)) (y : R),
    (stack spacing x width y ns).map (·.1) = ns.map (·.id)
  | [], _ => rfl
  | n :: ns, _ => congrArg (n.id :: ·) (map_fst_stack spacing x width ns _)

theorem map_fst_placeLayers {R : Type} [Length R] (spacing : Spacing R) : ∀ (ls : List (List (Sized R))) (x : R),
    (placeLayers spacing x ls).map (·.1) = (ls.map fun l => l.map (·.id)).flatten
  | [], _ => rfl
  | l :: ls, x => by
    unfold placeLayers
    rw [List.map_append, map_fst_placeLayers spacing ls, placeLayer, map_fst_stack]
    rfl

/-! ## Layers with sizes -/

def sizedLayers (nodes : List (Sized ℚ)) (edges : List Edge) : List (List (Sized ℚ)) :=
  (layers (nodes.map (·.id)) edges).map fun layer => layer.filterMap (sizes nodes).get?

section Nodes
variable {nodes : List (Sized ℚ)} (hids : (nodes.map (·.id)).Nodup) (edges : List Edge)
include hids

theorem get?_sizes {id : String} {n : Sized ℚ} : (sizes nodes).get? id = some n ↔ n ∈ nodes ∧ n.id = id := by
  have hentries : (sizes nodes).entries = nodes.map fun n => (n.id, n) := by
    refine Table.entries_ofList ?_
    rw [List.map_map]
    exact hids
  rw [← Table.mem_entries_iff, hentries, List.mem_map]
  constructor
  · rintro ⟨m, hm, heq⟩
    obtain ⟨rfl, rfl⟩ := Prod.mk.inj heq
    exact ⟨hm, rfl⟩
  · rintro ⟨hn, rfl⟩
    exact ⟨n, hn, rfl⟩

theorem mem_nodes_of_sizedLayers {l : List (Sized ℚ)} (hl : l ∈ sizedLayers nodes edges) {n : Sized ℚ} (hn : n ∈ l) :
    n ∈ nodes := by
  obtain ⟨ids, -, rfl⟩ := List.mem_map.1 hl
  obtain ⟨id, -, hget⟩ := List.mem_filterMap.1 hn
  exact ((get?_sizes hids).1 hget).1

theorem mem_of_id_mem {l : List (Sized ℚ)} (hl : l ∈ sizedLayers nodes edges) {n : Sized ℚ} (hn : n ∈ nodes)
    (hid : n.id ∈ l.map (·.id)) : n ∈ l := by
  obtain ⟨m, hm, hmn⟩ := List.mem_map.1 hid
  rwa [← List.inj_on_of_nodup_map hids (mem_nodes_of_sizedLayers hids edges hl hm) hn hmn]

theorem map_sizedLayers :
    (sizedLayers nodes edges).map (fun l => l.map (·.id)) = layers (nodes.map (·.id)) edges := by
  unfold sizedLayers
  rw [List.map_map]
  refine (List.map_congr_left fun l hl => ?_).trans (List.map_id _)
  show (l.filterMap (sizes nodes).get?).map (·.id) = l
  rw [List.map_filterMap]
  refine (List.filterMap_congr fun id hid => ?_).trans List.filterMap_some
  have hmem := ((flatten_layers _ edges).2 id).1 (List.mem_flatten_of_mem hl hid)
  obtain ⟨n, hn, rfl⟩ := List.mem_map.1 hmem
  rw [(get?_sizes hids).2 ⟨hn, rfl⟩]
  rfl

theorem exists_sizedLayer {l : List String} (hl : l ∈ layers (nodes.map (·.id)) edges) :
    ∃ layer ∈ sizedLayers nodes edges, layer ≠ [] ∧ layer.map (·.id) = l := by
  have hne := ne_nil_of_mem_layers _ edges hl
  rw [← map_sizedLayers hids] at hl
  obtain ⟨layer, hlayer, rfl⟩ := List.mem_map.1 hl
  exact ⟨layer, hlayer, fun hnil => hne (by rw [hnil]; rfl), rfl⟩

theorem entries_place : (place spacing nodes edges).entries = placeLayers spacing 0 (sizedLayers nodes edges) := by
  refine Table.entries_ofList ?_
  show ((placeLayers spacing 0 (sizedLayers nodes edges)).map (·.1)).Nodup
  rw [map_fst_placeLayers, map_sizedLayers hids]
  exact (flatten_layers _ edges).1

theorem get?_place {n : Sized ℚ} (s : Spot (sizedLayers nodes edges) n) :
    (place spacing nodes edges).get? n.id = some (s.corner spacing) := by
  rw [← Table.mem_entries_iff, entries_place spacing hids]
  exact s.mem_placeLayers spacing

theorem exists_spot {n : Sized ℚ} (hn : n ∈ nodes) : Nonempty (Spot (sizedLayers nodes edges) n) := by
  have hmem := ((flatten_layers _ edges).2 n.id).2 (List.mem_map_of_mem hn)
  rw [← map_sizedLayers hids] at hmem
  obtain ⟨ids, hids', hid⟩ := List.mem_flatten.1 hmem
  obtain ⟨l, hl, rfl⟩ := List.mem_map.1 hids'
  obtain ⟨before, after, hsplit⟩ := List.append_of_mem hl
  obtain ⟨s, -⟩ := Spot.exists_in hsplit (mem_of_id_mem hids edges hl hn hid)
  exact ⟨s⟩

end Nodes

/-! ## Distances -/

/-- A node with its top left corner. -/
structure Box where
  node : Sized ℚ
  corner : Position ℚ

namespace Box

def right (a : Box) : ℚ := a.corner.x + a.node.width

def bottom (a : Box) : ℚ := a.corner.y + a.node.height

/-- Half way between the left and the right side. -/
def middle (a : Box) : ℚ := a.corner.x + a.node.width / 2

/-- The box is one of the nodes, where a table has it. -/
structure PlacedIn (nodes : List (Sized ℚ)) (t : Table String (Position ℚ)) (a : Box) : Prop where
  mem : a.node ∈ nodes
  placed : t.get? a.node.id = some a.corner

end Box

/-- One box is left of the other, right of it, above it or below it, at the distance asked for. -/
def Apart (a b : Box) : Prop :=
  (a.right + spacing.x ≤ b.corner.x ∨ b.right + spacing.x ≤ a.corner.x) ∨
    a.bottom + spacing.y ≤ b.corner.y ∨ b.bottom + spacing.y ≤ a.corner.y

namespace Spot
variable {spacing} {ls : List (List (Sized ℚ))} {m n : Sized ℚ}

theorem layer_mem (s : Spot ls n) : s.layer ∈ ls := by
  obtain ⟨before, above, below, after, rfl⟩ := s
  exact List.mem_append_right before List.mem_cons_self

theorem behind (hspacing : 0 ≤ spacing.x) (hwidths : ∀ l ∈ ls, ∀ n ∈ l, 0 ≤ n.width) (s : Spot ls m) (t : Spot ls n)
    {between : List (List (Sized ℚ))} (hbefore : t.before = s.before ++ s.layer :: between) :
    (s.corner spacing).x + m.width + spacing.x ≤ (t.corner spacing).x := by
  have hbetween : 0 ≤ advance spacing between := by
    refine advance_nonneg hspacing fun l hl => hwidths l ?_
    rw [t.split, hbefore]
    simp [hl]
  have hm := le_layerWidth s.mem_layer
  have hn := le_layerWidth t.mem_layer
  unfold corner
  rw [hbefore, advance_append, advance_cons]
  linarith

/-- A node further down in the same layer is below. -/
theorem under (hspacing : 0 ≤ spacing.y) (hheights : ∀ l ∈ ls, ∀ n ∈ l, 0 ≤ n.height) (s : Spot ls m) (t : Spot ls n)
    (hlayer : s.layer = t.layer) {between : List (Sized ℚ)} (habove : t.above = s.above ++ m :: between) :
    (s.corner spacing).y + m.height + spacing.y ≤ (t.corner spacing).y := by
  have hbetween : 0 ≤ depth spacing between := by
    refine depth_nonneg hspacing fun n hn => hheights t.layer t.layer_mem n ?_
    unfold layer
    simp [habove, hn]
  unfold corner
  rw [hlayer, habove, depth_append, depth_cons]
  linarith

theorem apart (hspacing : 0 ≤ spacing.x ∧ 0 ≤ spacing.y) (hsizes : ∀ l ∈ ls, ∀ n ∈ l, 0 ≤ n.width ∧ 0 ≤ n.height)
    (s : Spot ls m) (t : Spot ls n) (hne : m ≠ n) : Apart spacing ⟨m, s.corner spacing⟩ ⟨n, t.corner spacing⟩ := by
  have hwidths : ∀ l ∈ ls, ∀ n ∈ l, 0 ≤ n.width := fun l hl n hn => (hsizes l hl n hn).1
  have hheights : ∀ l ∈ ls, ∀ n ∈ l, 0 ≤ n.height := fun l hl n hn => (hsizes l hl n hn).2
  rcases split_cases s.split t.split with ⟨between, hbefore⟩ | ⟨-, hlayer, -⟩ | ⟨between, hbefore⟩
  · exact Or.inl (Or.inl (behind hspacing.1 hwidths s t hbefore))
  · -- Both stand in one layer.
    rcases split_cases rfl hlayer with ⟨between, habove⟩ | ⟨-, hmn, -⟩ | ⟨between, habove⟩
    · exact Or.inr (Or.inl (under hspacing.2 hheights s t hlayer habove))
    · exact absurd hmn hne
    · exact Or.inr (Or.inr (under hspacing.2 hheights t s hlayer.symm habove))
  · exact Or.inl (Or.inr (behind hspacing.1 hwidths t s hbefore))

/-- The first node of a layer begins as far above zero as the last one ends below. -/
theorem around_zero (s : Spot ls m) (t : Spot ls n) (hlayer : s.layer = t.layer) (hfirst : s.above = [])
    (hlast : t.below = []) : (s.corner spacing).y + ((t.corner spacing).y + n.height) = 0 := by
  have hheight : layerHeight spacing t.layer = depth spacing t.above + n.height := by
    rw [layer, hlast, layerHeight_concat]
  unfold corner
  rw [hlayer, hfirst, depth_nil, hheight]
  linarith

theorem middle_eq (s : Spot ls n) :
    (s.corner spacing).x + n.width / 2 = advance spacing s.before + layerWidth s.layer / 2 := by
  unfold corner
  linarith

end Spot

/-! ## The layout of a graph -/

/-- All nodes are placed, apart from each other, in layers that are centred around zero from top to bottom and on their
widest node from left to right. -/
structure LaidOut (nodes : List (Sized ℚ)) (ls : List (List String)) (t : Table String (Position ℚ)) : Prop where
  placed : ∀ n ∈ nodes, ∃ p, t.get? n.id = some p
  listed : ∀ n ∈ nodes, ∃ l ∈ ls, n.id ∈ l
  apart : ∀ a b : Box, a.PlacedIn nodes t → b.PlacedIn nodes t → a.node.id ≠ b.node.id → Apart spacing a b
  around_zero : ∀ l ∈ ls, ∃ a b : Box, a.PlacedIn nodes t ∧ b.PlacedIn nodes t ∧
    l.head? = some a.node.id ∧ l.getLast? = some b.node.id ∧ a.corner.y + b.bottom = 0
  on_widest : ∀ l ∈ ls, ∃ w : Box, w.PlacedIn nodes t ∧ w.node.id ∈ l ∧
    ∀ a : Box, a.PlacedIn nodes t → a.node.id ∈ l → a.node.width ≤ w.node.width ∧ a.middle = w.middle

section Nodes
variable {nodes : List (Sized ℚ)} (hids : (nodes.map (·.id)).Nodup) (edges : List Edge)
include hids

theorem Spot.placedIn {n : Sized ℚ} (s : Spot (sizedLayers nodes edges) n) :
    Box.PlacedIn nodes (place spacing nodes edges) ⟨n, s.corner spacing⟩ :=
  ⟨mem_nodes_of_sizedLayers hids edges s.layer_mem s.mem_layer, get?_place spacing hids edges s⟩

variable {spacing edges}

theorem Box.PlacedIn.corner_eq {a : Box} (h : a.PlacedIn nodes (place spacing nodes edges))
    (s : Spot (sizedLayers nodes edges) a.node) : a.corner = s.corner spacing := by
  have hplaced := h.placed
  rw [get?_place spacing hids edges s] at hplaced
  exact (Option.some.inj hplaced).symm

section Layer
variable {layer : List (Sized ℚ)} (hlayer : layer ∈ sizedLayers nodes edges) (hne : layer ≠ [])
include hlayer hne

theorem around_zero_of_layer :
    ∃ a b : Box, a.PlacedIn nodes (place spacing nodes edges) ∧ b.PlacedIn nodes (place spacing nodes edges) ∧
      (layer.map (·.id)).head? = some a.node.id ∧ (layer.map (·.id)).getLast? = some b.node.id ∧
        a.corner.y + b.bottom = 0 := by
  obtain ⟨before, after, hsplit⟩ := List.append_of_mem hlayer
  obtain ⟨first, rest, hfirst⟩ := List.exists_cons_of_ne_nil hne
  obtain ⟨front, last, hlast⟩ := (List.eq_nil_or_concat' layer).resolve_left hne
  let s : Spot (sizedLayers nodes edges) first := ⟨before, [], rest, after, by rw [hsplit, hfirst]; rfl⟩
  let t : Spot (sizedLayers nodes edges) last := ⟨before, front, [], after, by rw [hsplit, hlast]⟩
  refine ⟨_, _, s.placedIn spacing hids edges, t.placedIn spacing hids edges, by rw [hfirst]; rfl, ?_,
    s.around_zero t (hfirst.symm.trans hlast) rfl rfl⟩
  rw [hlast, List.map_append]
  exact List.getLast?_concat

theorem on_widest_of_layer :
    ∃ w : Box, w.PlacedIn nodes (place spacing nodes edges) ∧ w.node.id ∈ layer.map (·.id) ∧
      ∀ a : Box, a.PlacedIn nodes (place spacing nodes edges) → a.node.id ∈ layer.map (·.id) →
        a.node.width ≤ w.node.width ∧ a.middle = w.middle := by
  obtain ⟨before, after, hsplit⟩ := List.append_of_mem hlayer
  obtain ⟨widest, hwidest, hwidth⟩ := exists_widest hne
  obtain ⟨s, hs, hslayer⟩ := Spot.exists_in hsplit hwidest
  refine ⟨_, s.placedIn spacing hids edges, List.mem_map_of_mem hwidest, fun a ha hid => ?_⟩
  have hmem := mem_of_id_mem hids edges hlayer ha.mem hid
  obtain ⟨t, ht, htlayer⟩ := Spot.exists_in hsplit hmem
  refine ⟨(le_layerWidth hmem).trans hwidth.ge, ?_⟩
  unfold Box.middle
  rw [ha.corner_eq hids t, t.middle_eq, s.middle_eq, hs, ht, hslayer, htlayer]

end Layer
end Nodes

/-- **All nodes are laid out.** Whatever the edges, nodes with sizes that are not negative are placed apart from each
other, and each layer is centred around zero and on its widest node. -/
theorem place_laidOut (spacing : Spacing ℚ) {nodes : List (Sized ℚ)} (edges : List Edge)
    (hids : (nodes.map (·.id)).Nodup) (hsizes : ∀ n ∈ nodes, 0 ≤ n.width ∧ 0 ≤ n.height)
    (hspacing : 0 ≤ spacing.x ∧ 0 ≤ spacing.y) :
    LaidOut spacing nodes (layers (nodes.map (·.id)) edges) (place spacing nodes edges) := by
  constructor
  · intro n hn
    obtain ⟨s⟩ := exists_spot hids edges hn
    exact ⟨_, get?_place spacing hids edges s⟩
  · intro n hn
    exact List.mem_flatten.1 (((flatten_layers _ edges).2 n.id).2 (List.mem_map_of_mem hn))
  · intro a b ha hb hne
    obtain ⟨s⟩ := exists_spot hids edges ha.mem
    obtain ⟨t⟩ := exists_spot hids edges hb.mem
    have hapart := s.apart hspacing (fun l hl n hn => hsizes n (mem_nodes_of_sizedLayers hids edges hl hn)) t
      fun hab => hne (congrArg Sized.id hab)
    rwa [← ha.corner_eq hids s, ← hb.corner_eq hids t] at hapart
  · intro l hl
    obtain ⟨layer, hlayer, hne, rfl⟩ := exists_sizedLayer hids edges hl
    exact around_zero_of_layer hids hlayer hne
  · intro l hl
    obtain ⟨layer, hlayer, hne, rfl⟩ := exists_sizedLayer hids edges hl
    exact on_widest_of_layer hids hlayer hne

/-- A node with two nodes behind it, of different sizes. -/
def branches : List (Sized ℚ) := [⟨"a", 100, 40⟩, ⟨"b", 60, 20⟩, ⟨"c", 80, 0⟩]

theorem place_laidOut_branches :
    ((branches.map (·.id)).Nodup ∧ (∀ n ∈ branches, 0 ≤ n.width ∧ 0 ≤ n.height) ∧ (0 : ℚ) ≤ 50 ∧ (0 : ℚ) ≤ 20) ∧
      LaidOut ⟨50, 20⟩ branches (layers (branches.map (·.id)) [⟨"a", "b"⟩, ⟨"a", "c"⟩, ⟨"c", "a"⟩])
        (place ⟨50, 20⟩ branches [⟨"a", "b"⟩, ⟨"a", "c"⟩, ⟨"c", "a"⟩]) := by
  have hids : (branches.map (·.id)).Nodup := by decide
  have hsizes : ∀ n ∈ branches, 0 ≤ n.width ∧ 0 ≤ n.height := by decide +kernel
  have hx : (0 : ℚ) ≤ 50 := by decide +kernel
  have hy : (0 : ℚ) ≤ 20 := by decide +kernel
  exact ⟨⟨hids, hsizes, hx, hy⟩, place_laidOut ⟨50, 20⟩ _ hids hsizes ⟨hx, hy⟩⟩

end Plotline.Layout
