import Plotline.Proofs.Digraph

/-!
# Layers are longest paths

* `mem_release`, `mem_wave`: a waiting node becomes ready when every pending edge to it comes from the layer.
* `Wave`: what holds before layer `i` is placed: the layer has the nodes whose longest walk has `i` edges, and the
  nodes with longer walks wait. `Wave.next` carries it on from one layer to the next.
* `Wave.mem_layersFrom`, `Wave.last_layersFrom`: a run places nodes in layers of growing longest walks, and the nodes
  behind cycles in one last layer.
* `flatten_layers`: each node stands in one layer.
* `layers_longest_paths`: each node stands in the layer of its longest path, and what is behind a cycle stands in one
  layer behind all others; a graph without a first node is read without the edges into the node that it is entered at.
-/

namespace Plotline.Layout

/-! ## One wave -/

theorem mem_release (others : List Edge) {t : String} : ∀ (mine : List Edge) {waiting : List String}, waiting.Nodup →
    (t ∈ (release others mine waiting).1 ↔
      t ∈ waiting ∧ (∃ e ∈ mine, e.target = t) ∧ ∀ e ∈ others, e.target ≠ t)
  | [], waiting, _ => by simp [release]
  | e :: mine, waiting, h => by
    unfold release
    split
    · rename_i hready
      simp only [Bool.and_eq_true, List.contains_iff_mem, Bool.not_eq_eq_eq_not, Bool.not_true,
        Bool.or_eq_false_iff, List.any_eq_false, decide_eq_true_eq] at hready
      obtain ⟨hmem, hmine, hothers⟩ := hready
      have ih := mem_release others (t := t) mine (h.erase e.target)
      show t ∈ e.target :: (release others mine (waiting.erase e.target)).1 ↔ _
      rw [List.mem_cons, ih, h.mem_erase_iff]
      constructor
      · rintro (rfl | ⟨⟨-, hw⟩, ⟨e', he', rfl⟩, ho⟩)
        · exact ⟨hmem, ⟨e, by simp, rfl⟩, hothers⟩
        · exact ⟨hw, ⟨e', by simp [he'], rfl⟩, ho⟩
      · rintro ⟨hw, ⟨e', he', rfl⟩, ho⟩
        by_cases heq : e'.target = e.target
        · exact Or.inl heq
        · rcases List.mem_cons.1 he' with rfl | he'
          · exact absurd rfl heq
          · exact Or.inr ⟨⟨heq, hw⟩, ⟨e', he', rfl⟩, ho⟩
    · rename_i hnot
      rw [mem_release others mine h]
      constructor
      · rintro ⟨hw, ⟨e', he', rfl⟩, ho⟩
        exact ⟨hw, ⟨e', by simp [he'], rfl⟩, ho⟩
      · rintro ⟨hw, ⟨e', he', rfl⟩, ho⟩
        rcases List.mem_cons.1 he' with rfl | he'
        · -- The node is not ready yet, so a later edge of the same node leads to it.
          obtain ⟨e₂, he₂, heq⟩ : ∃ e₂ ∈ mine, e₂.target = e'.target := by
            by_contra hno
            push Not at hno
            refine hnot ?_
            simp only [Bool.and_eq_true, List.contains_iff_mem, Bool.not_eq_eq_eq_not, Bool.not_true,
              Bool.or_eq_false_iff, List.any_eq_false, decide_eq_true_eq]
            exact ⟨hw, hno, ho⟩
          exact ⟨hw, ⟨e₂, he₂, heq⟩, ho⟩
        · exact ⟨hw, ⟨e', he', rfl⟩, ho⟩

theorem release_waiting (others : List Edge) : ∀ (mine : List Edge) {waiting : List String}, waiting.Nodup →
    (release others mine waiting).1.Nodup ∧
      (release others mine waiting).2 = waiting.filter fun t => t ∉ (release others mine waiting).1
  | [], waiting, _ => by simp [release]
  | e :: mine, waiting, h => by
    unfold release
    split
    · obtain ⟨hnodup, hwait⟩ := release_waiting others mine (h.erase e.target)
      refine ⟨?_, ?_⟩
      · show (e.target :: (release others mine (waiting.erase e.target)).1).Nodup
        refine List.nodup_cons.2 ⟨fun hmem => ?_, hnodup⟩
        have := ((mem_release others mine (h.erase e.target)).1 hmem).1
        exact (h.mem_erase_iff.1 this).1 rfl
      · show (release others mine (waiting.erase e.target)).2 = _
        rw [hwait, h.erase_eq_filter, List.filter_filter]
        refine List.filter_congr fun t _ => ?_
        by_cases ht : t = e.target <;> simp [ht]
    · exact release_waiting others mine h

theorem wave_pending : ∀ (layer : List String) (rest : Rest),
    (wave layer rest).2.pending = rest.pending.filter fun e => e.source ∉ layer
  | [], rest => by simp [wave]
  | n :: layer, rest => by
    unfold wave
    rw [wave_pending layer, List.filter_filter]
    refine List.filter_congr fun e _ => ?_
    by_cases he : e.source = n <;> simp [he]

/-- A waiting node becomes ready when edges to it are pending, and all of them come from the layer. -/
theorem mem_wave {t : String} : ∀ (layer : List String) (rest : Rest), rest.waiting.Nodup →
    (t ∈ (wave layer rest).1 ↔
      t ∈ rest.waiting ∧ (∃ e ∈ rest.pending, e.target = t) ∧ ∀ e ∈ rest.pending, e.target = t → e.source ∈ layer)
  | [], rest, _ => by
    simp only [wave, List.not_mem_nil, imp_false, false_iff, not_and, not_forall]
    rintro - ⟨e, he, heq⟩
    exact ⟨e, he, by simpa using heq⟩
  | n :: layer, rest, h => by
    have hrelease := mem_release (t := t) (rest.pending.filter (·.source ≠ n))
      (rest.pending.filter (·.source = n)) h
    have hsnd := (release_waiting (rest.pending.filter (·.source ≠ n)) (rest.pending.filter (·.source = n)) h).2
    have ih := mem_wave (t := t) layer ⟨_, rest.pending.filter (·.source ≠ n)⟩ (hsnd ▸ h.filter _)
    unfold wave
    show t ∈ _ ++ _ ↔ _
    rw [List.mem_append, ih]
    simp only [hsnd, List.mem_filter, hrelease, decide_eq_true_eq]
    constructor
    · rintro (⟨hw, ⟨e, ⟨he, hsrc⟩, heq⟩, ho⟩ | ⟨⟨hw, -⟩, ⟨e, ⟨he, hsrc⟩, heq⟩, hall⟩)
      · refine ⟨hw, ⟨e, he, heq⟩, fun e' he' heq' => ?_⟩
        by_cases hsrc' : e'.source = n
        · simp [hsrc']
        · exact absurd heq' (ho e' ⟨he', hsrc'⟩)
      · refine ⟨hw, ⟨e, he, heq⟩, fun e' he' heq' => ?_⟩
        by_cases hsrc' : e'.source = n
        · simp [hsrc']
        · exact List.mem_cons_of_mem _ (hall e' ⟨he', hsrc'⟩ heq')
    · rintro ⟨hw, ⟨e, he, heq⟩, hall⟩
      by_cases hother : ∃ e' ∈ rest.pending, e'.source ≠ n ∧ e'.target = t
      · obtain ⟨e', he', hsrc', heq'⟩ := hother
        refine Or.inr ⟨⟨hw, fun hin => hin.2.2 e' ⟨he', hsrc'⟩ heq'⟩, ⟨e', ⟨he', hsrc'⟩, heq'⟩, ?_⟩
        rintro e'' ⟨he'', hsrc''⟩ heq''
        exact (List.mem_cons.1 (hall e'' he'' heq'')).resolve_left hsrc''
      · push Not at hother
        have hsrc : e.source = n := by
          by_contra hsrc
          exact hother e he hsrc heq
        exact Or.inl ⟨hw, ⟨e, ⟨he, hsrc⟩, heq⟩, fun e' he' => hother e' he'.1 he'.2⟩

theorem wave_waiting : ∀ (layer : List String) (rest : Rest), rest.waiting.Nodup →
    (wave layer rest).1.Nodup ∧
      (wave layer rest).2.waiting = rest.waiting.filter fun t => t ∉ (wave layer rest).1
  | [], rest, _ => by simp [wave]
  | n :: layer, rest, h => by
    obtain ⟨hready, hwait⟩ := release_waiting
      (rest.pending.filter (·.source ≠ n)) (rest.pending.filter (·.source = n)) h
    have hrest : (release (rest.pending.filter (·.source ≠ n)) (rest.pending.filter (·.source = n))
        rest.waiting).2.Nodup := hwait ▸ h.filter _
    obtain ⟨hlater, hleft⟩ := wave_waiting layer ⟨_, rest.pending.filter (·.source ≠ n)⟩ hrest
    unfold wave
    refine ⟨?_, ?_⟩
    · refine List.nodup_append.2 ⟨hready, hlater, fun a ha b hb hab => ?_⟩
      have hb' := ((mem_wave layer _ hrest).1 hb).1
      rw [hwait, List.mem_filter] at hb'
      exact (by simpa using hb'.2 : b ∉ _) (hab ▸ ha)
    · show (wave layer _).2.waiting = rest.waiting.filter fun t => decide (t ∉ _ ++ (wave layer _).1)
      rw [hleft]
      generalize (wave layer _).1 = later
      show (release _ _ rest.waiting).2.filter _ = _
      rw [hwait, List.filter_filter]
      refine List.filter_congr fun t _ => ?_
      simp only [List.mem_append, not_or, Bool.decide_and, Bool.and_comm]

/-! ## What holds before each layer -/

section Run
variable {leads : String → String → Prop} {nodes : List String}

/-- What holds before layer `i` is placed. The layer has the nodes whose longest walk has `i` edges, the nodes with
longer walks wait, and to these the edges are pending that come from nodes not placed before. -/
structure Wave (leads : String → String → Prop) (nodes : List String) (i : Nat) (layer : List String) (rest : Rest) :
    Prop where
  nodup_layer : layer.Nodup
  nodup_waiting : rest.waiting.Nodup
  mem_layer : ∀ n, n ∈ layer ↔ n ∈ nodes ∧ WalkTo leads i n ∧ ¬ WalkTo leads (i + 1) n
  mem_waiting : ∀ n, n ∈ rest.waiting ↔ n ∈ nodes ∧ WalkTo leads (i + 1) n
  mem_pending : ∀ m n, n ∈ rest.waiting → (⟨m, n⟩ ∈ rest.pending ↔ leads m n ∧ WalkTo leads i m)

/-- The nodes that become ready are those with a walk of `i + 1` edges and none of `i + 2`. -/
theorem Wave.mem_ready {i : Nat} {layer : List String} {rest : Rest} (h : Wave leads nodes i layer rest)
    (hleads : ∀ a b, leads a b → a ∈ nodes) (n : String) :
    n ∈ (wave layer rest).1 ↔ n ∈ nodes ∧ WalkTo leads (i + 1) n ∧ ¬ WalkTo leads (i + 2) n := by
  rw [mem_wave layer rest h.nodup_waiting]
  constructor
  · rintro ⟨hw, -, hall⟩
    obtain ⟨hn, hwalk⟩ := (h.mem_waiting n).1 hw
    refine ⟨hn, hwalk, ?_⟩
    rintro ⟨m, hm, hlong⟩
    have hpending := (h.mem_pending m n hw).2 ⟨hm, hlong.pred⟩
    exact ((h.mem_layer m).1 (hall _ hpending rfl)).2.2 hlong
  · rintro ⟨hn, hwalk, hshort⟩
    have hw := (h.mem_waiting n).2 ⟨hn, hwalk⟩
    obtain ⟨m, hm, hwm⟩ := hwalk
    refine ⟨hw, ⟨⟨m, n⟩, (h.mem_pending m n hw).2 ⟨hm, hwm⟩, rfl⟩, ?_⟩
    rintro ⟨a, b⟩ he rfl
    obtain ⟨hab, hwa⟩ := (h.mem_pending a b hw).1 he
    exact (h.mem_layer a).2 ⟨hleads a b hab, hwa, fun hlong => hshort ⟨a, hab, hlong⟩⟩

theorem Wave.next {i : Nat} {layer : List String} {rest : Rest} (h : Wave leads nodes i layer rest)
    (hleads : ∀ a b, leads a b → a ∈ nodes) :
    Wave leads nodes (i + 1) (wave layer rest).1 (wave layer rest).2 := by
  obtain ⟨hnodup, hwaiting⟩ := wave_waiting layer rest h.nodup_waiting
  have hleft : ∀ n, n ∈ (wave layer rest).2.waiting ↔ n ∈ nodes ∧ WalkTo leads (i + 2) n := by
    intro n
    rw [hwaiting, List.mem_filter, h.mem_waiting, decide_eq_true_eq, h.mem_ready hleads]
    constructor
    · rintro ⟨⟨hn, hwalk⟩, hnot⟩
      by_contra hshort
      exact hnot ⟨hn, hwalk, fun hlong => hshort ⟨hn, hlong⟩⟩
    · rintro ⟨hn, hlong⟩
      exact ⟨⟨hn, hlong.pred⟩, fun hready => hready.2.2 hlong⟩
  refine ⟨hnodup, hwaiting ▸ h.nodup_waiting.filter _, h.mem_ready hleads, hleft, fun m n hn => ?_⟩
  have hw : n ∈ rest.waiting := by
    rw [hwaiting, List.mem_filter] at hn
    exact hn.1
  rw [wave_pending, List.mem_filter, h.mem_pending m n hw, decide_eq_true_eq, h.mem_layer]
  constructor
  · rintro ⟨⟨hmn, hwalk⟩, hnot⟩
    refine ⟨hmn, ?_⟩
    by_contra hshort
    exact hnot ⟨hleads m n hmn, hwalk, hshort⟩
  · rintro ⟨hmn, hlong⟩
    exact ⟨⟨hmn, hlong.pred⟩, fun hlayer => hlayer.2.2 hlong⟩

theorem Wave.mem_waiting_of_nil {i : Nat} {rest : Rest} (h : Wave leads nodes i [] rest) {n : String} (hn : n ∈ nodes)
    (hwalk : WalkTo leads i n) : n ∈ rest.waiting := by
  refine (h.mem_waiting n).2 ⟨hn, ?_⟩
  by_contra hshort
  exact List.not_mem_nil ((h.mem_layer n).2 ⟨hn, hwalk, hshort⟩)

/-- When no node is ready, whatever waits has walks of every length. -/
theorem Wave.walkTo_of_nil {i : Nat} {rest : Rest} (h : Wave leads nodes i [] rest)
    (hleads : ∀ a b, leads a b → a ∈ nodes) {n : String} (hn : n ∈ rest.waiting) : ∀ k, WalkTo leads k n := by
  have hall : ∀ k m, m ∈ nodes → WalkTo leads i m → WalkTo leads (i + k) m := by
    intro k
    induction k with
    | zero => exact fun _ _ hwalk => hwalk
    | succ k ih =>
        intro m hm hwalk
        obtain ⟨-, a, ham, ha⟩ := (h.mem_waiting m).1 (h.mem_waiting_of_nil hm hwalk)
        exact ⟨a, ham, ih a (hleads a m ham) ha⟩
  obtain ⟨hmem, hwalk⟩ := (h.mem_waiting n).1 hn
  intro k
  exact (hall k n hmem hwalk.pred).mono (by omega)

/-! ## What a run yields -/

theorem ne_nil_of_mem_layersFrom (layer : List String) (rest : Rest) : ∀ l ∈ layersFrom layer rest, l ≠ [] := by
  fun_induction layersFrom layer rest with
  | case1 layer rest hlayer hwaiting => simp
  | case2 layer rest hlayer hwaiting =>
      intro l hl
      rw [List.mem_singleton.1 hl]
      simpa using hwaiting
  | case3 layer rest hlayer ih =>
      intro l hl
      rcases List.mem_cons.1 hl with rfl | hl
      · simpa using hlayer
      · exact ih l hl

/-- A run places each node with a walk of `i` edges, and each of them once. -/
theorem Wave.flatten_layersFrom {i : Nat} {layer : List String} {rest : Rest} (h : Wave leads nodes i layer rest)
    (hleads : ∀ a b, leads a b → a ∈ nodes) :
    (layersFrom layer rest).flatten.Nodup ∧
      ∀ n, n ∈ (layersFrom layer rest).flatten ↔ n ∈ nodes ∧ WalkTo leads i n := by
  fun_induction layersFrom layer rest generalizing i with
  | case1 layer rest hlayer hwaiting =>
      obtain rfl : layer = [] := by simpa using hlayer
      obtain hwaiting : rest.waiting = [] := by simpa using hwaiting
      refine ⟨by simp, fun n => ?_⟩
      simp only [List.flatten_nil, List.not_mem_nil, false_iff, not_and]
      intro hn hwalk
      exact List.not_mem_nil (hwaiting ▸ h.mem_waiting_of_nil hn hwalk)
  | case2 layer rest hlayer hwaiting =>
      obtain rfl : layer = [] := by simpa using hlayer
      refine ⟨by simpa using h.nodup_waiting, fun n => ?_⟩
      rw [List.flatten_cons, List.flatten_nil, List.append_nil]
      refine ⟨fun hn => ?_, fun hn => h.mem_waiting_of_nil hn.1 hn.2⟩
      exact ⟨((h.mem_waiting n).1 hn).1, h.walkTo_of_nil hleads hn i⟩
  | case3 layer rest hlayer ih =>
      obtain ⟨hnodup, hmem⟩ := ih (h.next hleads)
      rw [List.flatten_cons]
      refine ⟨List.nodup_append.2 ⟨h.nodup_layer, hnodup, fun a ha b hb hab => ?_⟩, fun n => ?_⟩
      · subst hab
        exact ((h.mem_layer a).1 ha).2.2 ((hmem a).1 hb).2
      · rw [List.mem_append, hmem, h.mem_layer]
        constructor
        · rintro (⟨hn, hwalk, -⟩ | ⟨hn, hlong⟩)
          · exact ⟨hn, hwalk⟩
          · exact ⟨hn, hlong.pred⟩
        · rintro ⟨hn, hwalk⟩
          by_cases hlong : WalkTo leads (i + 1) n
          · exact Or.inr ⟨hn, hlong⟩
          · exact Or.inl ⟨hn, hwalk, hlong⟩

/-- A node whose longest walk has `i + k` edges stands in the `k`-th layer of a run from layer `i` on. -/
theorem Wave.mem_layersFrom {i : Nat} {layer : List String} {rest : Rest} (h : Wave leads nodes i layer rest)
    (hleads : ∀ a b, leads a b → a ∈ nodes) {k : Nat} {n : String} (hn : n ∈ nodes) (hwalk : WalkTo leads (i + k) n)
    (hshort : ¬ WalkTo leads (i + k + 1) n) : ∃ l, (layersFrom layer rest)[k]? = some l ∧ n ∈ l := by
  induction k generalizing i layer rest with
  | zero =>
      have hmem : n ∈ layer := (h.mem_layer n).2 ⟨hn, hwalk, hshort⟩
      rw [layersFrom, if_neg (by simp [List.ne_nil_of_mem hmem])]
      exact ⟨layer, rfl, hmem⟩
  | succ k ih =>
      have hlayer : layer ≠ [] := by
        rintro rfl
        exact hshort (h.walkTo_of_nil hleads (h.mem_waiting_of_nil hn (hwalk.mono (by omega))) _)
      rw [layersFrom, if_neg (by simpa using hlayer), List.getElem?_cons_succ]
      have hshift : i + (k + 1) = i + 1 + k := by omega
      rw [hshift] at hwalk hshort
      exact ih (h.next hleads) hwalk hshort

/-- The nodes with walks of every length stand together in the last layer of a run, and no other node does. -/
theorem Wave.last_layersFrom {i : Nat} {layer : List String} {rest : Rest} (h : Wave leads nodes i layer rest)
    (hleads : ∀ a b, leads a b → a ∈ nodes) : ∃ r : Nat,
      (∀ n ∈ nodes, (∀ k, WalkTo leads k n) → ∃ l, (layersFrom layer rest)[r]? = some l ∧ n ∈ l) ∧
      ∀ k l n, (layersFrom layer rest)[k]? = some l → n ∈ l → ¬ (∀ j, WalkTo leads j n) → k < r := by
  fun_induction layersFrom layer rest generalizing i with
  | case1 layer rest hlayer hwaiting =>
      obtain rfl : layer = [] := by simpa using hlayer
      obtain hwaiting : rest.waiting = [] := by simpa using hwaiting
      refine ⟨0, fun n hn hwalks => ?_, by simp⟩
      exact absurd (h.mem_waiting_of_nil hn (hwalks i)) (by simp [hwaiting])
  | case2 layer rest hlayer hwaiting =>
      obtain rfl : layer = [] := by simpa using hlayer
      refine ⟨0, fun n hn hwalks => ⟨_, rfl, h.mem_waiting_of_nil hn (hwalks i)⟩, ?_⟩
      intro k l n hl hn hfew
      cases k with
      | zero =>
          obtain rfl : rest.waiting = l := by simpa using hl
          exact absurd (h.walkTo_of_nil hleads hn) hfew
      | succ k => simp at hl
  | case3 layer rest hlayer ih =>
      obtain ⟨r, hall, hfew⟩ := ih (h.next hleads)
      refine ⟨r + 1, hall, fun k l n hl hn hnot => ?_⟩
      cases k with
      | zero => omega
      | succ k =>
          have := hfew k l n (by simpa using hl) hn hnot
          omega

end Run

/-! ## The layers of a graph -/

/-- Each node that no cycle leads to stands in the layer that has the length of its longest path as its number, and
all other nodes stand together in one layer behind those. -/
structure Layered (leads : String → String → Prop) (nodes : List String) (ls : List (List String)) : Prop where
  longest : ∀ n ∈ nodes, ¬ BehindCycle leads n → ∃ k, IsGreatest (pathLengths leads n) k ∧ ∃ l, ls[k]? = some l ∧ n ∈ l
  behind : ∃ r : Nat, (∀ n ∈ nodes, BehindCycle leads n → ∃ l, ls[r]? = some l ∧ n ∈ l) ∧
    ∀ k l n, ls[k]? = some l → n ∈ l → ¬ BehindCycle leads n → k < r

theorem Wave.layered {leads : String → String → Prop} {nodes : List String} {layer : List String} {rest : Rest}
    (h : Wave leads nodes 0 layer rest) (hleads : ∀ a b, leads a b → a ∈ nodes) :
    Layered leads nodes (layersFrom layer rest) := by
  constructor
  · intro n hn hcycle
    obtain ⟨j, hj⟩ : ∃ j, ¬ WalkTo leads j n := by
      by_contra hall
      push Not at hall
      exact hcycle ((behindCycle_iff_walkTo hn hleads).2 hall)
    obtain ⟨k, hwalk, hshort⟩ := exists_longest_walk hj
    exact ⟨k, isGreatest_pathLengths hcycle hwalk hshort,
      h.mem_layersFrom hleads hn (by rwa [Nat.zero_add]) (by rwa [Nat.zero_add])⟩
  · obtain ⟨r, hall, hfew⟩ := h.last_layersFrom hleads
    refine ⟨r, fun n hn hcycle => hall n hn (walkTo_of_behindCycle hcycle), fun k l n hl hn hcycle => ?_⟩
    refine hfew k l n hl hn fun hwalks => hcycle ((behindCycle_iff_walkTo ?_ hleads).2 hwalks)
    exact ((h.flatten_layersFrom hleads).2 n).1 (List.mem_flatten_of_mem (List.mem_of_getElem? hl) hn) |>.1

section Layers
variable (ids : List String) (edges : List Edge)

theorem firstLayer_counted : firstLayer (counted ids edges) ids.eraseDups = firstNodes ids edges := by
  have hfilter : (ids.eraseDups.filter fun n => !(counted ids edges).any (·.target = n)) =
      ids.eraseDups.filter fun n => degree (counted ids edges) n = 0 := by
    refine List.filter_congr fun n _ => ?_
    rw [Bool.eq_iff_iff]
    simp [degree]
  rw [firstNodes_eq, ← hfilter]
  unfold firstLayer
  rcases ids.eraseDups.filter (fun n => !(counted ids edges).any (·.target = n)) with _ | ⟨m, sources⟩
  · rcases ids.eraseDups with _ | ⟨n, ns⟩ <;> rfl
  · rfl

theorem layers_eq : layers ids edges = layersFrom (firstNodes ids edges)
    ⟨ids.eraseDups.filter fun n => !(firstNodes ids edges).contains n, counted ids edges⟩ := by
  have hcounted : edges.filter (fun e => ids.eraseDups.contains e.source && ids.eraseDups.contains e.target) =
      counted ids edges := by
    refine List.filter_congr fun e _ => ?_
    rw [Bool.eq_iff_iff]
    simp [List.mem_eraseDups]
  unfold layers
  rw [NameSet.members_ofList]
  simp only [hcounted, firstLayer_counted]

theorem wave_of_source (h : ∃ n ∈ ids, degree (counted ids edges) n = 0) :
    Wave (Leads ids edges) ids 0 (firstNodes ids edges)
      ⟨ids.eraseDups.filter fun n => !(firstNodes ids edges).contains n, counted ids edges⟩ := by
  have hfirst : ∀ n, n ∈ firstNodes ids edges ↔ n ∈ ids ∧ ¬ WalkTo (Leads ids edges) 1 n := by
    intro n
    rw [firstNodes_of_source h, List.mem_filter, List.mem_eraseDups, decide_eq_true_eq, degree_counted_eq_zero]
    simp [WalkTo]
  constructor
  · rw [firstNodes_of_source h]
    exact (nodup_eraseDups ids).filter _
  · exact (nodup_eraseDups ids).filter _
  · intro n
    simpa [WalkTo] using hfirst n
  · intro n
    simp only [List.mem_filter, List.mem_eraseDups, Bool.not_eq_eq_eq_not, Bool.not_true, List.contains_eq_mem,
      decide_eq_false_iff_not, hfirst, not_and, not_not]
    exact ⟨fun hn => ⟨hn.1, hn.2 hn.1⟩, fun hn => ⟨hn.1, fun _ => hn.2⟩⟩
  · intro m n _
    simp [Leads, WalkTo]

/-- A graph without a first node is read without the edges into the node that it is entered at. -/
theorem wave_of_seed {seed : String} (h : ∀ n ∈ ids, degree (counted ids edges) n ≠ 0) (hseed : seed ∈ ids) :
    Wave (fun a b => Leads ids edges a b ∧ b ≠ seed) ids 0 [seed]
      ⟨ids.eraseDups.filter fun n => !([seed].contains n), counted ids edges⟩ := by
  have hlong : ∀ n, n ∈ ids → n ≠ seed → WalkTo (fun a b => Leads ids edges a b ∧ b ≠ seed) 1 n := by
    intro n hn hne
    have hdegree := h n hn
    rw [Ne, degree_counted_eq_zero] at hdegree
    push Not at hdegree
    obtain ⟨a, ha⟩ := hdegree
    exact ⟨a, ⟨ha, hne⟩, trivial⟩
  have hshort : ¬ WalkTo (fun a b => Leads ids edges a b ∧ b ≠ seed) 1 seed := by
    rintro ⟨a, ⟨-, hne⟩, -⟩
    exact hne rfl
  constructor
  · simp
  · exact (nodup_eraseDups ids).filter _
  · intro n
    rw [List.mem_singleton]
    constructor
    · rintro rfl
      exact ⟨hseed, trivial, hshort⟩
    · rintro ⟨hn, -, hnot⟩
      by_contra hne
      exact hnot (hlong n hn hne)
  · intro n
    simp only [List.mem_filter, List.mem_eraseDups, Bool.not_eq_eq_eq_not, Bool.not_true, List.contains_eq_mem,
      decide_eq_false_iff_not, List.mem_singleton]
    refine ⟨fun hn => ⟨hn.1, hlong n hn.1 hn.2⟩, fun hn => ⟨hn.1, ?_⟩⟩
    rintro rfl
    exact hshort hn.2
  · intro m n hn
    have hne : n ≠ seed := by
      rw [List.mem_filter] at hn
      simpa using hn.2
    simp [Leads, WalkTo, hne]

theorem firstNodes_of_seed {seed : String} (h : ∀ n ∈ ids, degree (counted ids edges) n ≠ 0)
    (hseed : ids.find? (fun n => ids.all fun m => degree (counted ids edges) n ≤ degree (counted ids edges) m) =
      some seed) : firstNodes ids edges = [seed] := by
  rw [firstNodes_of_no_source h, hseed]
  rfl

/-- Whatever the graph, a run over it begins with a wave. -/
theorem exists_wave : ∃ leads : String → String → Prop, (∀ a b, leads a b → a ∈ ids) ∧
    Wave leads ids 0 (firstNodes ids edges)
      ⟨ids.eraseDups.filter fun n => !(firstNodes ids edges).contains n, counted ids edges⟩ := by
  by_cases hsource : ∃ n ∈ ids, degree (counted ids edges) n = 0
  · exact ⟨_, fun a b hab => hab.source_mem, wave_of_source ids edges hsource⟩
  · push Not at hsource
    rcases hids : ids.eraseDups with _ | ⟨n, ns⟩
    · obtain rfl : ids = [] := List.eq_nil_iff_forall_not_mem.2 fun n hn => by
        rw [← List.mem_eraseDups, hids] at hn
        exact List.not_mem_nil hn
      refine ⟨Leads [] edges, fun a b hab => hab.source_mem, ?_⟩
      constructor <;> simp [firstNodes]
    · have hfind := find?_least_degree hids (degree (counted ids edges))
      rw [← hids, firstNodes_of_seed ids edges hsource hfind]
      exact ⟨_, fun a b hab => hab.1.source_mem,
        wave_of_seed ids edges hsource (List.mem_of_find?_eq_some hfind)⟩

theorem flatten_layers : (layers ids edges).flatten.Nodup ∧ ∀ n, n ∈ (layers ids edges).flatten ↔ n ∈ ids := by
  obtain ⟨leads, hleads, hwave⟩ := exists_wave ids edges
  obtain ⟨hnodup, hmem⟩ := hwave.flatten_layersFrom hleads
  rw [← layers_eq] at hnodup hmem
  exact ⟨hnodup, fun n => (hmem n).trans (and_iff_left trivial)⟩

theorem ne_nil_of_mem_layers {l : List String} (hl : l ∈ layers ids edges) : l ≠ [] := by
  rw [layers_eq] at hl
  exact ne_nil_of_mem_layersFrom _ _ l hl

/-- **Every node stands in the layer of its longest path, and what is behind a cycle stands in one layer behind all
others.** A graph in which an edge leads to every node is read without the edges into its first node of least
in-degree, which is alone in the first layer. -/
theorem layers_longest_paths :
    (∀ l ∈ layers ids edges, l ≠ []) ∧ (layers ids edges).flatten.Nodup ∧
    (∀ n, n ∈ (layers ids edges).flatten ↔ n ∈ ids) ∧
    ((∃ n ∈ ids, degree (counted ids edges) n = 0) → Layered (Leads ids edges) ids (layers ids edges)) ∧
    ∀ seed, (∀ n ∈ ids, degree (counted ids edges) n ≠ 0) →
      ids.find? (fun n => ids.all fun m => degree (counted ids edges) n ≤ degree (counted ids edges) m) = some seed →
      (layers ids edges)[0]? = some [seed] ∧
        Layered (fun a b => Leads ids edges a b ∧ b ≠ seed) ids (layers ids edges) := by
  have hall : ∀ a b, Leads ids edges a b → a ∈ ids := fun a b hab => hab.source_mem
  obtain ⟨leads, hleads, hwave⟩ := exists_wave ids edges
  obtain ⟨hnodup, hmem⟩ := hwave.flatten_layersFrom hleads
  rw [← layers_eq] at hnodup hmem
  refine ⟨?_, hnodup, fun n => (hmem n).trans (and_iff_left trivial), fun hsource => ?_, fun seed hnone hseed => ?_⟩
  · rw [layers_eq]
    exact ne_nil_of_mem_layersFrom _ _
  · rw [layers_eq]
    exact (wave_of_source ids edges hsource).layered hall
  · rw [layers_eq, firstNodes_of_seed ids edges hnone hseed]
    refine ⟨?_, (wave_of_seed ids edges hnone (List.mem_of_find?_eq_some hseed)).layered fun a b hab => hall a b hab.1⟩
    rw [layersFrom, if_neg (by simp)]
    rfl

/-- A source before a loop, and a loop with an exit that is listed first. -/
theorem layers_longest_paths_loops :
    Layered (Leads ["s", "a", "b"] [⟨"s", "a"⟩, ⟨"a", "b"⟩, ⟨"b", "a"⟩]) ["s", "a", "b"]
      (layers ["s", "a", "b"] [⟨"s", "a"⟩, ⟨"a", "b"⟩, ⟨"b", "a"⟩]) ∧
    (layers ["t", "a", "b"] [⟨"a", "b"⟩, ⟨"b", "a"⟩, ⟨"a", "t"⟩])[0]? = some ["t"] :=
  ⟨(layers_longest_paths _ _).2.2.2.1 ⟨"s", by decide, by decide⟩,
    ((layers_longest_paths _ _).2.2.2.2 "t" (by decide) (by decide)).1⟩

end Layers
end Plotline.Layout
