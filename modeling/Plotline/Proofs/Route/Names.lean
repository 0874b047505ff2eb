import Mathlib.Data.List.Infix
import Plotline.Proofs.Route.Listing
import Plotline.Proofs.Route.Projection

/-!
# Names of nodes, links and paths

The id of a block may hold the marks that join names, `:`, `-` and `->`, so that a joined name cannot be split from the
left. It can from the right, since no name of a node ends in another one.

* `SuffixFree`: no name ends in another one.
* `SuffixFree.linkKey_inj`, `SuffixFree.signature_inj`: the ends of a link can be read back from its key, and a path
  from its text.
* `ReadFrom.suffixFree_nodes`: the names of nodes are such names, since every label has its name for itself.
* `ReadFrom.nodup_keys`: every link has its key for itself.
-/

namespace Plotline
open Script

def SuffixFree (names : List String) : Prop := ∀ m ∈ names, ∀ n ∈ names, m.toList <:+ n.toList → m = n

theorem toList_linkKey (a b : String) : (linkKey a b).toList = (a.toList ++ ['-']) ++ b.toList := by
  unfold linkKey
  rw [String.toList_append, String.toList_append]
  rfl

theorem toList_signature_concat (a : String) : ∀ p : List String,
    (signature (p ++ [a])).toList = (if p = [] then [] else (signature p).toList ++ ['-', '>']) ++ a.toList
  | [] => by simp [signature]
  | [b] => by
    rw [List.cons_append, List.nil_append, toList_signature_cons_cons, if_neg (by simp)]
    simp [signature]
  | b :: c :: p => by
    have ih := toList_signature_concat a (c :: p)
    rw [if_neg (by simp), List.cons_append] at ih
    rw [if_neg (by simp), List.cons_append, List.cons_append, toList_signature_cons_cons, ih,
      toList_signature_cons_cons]
    simp

namespace SuffixFree
variable {names : List String}

/-- The last name of a text can be read back. -/
theorem append_inj (h : SuffixFree names) {m n : String} (hm : m ∈ names) (hn : n ∈ names) {x y : List Char}
    (heq : x ++ m.toList = y ++ n.toList) : x = y ∧ m = n := by
  have hsuffix : m.toList <:+ n.toList ∨ n.toList <:+ m.toList :=
    List.suffix_or_suffix_of_suffix (List.suffix_append x m.toList) (heq ▸ List.suffix_append y n.toList)
  have hmn : m = n := by
    rcases hsuffix with hsuffix | hsuffix
    · exact h m hm n hn hsuffix
    · exact (h n hn m hm hsuffix).symm
  subst hmn
  exact ⟨List.append_cancel_right heq, rfl⟩

theorem linkKey_inj (h : SuffixFree names) {a b c d : String} (hb : b ∈ names) (hd : d ∈ names)
    (hkey : linkKey a b = linkKey c d) : a = c ∧ b = d := by
  have hlist := congrArg String.toList hkey
  rw [toList_linkKey, toList_linkKey] at hlist
  obtain ⟨hfront, hbd⟩ := h.append_inj hb hd hlist
  exact ⟨String.toList_injective (List.append_cancel_right hfront), hbd⟩

theorem signature_inj (h : SuffixFree names) {p q : List String} (hp : p ≠ []) (hq : q ≠ []) (hpn : p ⊆ names)
    (hqn : q ⊆ names) (hsig : signature p = signature q) : p = q := by
  induction p using List.reverseRecOn generalizing q with
  | nil => exact absurd rfl hp
  | append_singleton p a ih =>
      obtain ⟨q, b, rfl⟩ := (List.eq_nil_or_concat' q).resolve_left hq
      have hlist := congrArg String.toList hsig
      rw [toList_signature_concat, toList_signature_concat] at hlist
      obtain ⟨hfront, rfl⟩ := h.append_inj (hpn (by simp)) (hqn (by simp)) hlist
      by_cases hp' : p = []
      · by_cases hq' : q = []
        · rw [hp', hq']
        · rw [if_pos hp', if_neg hq'] at hfront
          simp at hfront
      · by_cases hq' : q = []
        · rw [if_neg hp', if_pos hq'] at hfront
          simp at hfront
        · rw [if_neg hp', if_neg hq'] at hfront
          have hrest := String.toList_injective (List.append_cancel_right hfront)
          rw [ih hp' hq' (fun n hn => hpn (by simp [hn])) (fun n hn => hqn (by simp [hn])) hrest]

end SuffixFree

namespace ReadFrom
variable {blocks : List Block} {labels : Table String LabelSite} {jumps : Table String (List Jump)}

theorem suffixFree_nodes (h : ReadFrom blocks labels jumps) :
    SuffixFree ((RouteGraph.drawn labels jumps blocks).nodes.map (·.id)) := by
  intro m hm n hn hsuffix
  obtain ⟨node, hnode, rfl⟩ := List.mem_map.1 hm
  obtain ⟨node', hnode', rfl⟩ := List.mem_map.1 hn
  obtain ⟨b, -, s, hs, rfl⟩ := h.mem_nodes_iff.1 hnode
  obtain ⟨c, -, t, ht, rfl⟩ := h.mem_nodes_iff.1 hnode'
  obtain ⟨hplain, hgets⟩ := Block.mem_kept.1 hs
  obtain ⟨hplain', hgett⟩ := Block.mem_kept.1 ht
  -- A name is what follows the last colon, and the table has one label of that name.
  obtain ⟨front, heq⟩ := hsuffix
  have htext : ∀ s : LabelSite, s.node.toList = s.block.toList ++ ':' :: s.label.toList := by
    intro s
    unfold LabelSite.node nodeId
    rw [String.toList_append, String.toList_append, List.append_assoc]
    rfl
  rw [htext, htext, ← List.append_assoc] at heq
  have hlabel : s.label = t.label := String.toList_injective <|
    (append_colon_inj (Block.colon_notMem_label (Block.mem_plainLabels.1 hplain).1)
      (Block.colon_notMem_label (Block.mem_plainLabels.1 hplain').1) heq).2
  rw [hlabel, hgett] at hgets
  obtain rfl := Option.some.inj hgets
  rfl

theorem nodup_nodes (h : ReadFrom blocks labels jumps) :
    ((RouteGraph.drawn labels jumps blocks).nodes.map (·.id)).Nodup := by
  rw [h.nodes_eq, List.map_flatMap, List.nodup_flatMap]
  have hnode : ∀ b : Block, ((b.kept labels).map fun s => (⟨s.node, b.id, s.label, s.line, b.caption⟩ : RouteNode)).map
      (·.id) = (b.kept labels).map LabelSite.node := by
    intro b
    rw [List.map_map]
    rfl
  have hblocks : blocks.Nodup := h.ids.of_map
  constructor
  · intro b hb
    rw [hnode]
    refine List.Nodup.map_on (fun s hs t ht hst => (h.eq_of_node_eq hb hb hs ht hst).2) ?_
    exact Block.pairwise_kept.imp fun hlt heq => absurd (heq ▸ hlt) (Int.lt_irrefl _)
  · refine hblocks.imp_of_mem fun hb hc hne => ?_
    rw [Function.onFun_apply, hnode, hnode]
    intro n hn hn'
    obtain ⟨s, hs, rfl⟩ := List.mem_map.1 hn
    obtain ⟨t, ht, heq⟩ := List.mem_map.1 hn'
    exact hne (h.eq_of_node_eq hb hc hs ht heq.symm).1

theorem nodup_keys (h : ReadFrom blocks labels jumps) :
    ((RouteGraph.drawn labels jumps blocks).links.map RouteLink.key).Nodup := by
  have hends : ((RouteGraph.drawn labels jumps blocks).links.map RouteLink.ends).Nodup :=
    RouteGraph.nodup_ends labels jumps blocks
  refine List.Nodup.map_on (fun l hl m hm hkey => ?_) hends.of_map
  obtain ⟨-, n, hn, hntarget⟩ := h.ends_listed hl
  obtain ⟨-, k, hk, hktarget⟩ := h.ends_listed hm
  have hboth := h.suffixFree_nodes.linkKey_inj (hntarget ▸ List.mem_map_of_mem hn) (hktarget ▸ List.mem_map_of_mem hk)
    (show linkKey l.source l.target = linkKey m.source m.target from hkey)
  exact List.inj_on_of_nodup_map hends hl hm (Prod.ext hboth.1 hboth.2)

end ReadFrom
end Plotline
