import Plotline.Proofs.Route.Projection
import Plotline.Proofs.Script.Jump

/-!
# Labels without a way on

A label that control does not run on from needs a link of its own, or a reason why it has none.

* `Block.encloses_of_between`: a line between two neighbouring labels stands under the first of them.
* `Block.OpensWith`: a line whose statement is a jump, which the block records.
* `Unlinked`: why a jump makes no link.
* `dead_end_explained`: between a label without a link out of it and the next one stands a return, or a jump of this
  kind.
-/

namespace Plotline
open Script Text

/-- A statement begins with the word `return`. -/
def Returns (statement : List Char) : Prop :=
  ∃ r, after? ['r', 'e', 't', 'u', 'r', 'n'] statement = some r ∧ endsWord r = true

theorem exists_terminal_of_hasTerminal {body : List (List Char)} (h : hasTerminal body = true) :
    ∃ line ∈ body, isTerminal (trim (mask line)) = true := by
  simp only [hasTerminal] at h
  split at h
  · cases h
  · obtain ⟨shown, hshown, hends⟩ := List.any_eq_true.1 h
    obtain ⟨line, hline, rfl⟩ := List.mem_map.1 (List.mem_filter.1 hshown).1
    exact ⟨line, hline, (Bool.and_eq_true_iff.1 hends).2⟩

namespace Block
variable {b : Block}

/-- A line between two neighbouring labels stands under the first of them. -/
theorem encloses_of_between {s t : LabelSite} (hnext : [s, t] <:+: b.plainLabels) {line : Int} (hs : s.line ≤ line)
    (ht : line < t.line) : b.Encloses line s := by
  refine ⟨hnext.subset (by simp), hs, fun u hu habove => ?_⟩
  obtain ⟨front, back, hlabels⟩ := hnext
  have hsorted := b.pairwise_plainLabels
  rw [← hlabels] at hu hsorted
  obtain ⟨hfront, -, hback⟩ := List.pairwise_append.1 hsorted
  rcases List.mem_append.1 hu with hu | hu
  · rcases List.mem_append.1 hu with hu | hu
    · exact Int.le_of_lt ((List.pairwise_append.1 hfront).2.2 u hu s (by simp))
    · rcases List.mem_pair.1 hu with rfl | rfl
      · exact Int.le_refl _
      · omega
  · have hlt := hback t (by simp) u hu
    omega

/-- A line of a block begins with a jump, blanks aside, and the block records this jump on the line. -/
structure OpensWith (b : Block) (l : List Char × Nat) (j : Jump) : Prop where
  head : ∃ site width, jumpAt? (trim (mask l.1)) = some (site, width) ∧ j.kind = site.kind ∧
    j.target = site.target ∧ j.dynamic = site.dynamic ∧ j.columnStart = site.start + indentation (mask l.1)
  mem : j ∈ b.jumps
  line : j.line = l.2

theorem exists_opensWith {l : List Char × Nat} (hl : l ∈ b.numberedLines) {site : JumpSite} {width : Nat}
    (h : jumpAt? (trim (mask l.1)) = some (site, width)) : ∃ j, b.OpensWith l j := by
  have hsite : site.shift (indentation (mask l.1)) ∈ jumpsIn l.1 := List.mem_of_head? (head?_jumpsIn h)
  refine ⟨⟨b.id, site.target, l.2, (site.start + indentation (mask l.1) : Nat),
    (site.stop + indentation (mask l.1) : Nat), site.kind, site.dynamic⟩, ⟨site, width, h, rfl, rfl, rfl, ?_⟩, ?_, rfl⟩
  · exact Int.natCast_add _ _
  · exact List.mem_flatMap.2 ⟨l, hl, List.mem_map.2 ⟨_, hsite, rfl⟩⟩

end Block

/-- Why a jump makes no link: its target is computed, or is not there, or is a menu without a label above it. -/
inductive Unlinked (blocks : List Block) (labels : Table String LabelSite) (invalid : List String) (j : Jump) : Prop
  | computed : j.dynamic = true → Unlinked blocks labels invalid j
  | missing : j.target ∈ invalid → Unlinked blocks labels invalid j
  | menu {c : Block} {m : LabelSite} : c ∈ blocks → m ∈ c.namedMenus → labels.get? j.target = some m →
      (∀ u ∈ c.plainLabels, m.line < u.line) → Unlinked blocks labels invalid j

section Analysis
variable {blocks : List Block} {settings : AnalysisSettings}

theorem kept_eq_plainLabels
    (hnames : ((readBlocks settings blocks).flatMap fun b => b.plainLabels.map (·.label)).Nodup) {b : Block}
    (hb : b ∈ readBlocks settings blocks) :
    b.kept (Analysis.ofBlocks blocks settings).tables.labels = b.plainLabels := by
  refine List.filter_eq_self.2 fun s hs => decide_eq_true ?_
  refine get?_label_of_only hb hs fun c hc t ht hlabel => ?_
  rw [← List.map_flatMap] at hnames
  exact List.inj_on_of_nodup_map hnames (List.mem_flatMap.2 ⟨c, hc, ht⟩) (List.mem_flatMap.2 ⟨b, hb, hs⟩) hlabel

/-- A jump out of a label without a link makes none. -/
theorem unlinked_of_no_link (hids : (blocks.map (·.id)).Nodup)
    (hnames : ((readBlocks settings blocks).flatMap fun b => b.plainLabels.map (·.label)).Nodup) {b : Block}
    (hb : b ∈ readBlocks settings blocks) {s : LabelSite} {j : Jump} (hj : j ∈ b.jumps) (hs : b.Encloses j.line s)
    (hdead : ∀ l ∈ (RouteGraph.of blocks (Analysis.ofBlocks blocks settings).tables.labels
      (Analysis.ofBlocks blocks settings).references.jumps settings).links, l.source ≠ s.node) :
    Unlinked (readBlocks settings blocks) (Analysis.ofBlocks blocks settings).tables.labels
      ((Analysis.ofBlocks blocks settings).references.invalid.getD b.id []) j := by
  have h := readFrom_analysis blocks settings hids
  cases hdynamic : j.dynamic with
  | true => exact .computed hdynamic
  | false =>
      cases hsite : (Analysis.ofBlocks blocks settings).tables.labels.get? j.target with
      | none => exact .missing ((mem_invalid_iff hids hb).2 ⟨j, hj, ⟨hdynamic, hsite⟩, rfl⟩)
      | some site =>
          obtain ⟨-, c, hc, hmem⟩ := h.site_of_get? _ _ hsite
          rcases h.leadsTo_or hsite hc (Block.block_of_mem_labels hmem) with ⟨t, -, hleads⟩ | ⟨hmenu, hbelow⟩
          · have hkept : b.KeptAbove (Analysis.ofBlocks blocks settings).tables.labels j.line s :=
              (Block.keptAbove_iff_encloses (kept_eq_plainLabels hnames hb)).2 hs
            obtain ⟨l, hl, hends⟩ := h.exists_link_of_makes hb ⟨hj, hdynamic, hkept, hleads⟩
            exact absurd (Prod.mk.inj hends).1 (hdead l hl)
          · rw [kept_eq_plainLabels hnames hc] at hbelow
            exact .menu hc hmenu hsite hbelow

/-- Control does not run on from a label without a link into the next one. -/
theorem hasTerminal_of_no_link (hids : (blocks.map (·.id)).Nodup)
    (hnames : ((readBlocks settings blocks).flatMap fun b => b.plainLabels.map (·.label)).Nodup) {b : Block}
    (hb : b ∈ readBlocks settings blocks) {s t : LabelSite} (hnext : [s, t] <:+: b.plainLabels)
    (hdead : ∀ l ∈ (RouteGraph.of blocks (Analysis.ofBlocks blocks settings).tables.labels
      (Analysis.ofBlocks blocks settings).references.jumps settings).links, l.source ≠ s.node) :
    hasTerminal (b.linesBetween s.line t.line) = true := by
  have h := readFrom_analysis blocks settings hids
  by_contra hruns
  rw [Bool.not_eq_true] at hruns
  rw [← kept_eq_plainLabels hnames hb] at hnext
  have hproposal := (h.mem_implicitLinks_iff hb).2 ⟨s, t, hnext, hruns, rfl⟩
  obtain ⟨l, hl, hends⟩ := RouteGraph.exists_link_of_mem_proposals hb (List.mem_append_right _ hproposal)
  exact hdead l hl (Prod.mk.inj hends).1

/-- **No silent dead ends.** Between a label without a link out of it and the next one stands a return, or a jump that
makes no link. -/
theorem dead_end_explained (hids : (blocks.map (·.id)).Nodup)
    (hnames : ((readBlocks settings blocks).flatMap fun b => b.plainLabels.map (·.label)).Nodup) {b : Block}
    (hb : b ∈ readBlocks settings blocks) {s t : LabelSite} (hnext : [s, t] <:+: b.plainLabels)
    (hdead : ∀ l ∈ (RouteGraph.of blocks (Analysis.ofBlocks blocks settings).tables.labels
      (Analysis.ofBlocks blocks settings).references.jumps settings).links, l.source ≠ s.node) :
    ∃ l ∈ b.numberedLines, s.line < l.2 ∧ l.2 < t.line ∧ (Returns (trim (mask l.1)) ∨
      ∃ j, b.OpensWith l j ∧ Unlinked (readBlocks settings blocks) (Analysis.ofBlocks blocks settings).tables.labels
        ((Analysis.ofBlocks blocks settings).references.invalid.getD b.id []) j) := by
  obtain ⟨line, hline, hends⟩ :=
    exists_terminal_of_hasTerminal (hasTerminal_of_no_link hids hnames hb hnext hdead)
  obtain ⟨l, hl, rfl⟩ := List.mem_map.1 hline
  obtain ⟨hl, hbetween⟩ := List.mem_filter.1 hl
  obtain ⟨hs, ht⟩ := of_decide_eq_true hbetween
  refine ⟨l, hl, hs, ht, ?_⟩
  rcases isTerminal_iff.1 hends with ⟨site, width, hjump⟩ | hreturn
  · obtain ⟨j, hj⟩ := Block.exists_opensWith hl hjump
    have hencloses : b.Encloses j.line s := by
      rw [hj.line]
      exact Block.encloses_of_between hnext (Int.le_of_lt hs) ht
    exact Or.inr ⟨j, hj, unlinked_of_no_link hids hnames hb hj.mem hencloses hdead⟩
  · exact Or.inl hreturn

end Analysis

/-- A label whose only jump leads to a menu that no label stands above. -/
def loneMenu : List Block :=
  [{ id := "one", content := "label a:\n jump m\nlabel b:\n" },
    { id := "two", content := "menu m:\n \"Go\":\n  jump a\n" }]

theorem dead_end_explained_loneMenu :
    ((loneMenu.map (·.id)).Nodup ∧
      ((readBlocks .usual loneMenu).flatMap fun b => b.plainLabels.map (·.label)).Nodup ∧
      [⟨"one", "a", 1, 7, .label⟩, ⟨"one", "b", 3, 7, .label⟩] <:+: (loneMenu[0]).plainLabels ∧
      ∀ l ∈ (RouteGraph.of loneMenu (Analysis.ofBlocks loneMenu .usual).tables.labels
        (Analysis.ofBlocks loneMenu .usual).references.jumps .usual).links, l.source ≠ "one:a") ∧
    ∃ l ∈ (loneMenu[0]).numberedLines, (1 : Int) < l.2 ∧ (l.2 : Int) < 3 ∧ (Returns (trim (mask l.1)) ∨
      ∃ j, (loneMenu[0]).OpensWith l j ∧
        Unlinked (readBlocks .usual loneMenu) (Analysis.ofBlocks loneMenu .usual).tables.labels
          ((Analysis.ofBlocks loneMenu .usual).references.invalid.getD "one" []) j) := by
  have hids : (loneMenu.map (·.id)).Nodup := by decide
  have hnames : ((readBlocks .usual loneMenu).flatMap fun b => b.plainLabels.map (·.label)).Nodup := by
    decide +kernel
  have hnext : [⟨"one", "a", 1, 7, .label⟩, ⟨"one", "b", 3, 7, .label⟩] <:+: (loneMenu[0]).plainLabels := by
    decide +kernel
  have hlinks : (RouteGraph.of loneMenu (Analysis.ofBlocks loneMenu .usual).tables.labels
      (Analysis.ofBlocks loneMenu .usual).references.jumps .usual).links = [] := by
    refine (readFrom_analysis loneMenu .usual hids).links_eq.trans ?_
    decide +kernel
  have hdead : ∀ l ∈ (RouteGraph.of loneMenu (Analysis.ofBlocks loneMenu .usual).tables.labels
      (Analysis.ofBlocks loneMenu .usual).references.jumps .usual).links, l.source ≠ "one:a" := by
    rw [hlinks]
    exact fun l hl => absurd hl List.not_mem_nil
  have hread : loneMenu[0] ∈ readBlocks .usual loneMenu := List.mem_filter.2 ⟨List.mem_cons_self, rfl⟩
  exact ⟨⟨hids, hnames, hnext, hdead⟩, dead_end_explained hids hnames hread hnext hdead⟩

end Plotline
