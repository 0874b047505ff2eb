import Plotline.Proofs.Story.Usage
import Plotline.Proofs.Strict.Basic

/-!
# The strict analysis of a story

* `Strict.roles`: roles, where every label that a jump names is fetched from the table of labels.
* `Strict.usage`: usage, where the count of every tag that speaks, every variable and its list of mentions are fetched.
* `Strict.analysis_eq`: the strict analysis of blocks under settings whose paths are texts yields their analysis.
-/

namespace Plotline
open Script

/-- The paths in the settings are texts. -/
def AnalysisSettings.HasTextPaths (s : AnalysisSettings) : Prop :=
  ∀ d ∈ s.storyPaths ++ s.ignoredSuffixes, ∃ path, d = .text path

namespace Strict

/-! ## Roles -/

def targetBlocks (t : Tables) (jumps : List Jump) : Run NameSet := do
  let ids ← (jumps.filter fun j => !j.dynamic && t.labels.contains j.target).mapM fun j => do
    return (← t.labels.fetch j.target).block
  return NameSet.ofList ids

def addRoles (t : Tables) (refs : References) (settings : AnalysisSettings) (r : Roles) (b : Block) : Run Roles := do
  let targets ← targetBlocks t (refs.jumps.getD b.id [])
  let branches := 1 < targets.size || (t.hasScanned b.id && b.hasMenu)
  return { Roles.add t refs settings r b with branching := Roles.insertIf branches r.branching b.id }

def roles (blocks : List Block) (t : Tables) (refs : References) (settings : AnalysisSettings) : Run Roles :=
  blocks.foldlM (addRoles t refs settings) {}

theorem targetBlocks_eq (t : Tables) (jumps : List Jump) : targetBlocks t jumps = .ok (Roles.targetBlocks t jumps) := by
  let block (j : Jump) : String := ((t.labels.get? j.target).map (·.block)).getD ""
  have hblocks : (jumps.filter fun j => !j.dynamic && t.labels.contains j.target).mapM
      (fun j => (return (← t.labels.fetch j.target).block : Run String)) =
        .ok ((jumps.filter fun j => !j.dynamic && t.labels.contains j.target).map block) := by
    refine mapM_eq_ok fun j hj => ?_
    obtain ⟨site, hsite⟩ : ∃ site, t.labels.get? j.target = some site := by
      rw [List.mem_filter, Bool.and_eq_true] at hj
      exact Option.isSome_iff_exists.1 hj.2.2
    rw [Table.fetch_of_get? hsite]
    simp only [block, hsite]
    rfl
  have hmap : (jumps.filter fun j => !j.dynamic && t.labels.contains j.target).map block =
      jumps.filterMap fun j => if j.dynamic then none else (t.labels.get? j.target).map (·.block) := by
    rw [← List.filterMap_eq_map, List.filterMap_filter]
    refine List.filterMap_congr fun j _ => ?_
    unfold Table.contains
    cases j.dynamic <;> cases hsite : t.labels.get? j.target <;> simp [block, hsite]
  unfold targetBlocks
  rw [hblocks, hmap]
  rfl

theorem roles_eq (blocks : List Block) (t : Tables) (refs : References) (settings : AnalysisSettings) :
    roles blocks t refs settings = .ok (Roles.ofBlocks blocks t refs settings) := by
  refine (foldlM_eq_ok (fun _ => True) trivial fun r _ b _ => ⟨?_, trivial⟩).1
  unfold addRoles
  rw [targetBlocks_eq]
  rfl

/-! ## Usage -/

def addUse (t : Tables) (block : String) (masked : List Char) (number : Nat) (uses : Table String (List UseSite))
    (name : String) : Run (Table String (List UseSite)) :=
  if Plotline.mentions name.toList masked then do
    let v ← t.vars.fetch name
    if v.block = block && v.line = number then return uses
    else return uses.insert name ((← uses.fetch name) ++ [⟨block, number⟩])
  else return uses

def addLine (t : Tables) (block : String) (u : Usage) (line : List Char) (number : Nat) : Run Usage := do
  let u ← match Usage.speakerOf t line with
    | some tag => do
      let count ← u.spoken.fetch tag
      pure { u with
        spoken := u.spoken.insert tag (count + 1)
        dialogue := u.dialogue.update block [] (· ++ [⟨number, tag⟩]) }
    | none => pure u
  let uses ← t.vars.keys.foldlM (addUse t block (mask line) number) u.uses
  return { u with uses }

def addBlock (t : Tables) (u : Usage) (b : Block) : Run Usage :=
  b.numberedLines.foldlM (fun u l => addLine t b.id u l.1 l.2) u

def usage (blocks : List Block) (t : Tables) : Run Usage :=
  (blocks.filter fun b => t.hasScanned b.id).foldlM (addBlock t) (Usage.start t)

/-- Every variable has a list of mentions. -/
def HasLists (t : Tables) (uses : Table String (List UseSite)) : Prop :=
  ∀ name, t.vars.contains name = true → uses.contains name = true

/-- Every character has a count and every variable a list. -/
structure Complete (t : Tables) (u : Usage) : Prop where
  spoken : ∀ tag, t.characters.contains tag = true → u.spoken.contains tag = true
  uses : HasLists t u.uses

theorem complete_start (t : Tables) : Complete t (Usage.start t) :=
  ⟨fun tag h => (Table.contains_map _ t.characters tag).trans h,
    fun name h => (Table.contains_map _ t.vars name).trans h⟩

section Lines
variable {t : Tables} (hnames : ∀ name v, t.vars.get? name = some v → v.name = name)
include hnames

/-- A fetched variable and its fetched list yield what the variable and its list yield. -/
theorem addUse_eq (block : String) (masked : List Char) (number : Nat) {uses : Table String (List UseSite)}
    (huses : HasLists t uses) {v : Variable} (hv : v ∈ t.vars.values) :
    addUse t block masked number uses v.name =
      .ok (if Usage.usedAt v block masked number then uses.update v.name [] (· ++ [⟨block, number⟩]) else uses) := by
  have hget : t.vars.get? v.name = some v := (Table.mem_values_iff hnames).1 hv
  have hcontains : t.vars.contains v.name = true := by rw [Table.contains, hget, Option.isSome_some]
  unfold addUse Usage.usedAt
  cases Plotline.mentions v.name.toList masked with
  | false => rfl
  | true =>
      rw [if_pos rfl, Table.fetch_of_get? hget, ok_bind, Table.fetch_of_contains (huses v.name hcontains) [], ok_bind,
        Bool.true_and]
      cases (v.block = block && v.line = number : Bool) <;> rfl

/-- Going through the names of variables and fetching each variable amounts to going through the variables. -/
theorem addUses_eq (block : String) (masked : List Char) (number : Nat) {uses : Table String (List UseSite)}
    (huses : HasLists t uses) :
    t.vars.keys.foldlM (addUse t block masked number) uses =
      .ok ((t.vars.values.filter fun v => Usage.usedAt v block masked number).foldl
        (fun us v => us.update v.name [] (· ++ [⟨block, number⟩])) uses) ∧
    HasLists t ((t.vars.values.filter fun v => Usage.usedAt v block masked number).foldl
        (fun us v => us.update v.name [] (· ++ [⟨block, number⟩])) uses) := by
  rw [← Table.map_key_values hnames, List.foldlM_map, List.foldl_filter]
  refine foldlM_eq_ok (HasLists t) huses fun us hus v hv =>
    ⟨addUse_eq hnames block masked number hus hv, fun name hname => ?_⟩
  split
  · exact Table.contains_insert.2 (Or.inr (hus name hname))
  · exact hus name hname

theorem addLine_eq {u : Usage} (hu : Complete t u) (block : String) (line : List Char) (number : Nat) :
    addLine t block u line number = .ok (Usage.addLine t block u line number) ∧
      Complete t (Usage.addLine t block u line number) := by
  obtain ⟨huses, hlists⟩ := addUses_eq hnames block (mask line) number hu.uses
  unfold addLine Usage.addLine
  cases hspeaker : Usage.speakerOf t line with
  | none =>
      show (t.vars.keys.foldlM (addUse t block (mask line) number) u.uses >>= _) = _ ∧ _
      rw [huses]
      exact ⟨rfl, hu.spoken, hlists⟩
  | some tag =>
      have hcount := Table.fetch_of_contains (hu.spoken tag (Usage.contains_of_speakerOf t hspeaker)) 0
      simp only [hcount, ok_bind]
      show (t.vars.keys.foldlM (addUse t block (mask line) number) u.uses >>= _) = _ ∧ _
      rw [huses]
      exact ⟨rfl, fun tag' h => Table.contains_insert.2 (Or.inr (hu.spoken tag' h)), hlists⟩

theorem usage_eq (blocks : List Block) : usage blocks t = .ok (Usage.ofBlocks blocks t) := by
  refine (foldlM_eq_ok (Complete t) (complete_start t) fun u hu b _ => ?_).1
  exact foldlM_eq_ok (Complete t) hu fun u hu l _ => addLine_eq hnames hu b.id l.1 l.2

end Lines

/-! ## Analyses -/

def analysis (blocks : List Block) (settings : AnalysisSettings) : Run Analysis := do
  if Analysis.refuses blocks settings then throw .settings
  let tables := Tables.ofBlocks blocks settings
  let references := References.ofBlocks blocks tables
  let roles ← roles blocks tables references settings
  let usage ← usage blocks tables
  return { tables, references, roles, usage }

theorem stumbles_eq_false {s : AnalysisSettings} (h : s.HasTextPaths) (path : Option String) :
    s.stumbles path = false := by
  unfold AnalysisSettings.stumbles
  cases path with
  | none => rfl
  | some p =>
      simp only
      split
      · rfl
      · split
        · rfl
        · rfl
        · rename_i d hnone hfound
          obtain ⟨suffix, rfl⟩ := h d (List.mem_append_right _ (List.mem_of_find?_eq_some hfound))
          exact absurd rfl (hnone suffix)

theorem refuses_eq_false {s : AnalysisSettings} (h : s.HasTextPaths) (blocks : List Block) :
    Analysis.refuses blocks s = false := by
  have hkeys : s.hasCompoundPath = false := by
    rw [AnalysisSettings.hasCompoundPath, List.any_eq_false]
    intro d hd
    obtain ⟨path, rfl⟩ := h d (List.mem_append_left _ hd)
    exact Bool.false_ne_true
  unfold Analysis.refuses
  rw [hkeys, Bool.false_or, List.any_eq_false]
  intro b _
  simp [stumbles_eq_false h]

/-- A strict analysis does not break off, and yields the analysis. -/
theorem analysis_eq {settings : AnalysisSettings} (h : settings.HasTextPaths) (blocks : List Block) :
    analysis blocks settings = .ok (Analysis.ofBlocks blocks settings) := by
  have husage := usage_eq (t := Tables.ofBlocks blocks settings) (fun _ _ => name_of_get?_vars blocks settings) blocks
  unfold analysis
  simp only [refuses_eq_false h blocks, Bool.false_eq_true, if_false, roles_eq, ok_bind, husage]
  rfl

end Strict
end Plotline
