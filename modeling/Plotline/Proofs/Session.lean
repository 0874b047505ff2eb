import Mathlib.Data.List.Induction
import Plotline.Proofs.Sameness
import Plotline.Session

/-!
# What a session answers

* `Snapshot.of?_unsized`: a snapshot does not depend on the sizes of blocks.
* `Block.Alike`: blocks that a session takes for the same; `Block.alike_self_iff`: which ones it takes for the same when
  they come again.
* `SnapshotKey.same_iff`: keys that a session takes for the same.
* `Session.Steps`: what one request can do, one constructor for each outcome.
* `Session.IsLatest`: the key of the latest successful analysis, if nothing was forgotten since.
* `Session.Remembers`: what a session keeps agrees with the requests before; `remembers_step`, `remembers_after`.
* `session_answers`: every answer is what an analysis from scratch gives, and is kept if and only if its key is like the
  latest one; blocks with faults leave no trace.
-/

namespace Plotline

/-! ## Sizes -/

def Block.unsized (b : Block) : Block := { b with width := none, height := none }

section Unsized
variable (blocks : List Block)

theorem Tables.ofBlocks_unsized (settings : AnalysisSettings) :
    Tables.ofBlocks (blocks.map Block.unsized) settings = Tables.ofBlocks blocks settings := by
  unfold Tables.ofBlocks
  dsimp only
  rw [List.filter_map, List.foldl_map]
  rfl

theorem References.ofBlocks_unsized (t : Tables) :
    References.ofBlocks (blocks.map Block.unsized) t = References.ofBlocks blocks t := by
  unfold References.ofBlocks
  rw [List.filter_map, List.foldl_map]
  rfl

theorem Roles.ofBlocks_unsized (t : Tables) (refs : References) (settings : AnalysisSettings) :
    Roles.ofBlocks (blocks.map Block.unsized) t refs settings = Roles.ofBlocks blocks t refs settings := by
  unfold Roles.ofBlocks
  rw [List.foldl_map]
  rfl

theorem Usage.ofBlocks_unsized (t : Tables) :
    Usage.ofBlocks (blocks.map Block.unsized) t = Usage.ofBlocks blocks t := by
  unfold Usage.ofBlocks
  rw [List.filter_map, List.foldl_map]
  rfl

theorem Analysis.ofBlocks_unsized (settings : AnalysisSettings) :
    Analysis.ofBlocks (blocks.map Block.unsized) settings = Analysis.ofBlocks blocks settings := by
  unfold Analysis.ofBlocks
  dsimp only
  rw [Tables.ofBlocks_unsized, References.ofBlocks_unsized, Roles.ofBlocks_unsized, Usage.ofBlocks_unsized]

theorem RouteGraph.of_unsized (labels : Table String LabelSite) (jumps : Table String (List Jump))
    (settings : AnalysisSettings) :
    RouteGraph.of (blocks.map Block.unsized) labels jumps settings = RouteGraph.of blocks labels jumps settings := by
  unfold RouteGraph.of
  rw [List.filter_map, List.foldl_map]
  rfl

/-- A snapshot does not depend on the sizes of blocks. -/
theorem Snapshot.of?_unsized (settings : Settings) :
    Snapshot.of? settings (blocks.map Block.unsized) = Snapshot.of? settings blocks := by
  have hrefuses : Analysis.refuses (blocks.map Block.unsized) settings.analysis =
      Analysis.refuses blocks settings.analysis := by
    unfold Analysis.refuses
    rw [List.any_map]
    rfl
  unfold Snapshot.of? Snapshot.of RouteAnalysis.ofAnalysis RouteAnalysis.of
  dsimp only
  rw [hrefuses, Analysis.ofBlocks_unsized, RouteGraph.of_unsized]

end Unsized

/-! ## Keys -/

theorem sameLength_iff {x y : Option FloatObject} : sameLength x y = true ↔
    (x = none ∧ y = none) ∨ ∃ u v, x = some u ∧ y = some v ∧ u.worth.same v.worth = true := by
  cases x <;> cases y <;> simp [sameLength]

theorem sameLength_symm {x y : Option FloatObject} (h : sameLength x y = true) : sameLength y x = true := by
  rcases sameLength_iff.1 h with ⟨rfl, rfl⟩ | ⟨u, v, rfl, rfl, huv⟩
  · rfl
  · exact sameLength_iff.2 (Or.inr ⟨v, u, rfl, rfl, Worth.same_symm huv⟩)

theorem sameLength_trans {x y z : Option FloatObject} (h : sameLength x y = true) (h' : sameLength y z = true) :
    sameLength x z = true := by
  rcases sameLength_iff.1 h with ⟨rfl, rfl⟩ | ⟨u, v, rfl, rfl, huv⟩
  · exact h'
  · rcases sameLength_iff.1 h' with ⟨hnone, -⟩ | ⟨v', w, hv, rfl, hvw⟩
    · cases hnone
    · obtain rfl := Option.some.inj hv
      exact sameLength_iff.2 (Or.inr ⟨u, w, rfl, rfl, Worth.same_trans huv hvw⟩)

/-- A length is the same as itself, unless it is no number and its object is met only once. -/
theorem sameLength_self_iff {x : Option FloatObject} :
    sameLength x x = true ↔ ∀ u ∈ x, Number.parts u.value ≠ .nan ∨ u.object.isSome = true := by
  cases x with
  | none => simp [sameLength]
  | some u => simpa [sameLength, FloatObject.worth] using Worth.same_self_iff u.worth

/-- Blocks with the same id, content, path and title, and sizes that are equal as numbers or the same objects. -/
structure Block.Alike (a b : Block) : Prop where
  id : a.id = b.id
  content : a.content = b.content
  path : a.path = b.path
  title : a.title = b.title
  width : sameLength a.width b.width = true
  height : sameLength a.height b.height = true

theorem Block.same_iff {a b : Block} : a.same b = true ↔ a.Alike b := by
  unfold Block.same
  simp only [Bool.and_eq_true, beq_iff_eq]
  constructor
  · rintro ⟨⟨⟨⟨⟨hid, hcontent⟩, hpath⟩, htitle⟩, hwidth⟩, hheight⟩
    exact ⟨hid, hcontent, hpath, htitle, hwidth, hheight⟩
  · rintro ⟨hid, hcontent, hpath, htitle, hwidth, hheight⟩
    exact ⟨⟨⟨⟨⟨hid, hcontent⟩, hpath⟩, htitle⟩, hwidth⟩, hheight⟩

/-- A block is taken for the same when it comes again, unless a size is no number and its object is met only once. -/
theorem Block.alike_self_iff {b : Block} :
    b.Alike b ↔ sameLength b.width b.width = true ∧ sameLength b.height b.height = true :=
  ⟨fun h => ⟨h.width, h.height⟩, fun h => ⟨rfl, rfl, rfl, rfl, h.1, h.2⟩⟩

theorem Block.Alike.symm {a b : Block} (h : a.Alike b) : b.Alike a :=
  ⟨h.id.symm, h.content.symm, h.path.symm, h.title.symm, sameLength_symm h.width, sameLength_symm h.height⟩

theorem Block.Alike.trans {a b c : Block} (h : a.Alike b) (h' : b.Alike c) : a.Alike c :=
  ⟨h.id.trans h'.id, h.content.trans h'.content, h.path.trans h'.path, h.title.trans h'.title,
    sameLength_trans h.width h'.width, sameLength_trans h.height h'.height⟩

theorem Block.Alike.unsized_eq {a b : Block} (h : a.Alike b) : a.unsized = b.unsized := by
  unfold Block.unsized
  rw [h.id, h.content, h.path, h.title]

theorem sameBlocks_iff : ∀ {as bs : List Block}, sameBlocks as bs = true ↔ List.Forall₂ Block.Alike as bs
  | [], [] => by simp [sameBlocks]
  | [], b :: bs => by simp only [sameBlocks, Bool.false_eq_true, false_iff]; rintro ⟨⟩
  | a :: as, [] => by simp only [sameBlocks, Bool.false_eq_true, false_iff]; rintro ⟨⟩
  | a :: as, b :: bs => by rw [sameBlocks, Bool.and_eq_true, sameBlocks_iff, Block.same_iff, List.forall₂_cons]

theorem map_unsized_eq {as bs : List Block} (h : List.Forall₂ Block.Alike as bs) :
    as.map Block.unsized = bs.map Block.unsized := by
  induction h with
  | nil => rfl
  | cons hab _ ih => rw [List.map_cons, List.map_cons, hab.unsized_eq, ih]

theorem Snapshot.of?_congr (settings : Settings) {as bs : List Block} (h : List.Forall₂ Block.Alike as bs) :
    Snapshot.of? settings as = Snapshot.of? settings bs := by
  rw [← Snapshot.of?_unsized as settings, map_unsized_eq h, Snapshot.of?_unsized]

namespace SnapshotKey

theorem same_iff {a b : SnapshotKey} :
    a.same b = true ↔ List.Forall₂ Block.Alike a.blocks b.blocks ∧ a.trigger.same b.trigger = true := by
  rw [same, Bool.and_eq_true, sameBlocks_iff]

theorem same_symm {a b : SnapshotKey} (ha : a.trigger.Proper) (h : a.same b = true) : b.same a = true := by
  obtain ⟨hblocks, htrigger⟩ := same_iff.1 h
  exact same_iff.2 ⟨forall₂_symm (fun _ _ => Block.Alike.symm) hblocks, ha.same_symm htrigger⟩

theorem same_trans {a b c : SnapshotKey} (h : a.same b = true) (h' : b.same c = true) : a.same c = true := by
  obtain ⟨hblocks, htrigger⟩ := same_iff.1 h
  obtain ⟨hblocks', htrigger'⟩ := same_iff.1 h'
  exact same_iff.2
    ⟨forall₂_trans (fun _ _ _ _ => Block.Alike.trans) hblocks hblocks', Data.same_trans htrigger htrigger'⟩

end SnapshotKey

/-! ## Requests -/

namespace Session

def scratch (settings : Settings) (validate : Validator) (given : List Given) : Except Failure Snapshot :=
  match readAll validate given with
  | .error e => .error e
  | .ok blocks => (Snapshot.of? settings blocks).mapError .settings

/-- The trigger of a request has no two keys that are the same. -/
def Request.Proper : Request → Prop
  | .analyze _ trigger => trigger.Proper
  | .invalidate => True

def Request.Fails (settings : Settings) (validate : Validator) : Request → Prop
  | .analyze given _ => ∃ e, scratch settings validate given = .error e
  | .invalidate => False

/-- What one request can do. -/
inductive Steps (s : Session) : Request → Answer → Session → Prop
  | forgotten : Steps s .invalidate .forgotten s.invalidate
  | faulty {given : List Given} {trigger : Data} {e : Failure} : readAll s.validate given = .error e →
      Steps s (.analyze given trigger) (.analyzed (.error e)) s
  | kept {given : List Given} {trigger : Data} {blocks : List Block} {k : SnapshotKey} {snapshot : Snapshot} :
      readAll s.validate given = .ok blocks → s.kept = some (k, snapshot) →
        SnapshotKey.same ⟨blocks, trigger⟩ k = true →
      Steps s (.analyze given trigger) (.analyzed (.ok (snapshot, true))) s
  | refused {given : List Given} {trigger : Data} {blocks : List Block} {e : SettingsError} :
      readAll s.validate given = .ok blocks → s.reuse? ⟨blocks, trigger⟩ = none →
        Snapshot.of? s.settings blocks = .error e →
      Steps s (.analyze given trigger) (.analyzed (.error (.settings e))) s
  | fresh {given : List Given} {trigger : Data} {blocks : List Block} {snapshot : Snapshot} :
      readAll s.validate given = .ok blocks → s.reuse? ⟨blocks, trigger⟩ = none →
        Snapshot.of? s.settings blocks = .ok snapshot →
      Steps s (.analyze given trigger) (.analyzed (.ok (snapshot, false)))
        { s with kept := some (⟨blocks, trigger⟩, snapshot) }

theorem reuse?_eq_some_iff {s : Session} {key : SnapshotKey} {snapshot : Snapshot} :
    s.reuse? key = some snapshot ↔ ∃ k, s.kept = some (k, snapshot) ∧ key.same k = true := by
  unfold reuse?
  rw [Option.map_eq_some_iff]
  simp only [Option.filter_eq_some_iff]
  constructor
  · rintro ⟨⟨k, _⟩, ⟨hkept, hsame⟩, rfl⟩
    exact ⟨k, hkept, hsame⟩
  · rintro ⟨k, hkept, hsame⟩
    exact ⟨(k, snapshot), ⟨hkept, hsame⟩, rfl⟩

theorem steps_step (s : Session) (r : Request) : Steps s r (s.step r).1 (s.step r).2 := by
  cases r with
  | invalidate => exact .forgotten
  | analyze given trigger =>
      cases hread : readAll s.validate given with
      | error e =>
          simp only [step, hread]
          exact .faulty hread
      | ok blocks =>
          cases hreuse : s.reuse? ⟨blocks, trigger⟩ with
          | some snapshot =>
              obtain ⟨k, hkept, hsame⟩ := reuse?_eq_some_iff.1 hreuse
              simp only [step, hread, analyze, hreuse]
              exact .kept hread hkept hsame
          | none =>
              cases hmade : Snapshot.of? s.settings blocks with
              | error e =>
                  simp only [step, hread, analyze, hreuse, hmade]
                  exact .refused hread hreuse hmade
              | ok snapshot =>
                  simp only [step, hread, analyze, hreuse, hmade]
                  exact .fresh hread hreuse hmade

/-! ## The latest analysis -/

/-- The key of the latest analysis that was made among requests, if nothing was forgotten since. -/
def IsLatest (settings : Settings) (validate : Validator) (requests : List Request) (key : SnapshotKey) : Prop :=
  ∃ front given back, requests = front ++ .analyze given key.trigger :: back ∧ readAll validate given = .ok key.blocks ∧
    (∃ snapshot, Snapshot.of? settings key.blocks = .ok snapshot) ∧ ∀ r ∈ back, r.Fails settings validate

theorem isLatest_nil {settings : Settings} {validate : Validator} {key : SnapshotKey} :
    ¬ IsLatest settings validate [] key := by
  rintro ⟨front, given, back, heq, -⟩
  simp at heq

theorem isLatest_concat {settings : Settings} {validate : Validator} {before : List Request} {r : Request}
    {key : SnapshotKey} :
    IsLatest settings validate (before ++ [r]) key ↔
      (∃ given, r = .analyze given key.trigger ∧ readAll validate given = .ok key.blocks ∧
        ∃ snapshot, Snapshot.of? settings key.blocks = .ok snapshot) ∨
      (r.Fails settings validate ∧ IsLatest settings validate before key) := by
  constructor
  · rintro ⟨front, given, back, heq, hread, hmade, hback⟩
    rcases List.eq_nil_or_concat back with rfl | ⟨back, r', rfl⟩
    · obtain ⟨-, hr⟩ := List.append_inj' heq rfl
      exact Or.inl ⟨given, List.head_eq_of_cons_eq hr, hread, hmade⟩
    · rw [List.concat_eq_append] at heq hback
      rw [← List.cons_append, ← List.append_assoc] at heq
      obtain ⟨rfl, hr⟩ := List.append_inj' heq rfl
      obtain rfl := List.head_eq_of_cons_eq hr
      exact Or.inr ⟨hback r (by simp), front, given, back, rfl, hread, hmade, fun r' hr' => hback r' (by simp [hr'])⟩
  · rintro (⟨given, rfl, hread, hmade⟩ | ⟨hfails, front, given, back, rfl, hread, hmade, hback⟩)
    · exact ⟨before, given, [], rfl, hread, hmade, by simp⟩
    · refine ⟨front, given, back ++ [r], by simp, hread, hmade, fun r' hr' => ?_⟩
      rcases List.mem_append.1 hr' with hr' | hr'
      · exact hback r' hr'
      · exact List.mem_singleton.1 hr' ▸ hfails

/-- What a session keeps agrees with the requests before: it was made of a key that no other key can tell from the
latest. -/
structure Remembers (settings : Settings) (validate : Validator) (before : List Request) (s : Session) : Prop where
  settings_eq : s.settings = settings
  validate_eq : s.validate = validate
  made : ∀ k snapshot, s.kept = some (k, snapshot) → Snapshot.of? settings k.blocks = .ok snapshot
  latest : ∀ k snapshot, s.kept = some (k, snapshot) → ∃ key, IsLatest settings validate before key
  kept : ∀ key, IsLatest settings validate before key →
    ∃ k snapshot, s.kept = some (k, snapshot) ∧ ∀ other : SnapshotKey, other.same k = other.same key

section Run
variable {settings : Settings} {validate : Validator} {before : List Request}

theorem scratch_of_readAll {given : List Given} {blocks : List Block} (h : readAll validate given = .ok blocks) :
    scratch settings validate given = (Snapshot.of? settings blocks).mapError .settings := by
  simp only [scratch, h]

/-- After an analysis that was made, its key is the latest one. -/
theorem isLatest_concat_of_made {given : List Given} {blocks : List Block} {trigger : Data} {snapshot : Snapshot}
    (hread : readAll validate given = .ok blocks) (hmade : Snapshot.of? settings blocks = .ok snapshot)
    {key : SnapshotKey} :
    IsLatest settings validate (before ++ [.analyze given trigger]) key ↔ key = ⟨blocks, trigger⟩ := by
  rw [isLatest_concat]
  constructor
  · rintro (⟨given', heq, hread', -⟩ | ⟨⟨e, he⟩, -⟩)
    · obtain ⟨rfl, rfl⟩ := Request.analyze.inj heq
      rw [hread] at hread'
      cases key
      cases hread'
      rfl
    · rw [scratch_of_readAll hread, hmade] at he
      cases he
  · rintro rfl
    exact Or.inl ⟨given, rfl, hread, snapshot, hmade⟩

/-- A request that fails changes nothing. -/
theorem Remembers.of_fails {s : Session} (h : Remembers settings validate before s) {r : Request}
    (hfails : r.Fails settings validate) : Remembers settings validate (before ++ [r]) s := by
  refine ⟨h.settings_eq, h.validate_eq, h.made, fun k snapshot hkept => ?_, fun key hlatest => ?_⟩
  · obtain ⟨key, hkey⟩ := h.latest k snapshot hkept
    exact ⟨key, isLatest_concat.2 (Or.inr ⟨hfails, hkey⟩)⟩
  · rcases isLatest_concat.1 hlatest with ⟨given, rfl, hread, snapshot, hmade⟩ | ⟨-, hlatest⟩
    · obtain ⟨e, he⟩ := hfails
      rw [scratch_of_readAll hread, hmade] at he
      cases he
    · exact h.kept key hlatest

/-- The kept snapshot is that of all blocks that are like those that it was made of. -/
theorem Remembers.made_of_same {s : Session} (h : Remembers settings validate before s) {key k : SnapshotKey}
    {snapshot : Snapshot} (hkept : s.kept = some (k, snapshot)) (hsame : key.same k = true) :
    Snapshot.of? settings key.blocks = .ok snapshot :=
  (Snapshot.of?_congr settings (SnapshotKey.same_iff.1 hsame).1).trans (h.made k snapshot hkept)

theorem remembers_step {s : Session} (h : Remembers settings validate before s) {r : Request} (hr : r.Proper) :
    Remembers settings validate (before ++ [r]) (s.step r).2 := by
  generalize hanswer : (s.step r).1 = answer
  generalize hnext : (s.step r).2 = next
  have hstep : Steps s r answer next := hanswer ▸ hnext ▸ steps_step s r
  clear hanswer hnext
  obtain rfl := h.settings_eq
  obtain rfl := h.validate_eq
  cases hstep with
  | forgotten =>
      refine ⟨rfl, rfl, fun k snapshot hkept => ?_, fun k snapshot hkept => ?_, fun key hlatest => ?_⟩
      · cases hkept
      · cases hkept
      · rcases isLatest_concat.1 hlatest with ⟨given, heq, -⟩ | ⟨hfails, -⟩
        · cases heq
        · exact hfails.elim
  | @faulty given trigger e hread => exact h.of_fails ⟨e, by simp only [scratch, hread]⟩
  | @refused given trigger blocks e hread _ hmade =>
      exact h.of_fails ⟨.settings e, by rw [scratch_of_readAll hread, hmade]; rfl⟩
  | @kept given trigger blocks k snapshot hread hkept hsame =>
      have hlatest : ∀ key, IsLatest s.settings s.validate (before ++ [.analyze given trigger]) key ↔
          key = ⟨blocks, trigger⟩ := fun _ => isLatest_concat_of_made hread (h.made_of_same hkept hsame)
      refine ⟨rfl, rfl, h.made, fun _ _ _ => ⟨_, (hlatest _).2 rfl⟩,
        fun key hkey => ⟨k, snapshot, hkept, fun other => ?_⟩⟩
      -- The kept key and the latest one stand for each other.
      obtain rfl := (hlatest key).1 hkey
      rw [Bool.eq_iff_iff]
      exact ⟨fun hk => SnapshotKey.same_trans hk (SnapshotKey.same_symm hr hsame),
        fun hkey => SnapshotKey.same_trans hkey hsame⟩
  | @fresh given trigger blocks snapshot hread _ hmade =>
      have hlatest : ∀ key, IsLatest s.settings s.validate (before ++ [.analyze given trigger]) key ↔
          key = ⟨blocks, trigger⟩ := fun _ => isLatest_concat_of_made hread hmade
      refine ⟨rfl, rfl, fun k made hkept => ?_, fun _ _ _ => ⟨_, (hlatest _).2 rfl⟩, fun key hkey => ?_⟩
      · cases hkept
        exact hmade
      · obtain rfl := (hlatest key).1 hkey
        exact ⟨_, snapshot, rfl, fun _ => rfl⟩

theorem remembers_after {requests : List Request} (h : ∀ r ∈ requests, r.Proper) :
    Remembers settings validate requests (after { settings, validate } requests) := by
  induction requests using List.reverseRecOn with
  | nil =>
      refine ⟨rfl, rfl, fun k snapshot hkept => ?_, fun k snapshot hkept => ?_, fun key hlatest => ?_⟩
      · cases hkept
      · cases hkept
      · exact absurd hlatest isLatest_nil
  | append_singleton requests r ih =>
      unfold after
      rw [List.foldl_append]
      exact remembers_step (ih fun r' hr' => h r' (by simp [hr'])) (h r (by simp))

theorem answers_append : ∀ (s : Session) (front back : List Request),
    s.answers (front ++ back) = s.answers front ++ (s.after front).answers back
  | _, [], _ => rfl
  | s, r :: front, back => by
    rw [List.cons_append, answers, answers, answers_append, List.cons_append]
    rfl

theorem length_answers : ∀ (s : Session) (requests : List Request), (s.answers requests).length = requests.length
  | _, [] => rfl
  | s, r :: rs => by rw [answers, List.length_cons, List.length_cons, length_answers]

/-- What the answer to a request for an analysis says. -/
structure Faithful (settings : Settings) (validate : Validator) (before : List Request)
    (given : List Given) (trigger : Data) (result : Except Failure (Snapshot × Bool)) : Prop where
  /-- It is what an analysis from scratch gives, failures included. -/
  scratch_eq : result.map (·.1) = scratch settings validate given
  /-- It is kept if the blocks and the trigger are like those of the latest analysis. -/
  kept_iff : (∃ snapshot, result = .ok (snapshot, true)) ↔ ∃ key blocks, IsLatest settings validate before key ∧
    readAll validate given = .ok blocks ∧ List.Forall₂ Block.Alike blocks key.blocks ∧ trigger.same key.trigger = true
  stored : ∀ snapshot, result = .ok (snapshot, true) →
    ∃ k, (after { settings, validate } before).kept = some (k, snapshot)

/-- An answer for which nothing was kept. -/
theorem Faithful.of_unkept {given : List Given} {trigger : Data} {result : Except Failure (Snapshot × Bool)}
    (hscratch : result.map (·.1) = scratch settings validate given)
    (hresult : ∀ snapshot, result ≠ .ok (snapshot, true))
    (hunlike : ∀ key blocks, IsLatest settings validate before key → readAll validate given = .ok blocks →
      ¬ (List.Forall₂ Block.Alike blocks key.blocks ∧ trigger.same key.trigger = true)) :
    Faithful settings validate before given trigger result := by
  refine ⟨hscratch, ⟨?_, ?_⟩, fun snapshot heq => absurd heq (hresult snapshot)⟩
  · rintro ⟨snapshot, heq⟩
    exact absurd heq (hresult snapshot)
  · rintro ⟨key, blocks, hlatest, hread, halike⟩
    exact absurd halike (hunlike key blocks hlatest hread)

/-- A latest analysis with a key like this one would be used again. -/
theorem Remembers.not_alike {s : Session} (h : Remembers settings validate before s) {blocks : List Block}
    {trigger : Data} (hnone : s.reuse? ⟨blocks, trigger⟩ = none) {key : SnapshotKey}
    (hlatest : IsLatest settings validate before key) :
    ¬ (List.Forall₂ Block.Alike blocks key.blocks ∧ trigger.same key.trigger = true) := by
  intro halike
  obtain ⟨k, snapshot, hkept, hsame⟩ := h.kept key hlatest
  rw [reuse?_eq_some_iff.2 ⟨k, hkept, (hsame ⟨blocks, trigger⟩).trans (SnapshotKey.same_iff.2 halike)⟩] at hnone
  cases hnone

theorem Remembers.faithful (h : Remembers settings validate before (after { settings, validate } before))
    (given : List Given) (trigger : Data) :
    ∃ result, ((after { settings, validate } before).step (.analyze given trigger)).1 = .analyzed result ∧
      Faithful settings validate before given trigger result := by
  generalize hanswer : ((after { settings, validate } before).step (.analyze given trigger)).1 = answer
  generalize hnext : ((after { settings, validate } before).step (.analyze given trigger)).2 = next
  have hstep : Steps (after { settings, validate } before) (.analyze given trigger) answer next :=
    hanswer ▸ hnext ▸ steps_step _ _
  clear hanswer hnext
  -- Where nothing was kept, the blocks are those whose key was not found.
  have hunlike : ∀ {blocks}, readAll validate given = .ok blocks →
      (after { settings, validate } before).reuse? ⟨blocks, trigger⟩ = none →
      ∀ key blocks', IsLatest settings validate before key → readAll validate given = .ok blocks' →
        ¬ (List.Forall₂ Block.Alike blocks' key.blocks ∧ trigger.same key.trigger = true) := by
    intro blocks hread hnone key blocks' hlatest hread'
    obtain rfl := Except.ok.inj (hread.symm.trans hread')
    exact h.not_alike hnone hlatest
  cases hstep with
  | faulty hread =>
      rw [h.validate_eq] at hread
      refine ⟨_, rfl, .of_unkept (by simp only [scratch, hread, Except.map]) (by simp) fun key blocks _ hread' => ?_⟩
      rw [hread] at hread'
      cases hread'
  | @kept _ _ blocks k snapshot hread hkept hsame =>
      rw [h.validate_eq] at hread
      have hmade : Snapshot.of? settings blocks = .ok snapshot := h.made_of_same hkept hsame
      refine ⟨_, rfl, by rw [scratch_of_readAll hread, hmade]; rfl, ⟨fun _ => ?_, fun _ => ⟨snapshot, rfl⟩⟩, ?_⟩
      · obtain ⟨key, hlatest⟩ := h.latest k snapshot hkept
        obtain ⟨k', snapshot', hkept', hother⟩ := h.kept key hlatest
        obtain ⟨rfl, -⟩ := Prod.mk.inj (Option.some.inj (hkept.symm.trans hkept'))
        rw [hother] at hsame
        exact ⟨key, blocks, hlatest, hread, SnapshotKey.same_iff.1 hsame⟩
      · intro snapshot' heq
        cases heq
        exact ⟨k, hkept⟩
  | refused hread hnone hmade =>
      rw [h.validate_eq] at hread
      rw [h.settings_eq] at hmade
      exact ⟨_, rfl, .of_unkept (by rw [scratch_of_readAll hread, hmade]; rfl) (by simp) (hunlike hread hnone)⟩
  | fresh hread hnone hmade =>
      rw [h.validate_eq] at hread
      rw [h.settings_eq] at hmade
      exact ⟨_, rfl, .of_unkept (by rw [scratch_of_readAll hread, hmade]; rfl) (by simp) (hunlike hread hnone)⟩

end Run

/-- In any run of requests, and whatever makes blocks of data, an analysis is answered with what an analysis from scratch
gives. The answer is the kept snapshot if and only if its blocks and trigger are like those of the latest analysis that
was made, and nothing was forgotten since. A request for blocks with faults leaves the answers to all later ones as they
are. -/
theorem session_answers (settings : Settings) (validate : Validator) (before later : List Request)
    (given : List Given) (trigger : Data) (hproper : ∀ r ∈ before, r.Proper) :
    (∃ result, (answers { settings, validate } (before ++ .analyze given trigger :: later))[before.length]? =
        some (.analyzed result) ∧ Faithful settings validate before given trigger result) ∧
      ∀ e, readAll validate given = .error e →
        answers { settings, validate } (before ++ .analyze given trigger :: later) =
          answers { settings, validate } before ++
          .analyzed (.error e) :: (answers { settings, validate } (before ++ later)).drop before.length := by
  have hlength := length_answers { settings, validate } before
  refine ⟨?_, fun e he => ?_⟩
  · obtain ⟨result, hresult, hfaithful⟩ := (remembers_after hproper).faithful given trigger
    refine ⟨result, ?_, hfaithful⟩
    rw [answers_append, List.getElem?_append_right (Nat.le_of_eq hlength), hlength, Nat.sub_self, answers, hresult]
    rfl
  · have hstep : (after { settings, validate } before).step (.analyze given trigger) =
        (.analyzed (.error e), after { settings, validate } before) := by
      simp only [step, (remembers_after hproper).validate_eq, he]
    rw [answers_append, answers_append, List.drop_left' hlength, answers, hstep]

/-- A block whose width is no number, but one object. -/
def room : Block :=
  { id := "room", content := "label room:\n", width := some { value := 0.0 / 0.0, object := some 0 } }

/-- A block that is described by data. -/
def cellar : Block := { id := "cellar", content := "label cellar:\n" }

def house : List Given := [.block room, .data cellar.toData]

/-- The trigger is a number at first, then a truth value that equals it; the width of the room is the same object. -/
theorem session_answers_room : (∀ r ∈ [Request.analyze house (.int 0)], r.Proper) ∧ ∃ snapshot,
    (answers { settings := {}, validate := Block.ofData } [.analyze house (.int 0), .analyze house (.bool false)])[1]? =
      some (.analyzed (.ok (snapshot, true))) := by
  have hproper : ∀ r ∈ [Request.analyze house (.int 0)], r.Proper := by
    intro r hr
    obtain rfl := List.mem_singleton.1 hr
    exact .intro (fun x hx => absurd hx List.not_mem_nil) List.Pairwise.nil
  have hread : readAll Block.ofData house = .ok [room, cellar] := rfl
  have hmade : Snapshot.of? {} [room, cellar] = .ok (.of {} [room, cellar]) := if_neg (by decide)
  have hlatest : IsLatest {} Block.ofData [.analyze house (.int 0)] ⟨[room, cellar], .int 0⟩ :=
    ⟨[], house, [], rfl, hread, ⟨_, hmade⟩, fun r hr => absurd hr List.not_mem_nil⟩
  have hroom : room.Alike room := Block.alike_self_iff.2 ⟨sameLength_self_iff.2 (by simp [room]), rfl⟩
  have hcellar : cellar.Alike cellar := Block.alike_self_iff.2 ⟨rfl, rfl⟩
  have hsame : (Data.bool false).same (.int 0) = true := Data.Matches.same (.number rfl rfl (by decide))
  obtain ⟨⟨result, hresult, hfaithful⟩, -⟩ := session_answers {} Block.ofData _ [] house (.bool false) hproper
  obtain ⟨snapshot, rfl⟩ := hfaithful.kept_iff.2
    ⟨_, [room, cellar], hlatest, hread, .cons hroom (.cons hcellar .nil), hsame⟩
  exact ⟨hproper, snapshot, hresult⟩

end Session
end Plotline
