import Mathlib.Data.Finset.Basic
import Mathlib.Data.List.Permutation
import Plotline.Proofs.Route.Finds

/-!
# Walking with a stack

A walk from an entry without recursion: for each node of its path, a stack holds the steps out of the node that have not
been taken yet, and a turn takes the next step out of the last node or goes back from it.

* `Tour`, `Tour.turn?`: a walk under way and one turn of it; `Turn`: the four things that a turn can do.
* `Tour.Tracks`, `Tracks.turn`: stack, path, keys and the set of nodes on the path fit each other, and go on doing so.
* `Tour.toCome`, `toCome_turn`: a number that every turn makes smaller; it weighs the steps on the stack with the nodes
  that are still off the path.
* `Tour.answer`, `answer_turn`: what exploring would collect from here on, which no turn changes.
* `wellRun_of_entries`: so the tours from the entries end, and collect what the routes of a graph are made of.
-/

namespace Plotline

/-- A walk under way. Path and keys begin at their end. -/
structure Tour (net : Net) where
  /-- For each node of the path, the steps out of it that have not been taken. -/
  stack : List (List { s : Step // s.target ∈ net.nodes })
  path : List String
  keys : List String
  /-- The nodes that must not be entered again. -/
  onPath : Finset String
  harvest : Harvest

namespace Tour
variable {net : Net}

def start (h : Harvest) (entry : String) : Tour net := ⟨[net.stepsOf entry], [entry], [], {entry}, h⟩

def enter (t : Tour net) (s : Step) : Tour net :=
  { t with path := s.target :: t.path, keys := s.key :: t.keys, onPath := insert s.target t.onPath }

/-- Takes the last node off the path, and the link to it, if there is one. -/
def leave (t : Tour net) : Tour net :=
  { t with path := t.path.tail, keys := t.keys.tail, onPath := t.path.head?.elim t.onPath t.onPath.erase }

/-- There are steps to take or nodes to leave, and room for another route. -/
def GoesOn (t : Tour net) : Prop := t.stack ≠ [] ∧ t.harvest.terminal.full = false

/-- One turn, if the tour goes on: a node without further steps is left; a step to a node on the path closes a cycle; a
node that has no steps ends a route and is left at once; any other node is entered. -/
def turn? (t : Tour net) : Option (Tour net) :=
  if t.harvest.terminal.full then none
  else
    match t.stack with
    | [] => none
    | [] :: stack => some { t.leave with stack }
    | (s :: rest) :: stack =>
      if s.1.target ∈ t.onPath then
        some { t with
          stack := rest :: stack
          harvest := t.harvest.addLoop (s.1.target :: t.path) (s.1.key :: t.keys) }
      else
        let inside := { t.enter s.1 with stack := rest :: stack }
        if (net.stepsOf s.1.target).isEmpty then
          some { inside.leave with harvest := t.harvest.addTerminal inside.path inside.keys }
        else some { inside with stack := net.stepsOf s.1.target :: rest :: stack }

/-- The tour after a number of turns, or as many as it has. -/
def after (t : Tour net) : Nat → Tour net
  | 0 => t
  | n + 1 => (t.after n).turn?.getD (t.after n)

theorem turn?_eq_none_iff {t : Tour net} : t.turn? = none ↔ ¬ t.GoesOn := by
  unfold turn? GoesOn
  cases hfull : t.harvest.terminal.full with
  | true => simp
  | false =>
      rcases hstack : t.stack with _ | ⟨_ | ⟨s, rest⟩, stack⟩
      · simp
      · simp
      · simp only [Bool.false_eq_true, if_false, ne_eq, reduceCtorEq, not_false_eq_true, and_true, not_true, iff_false]
        split
        · simp
        · split <;> simp

/-! ## What a turn does -/

/-- What one turn can make of a tour. -/
inductive Turn (t : Tour net) : Tour net → Prop
  | back {stack} (hstack : t.stack = [] :: stack) : Turn t { t.leave with stack }
  | loop {s rest stack} (hstack : t.stack = (s :: rest) :: stack) (hon : s.1.target ∈ t.onPath) :
      Turn t { t with
        stack := rest :: stack
        harvest := t.harvest.addLoop (s.1.target :: t.path) (s.1.key :: t.keys) }
  | terminal {s rest stack} (hstack : t.stack = (s :: rest) :: stack) (hoff : s.1.target ∉ t.onPath)
      (hend : (net.stepsOf s.1.target).isEmpty = true) :
      Turn t { t with
        stack := rest :: stack
        harvest := t.harvest.addTerminal (s.1.target :: t.path) (s.1.key :: t.keys) }
  | descend {s rest stack} (hstack : t.stack = (s :: rest) :: stack) (hoff : s.1.target ∉ t.onPath)
      (hend : ¬ (net.stepsOf s.1.target).isEmpty = true) :
      Turn t { t.enter s.1 with stack := net.stepsOf s.1.target :: rest :: stack }

theorem turn_of_turn? {t u : Tour net} (h : t.turn? = some u) : t.harvest.terminal.full = false ∧ Turn t u := by
  unfold turn? at h
  split at h
  · cases h
  rename_i hfull
  refine ⟨by simpa using hfull, ?_⟩
  split at h
  · cases h
  · rename_i stack hstack
    obtain rfl := Option.some.inj h
    exact .back hstack
  · rename_i s rest stack hstack
    split at h
    · rename_i hon
      obtain rfl := Option.some.inj h
      exact .loop hstack hon
    · rename_i hoff
      dsimp only at h
      split at h
      · rename_i hend
        obtain rfl := Option.some.inj h
        -- What has been put on the path is taken off it again.
        have hback : (insert s.1.target t.onPath).erase s.1.target = t.onPath := Finset.erase_insert hoff
        have hturn := Turn.terminal hstack hoff hend
        simpa only [leave, enter, List.tail_cons, List.head?_cons, Option.elim_some, hback] using hturn
      · rename_i hend
        obtain rfl := Option.some.inj h
        exact .descend hstack hoff hend

end Tour

/-! ## Paths and their keys -/

/-- A path, from its end, with the keys of the steps along it. -/
inductive Net.Along (net : Net) : (path keys : List String) → Prop
  | nil : Along net [] []
  | entry (n : String) : Along net [n] []
  | step {n : String} {path keys : List String} {s} (hs : s ∈ net.stepsOf n) (hpath : Along net (n :: path) keys) :
      Along net (s.1.target :: n :: path) (s.1.key :: keys)

namespace Net.Along
variable {net : Net} {path keys : List String}

theorem tail (h : net.Along path keys) : net.Along path.tail keys.tail := by
  cases h with
  | nil => exact .nil
  | entry n => exact .nil
  | step _ hpath => exact hpath

theorem length_keys (h : net.Along path keys) : keys.length = path.length - 1 := by
  induction h with
  | nil => rfl
  | entry n => rfl
  | step _ _ ih => simpa using ih

/-- From the beginning of the path, each key is that of a step between the nodes around it. -/
theorem getElem?_keys (h : net.Along path keys) {i : Nat} {key : String} (hkey : keys.reverse[i]? = some key) :
    ∃ n, ∃ s ∈ net.stepsOf n, path.reverse[i]? = some n ∧ path.reverse[i + 1]? = some s.1.target ∧ s.1.key = key := by
  induction h generalizing i with
  | nil => simp at hkey
  | entry n => simp at hkey
  | @step n path keys s hs hpath ih =>
      have hlength : keys.length = path.length := by simpa using hpath.length_keys
      rw [List.reverse_cons, List.getElem?_append] at hkey
      split at hkey
      · rename_i hi
        obtain ⟨m, u, hu, hm, htarget, rfl⟩ := ih hkey
        have hi' : i + 1 < (n :: path).reverse.length := by
          rw [List.length_reverse] at hi ⊢
          rw [List.length_cons]
          omega
        refine ⟨m, u, hu, ?_, ?_, rfl⟩
        · rw [List.reverse_cons, List.getElem?_append_left (by omega)]
          exact hm
        · rw [List.reverse_cons, List.getElem?_append_left hi']
          exact htarget
      · rename_i hi
        rw [List.getElem?_singleton] at hkey
        split at hkey
        · rename_i hlast
          obtain rfl := Option.some.inj hkey
          have hi' : i = path.length := by
            rw [List.length_reverse] at hi hlast
            omega
          subst hi'
          refine ⟨n, s, hs, ?_, ?_, rfl⟩
          · simp
          · simp
        · cases hkey

end Net.Along

namespace Tour
variable {net : Net} {t u : Tour net} {entry : String}

/-- Stack, path, keys and the set of nodes on the path fit each other. -/
structure Tracks (entry : String) (t : Tour net) : Prop where
  frames : List.Forall₂ (fun steps n => steps <:+ net.stepsOf n) t.stack t.path
  on_path : t.onPath = t.path.toFinset
  nodup : t.path.Nodup
  along : net.Along t.path t.keys
  begins : ∀ n, t.path.getLast? = some n → n = entry

theorem tracks_start (h : Harvest) (entry : String) : (start h entry : Tour net).Tracks entry where
  frames := .cons (List.suffix_refl _) .nil
  on_path := rfl
  nodup := List.nodup_singleton entry
  along := .entry entry
  begins := fun _ hn => (Option.some.inj hn).symm

theorem Tracks.take (h : t.Tracks entry) {s rest stack} (hstack : t.stack = (s :: rest) :: stack) (g : Harvest) :
    Tracks entry { t with stack := rest :: stack, harvest := g } := by
  refine ⟨?_, h.on_path, h.nodup, h.along, h.begins⟩
  have hframes := h.frames
  rw [hstack] at hframes
  obtain ⟨n, path, hn, hrest, hpath⟩ := List.forall₂_cons_left_iff.1 hframes
  rw [hpath]
  exact .cons ((List.suffix_cons s rest).trans hn) hrest

theorem Tracks.turn (h : t.Tracks entry) (hturn : Turn t u) : u.Tracks entry := by
  cases hturn with
  | @back stack hstack =>
      have hframes := h.frames
      rw [hstack] at hframes
      obtain ⟨n, path, -, hrest, hpath⟩ := List.forall₂_cons_left_iff.1 hframes
      have hnodup := h.nodup
      rw [hpath, List.nodup_cons] at hnodup
      refine ⟨?_, ?_, ?_, h.along.tail, fun m hm => h.begins m ?_⟩
      · simpa only [leave, hpath, List.tail_cons] using hrest
      · simp only [leave, hpath, h.on_path, List.head?_cons, Option.elim_some, List.tail_cons, List.toFinset_cons]
        exact Finset.erase_insert (by simpa using hnodup.1)
      · simpa only [leave, hpath, List.tail_cons] using hnodup.2
      · simp only [leave, hpath, List.tail_cons] at hm
        rw [hpath, List.getLast?_cons, hm]
        rfl
  | loop hstack _ => exact h.take hstack _
  | terminal hstack _ _ => exact h.take hstack _
  | @descend s rest stack hstack hoff _ =>
      have hframes := h.frames
      rw [hstack] at hframes
      obtain ⟨n, path, hn, hrest, hpath⟩ := List.forall₂_cons_left_iff.1 hframes
      have hs : s ∈ net.stepsOf n := hn.mem List.mem_cons_self
      refine ⟨?_, ?_, ?_, ?_, fun m hm => h.begins m ?_⟩
      · simp only [enter, hpath]
        exact .cons (List.suffix_refl _) (.cons ((List.suffix_cons s rest).trans hn) hrest)
      · simp only [enter, h.on_path, List.toFinset_cons]
      · rw [h.on_path, List.mem_toFinset] at hoff
        exact List.nodup_cons.2 ⟨hoff, h.nodup⟩
      · have halong := h.along
        simp only [enter]
        rw [hpath] at halong ⊢
        exact .step hs halong
      · simp only [enter, hpath, List.getLast?_cons_cons] at hm
        rwa [hpath]

theorem Tracks.after (h : t.Tracks entry) (n : Nat) : (t.after n).Tracks entry := by
  induction n with
  | zero => exact h
  | succ n ih =>
      rw [Tour.after]
      cases hturn : (t.after n).turn? with
      | none => exact ih
      | some u => exact ih.turn (turn_of_turn? hturn).2

end Tour

/-! ## A tour ends -/

theorem Number.le_total {n : Nat} : ∀ {ns : List Nat}, n ∈ ns → n ≤ total ns
  | m :: ns, h => by
    show n ≤ m + total ns
    rcases List.mem_cons.1 h with rfl | h
    · exact Nat.le_add_right _ _
    · exact (le_total h).trans (Nat.le_add_left _ _)

namespace Net
variable (net : Net)

def stepCount : Nat := Number.total (net.nodes.map fun n => (net.stepsOf n).length)

variable {net} in
theorem length_stepsOf_le {n : String} (hn : n ∈ net.nodes) : (net.stepsOf n).length ≤ net.stepCount :=
  Number.le_total (List.mem_map.2 ⟨n, hn, rfl⟩)

/-- More turns than follow a step, before the next one out of the same node, where so many nodes are off the path. -/
def effort : Nat → Nat
  | 0 => 1
  | k + 1 => 2 + net.stepCount * effort k

theorem effort_pos : ∀ k, 0 < net.effort k
  | 0 => Nat.one_pos
  | _ + 1 => Nat.add_pos_left (by decide) _

theorem effort_mono : Monotone net.effort := by
  refine monotone_nat_of_le_succ fun k => ?_
  induction k with
  | zero =>
      show 1 ≤ 2 + _
      omega
  | succ k ih => exact Nat.add_le_add_left (Nat.mul_le_mul_left _ ih) 2

/-- A step to a new node weighs more than going back from there and all steps out of it. -/
theorem effort_lt {j k : Nat} (h : j < k) : 1 + net.stepCount * net.effort j < net.effort k := by
  have hle : net.effort (j + 1) ≤ net.effort k := net.effort_mono h
  have hsucc : net.effort (j + 1) = 2 + net.stepCount * net.effort j := rfl
  omega

/-- More turns than are to come for a stack over a path: one to leave each node, and those for each step not taken. -/
def toCome : List (List { s : Step // s.target ∈ net.nodes }) → List String → Nat
  | [], _ => 0
  | steps :: stack, path => 1 + steps.length * net.effort (net.off path).length + toCome stack path.tail

/-- What exploring collects for a stack over a path: first by the steps out of its last node, then by those before. -/
def resume : List (List { s : Step // s.target ∈ net.nodes }) → (path keys : List String) → Harvest → Harvest
  | [], _, _, h => h
  | steps :: stack, path, keys, h => resume stack path.tail keys.tail (explore net path keys steps h)

end Net

theorem explore_of_full {net : Net} {path keys : List String} {steps : List { s : Step // s.target ∈ net.nodes }}
    {h : Harvest} (hfull : h.terminal.full = true) : explore net path keys steps h = h := by
  rw [explore.eq_def]
  split
  · rfl
  · exact if_pos hfull

theorem Net.resume_of_full (net : Net) {h : Harvest} (hfull : h.terminal.full = true) :
    ∀ stack path keys, net.resume stack path keys h = h
  | [], _, _ => rfl
  | steps :: stack, path, keys => by rw [resume, explore_of_full hfull, resume_of_full net hfull stack]

namespace Tour
variable {net : Net} {t u : Tour net} {entry : String}

/-- More turns than are to come. -/
def toCome (t : Tour net) : Nat := net.toCome t.stack t.path

def answer (t : Tour net) : Harvest := net.resume t.stack t.path t.keys t.harvest

theorem Tracks.contains_iff (h : t.Tracks entry) {n : String} : t.path.contains n = true ↔ n ∈ t.onPath := by
  rw [h.on_path, List.mem_toFinset, List.contains_iff_mem]

/-- Every turn makes what is to come smaller. -/
theorem toCome_turn (h : t.Tracks entry) (hturn : Turn t u) : u.toCome < t.toCome := by
  cases hturn with
  | @back stack hstack =>
      simp only [toCome, hstack, Net.toCome, leave]
      omega
  | @loop s rest stack hstack _ =>
      have hpos := net.effort_pos (net.off t.path).length
      simp only [toCome, hstack, Net.toCome, List.length_cons, Nat.succ_mul]
      omega
  | @terminal s rest stack hstack _ _ =>
      have hpos := net.effort_pos (net.off t.path).length
      simp only [toCome, hstack, Net.toCome, List.length_cons, Nat.succ_mul]
      omega
  | @descend s rest stack hstack hoff _ =>
      have hnew : t.path.contains s.1.target = false := by
        rw [← h.contains_iff] at hoff
        simpa using hoff
      have hlt := net.effort_lt (net.length_off_lt s.2 hnew)
      have hle := Nat.mul_le_mul_right (net.effort (net.off (s.1.target :: t.path)).length) (Net.length_stepsOf_le s.2)
      simp only [toCome, hstack, Net.toCome, enter, List.length_cons, Nat.succ_mul, List.tail_cons]
      omega

/-- No turn changes what is collected in the end. -/
theorem answer_turn (h : t.Tracks entry) (hroom : t.harvest.terminal.full = false) (hturn : Turn t u) :
    u.answer = t.answer := by
  cases hturn with
  | @back stack hstack =>
      rw [answer, answer, hstack, Net.resume, explore]
      rfl
  | @loop s rest stack hstack hon =>
      rw [answer, answer, hstack, Net.resume, Net.resume, explore.eq_def net t.path t.keys (s :: rest)]
      simp only [hroom, Bool.false_eq_true, if_false, h.contains_iff.2 hon, dif_pos]
  | @terminal s rest stack hstack hoff hend =>
      rw [answer, answer, hstack, Net.resume, Net.resume, explore.eq_def net t.path t.keys (s :: rest)]
      simp only [hroom, Bool.false_eq_true, if_false, mt h.contains_iff.1 hoff, dif_neg, not_false_eq_true, hend,
        if_true]
  | @descend s rest stack hstack hoff hend =>
      rw [answer, answer, hstack, Net.resume, Net.resume, Net.resume, explore.eq_def net t.path t.keys (s :: rest)]
      simp only [hroom, Bool.false_eq_true, if_false, mt h.contains_iff.1 hoff, dif_neg, not_false_eq_true, hend,
        enter, List.tail_cons]

theorem answer_after (h : t.Tracks entry) (n : Nat) : (t.after n).answer = t.answer := by
  induction n with
  | zero => rfl
  | succ n ih =>
      rw [after]
      cases hturn : (t.after n).turn? with
      | none => exact ih
      | some u =>
          obtain ⟨hroom, hdone⟩ := turn_of_turn? hturn
          exact (answer_turn (h.after n) hroom hdone).trans ih

/-- When a tour goes no further, everything is collected. -/
theorem answer_of_not_goesOn (h : ¬ t.GoesOn) : t.answer = t.harvest := by
  unfold GoesOn at h
  cases hfull : t.harvest.terminal.full with
  | true => exact net.resume_of_full hfull _ _ _
  | false =>
      have hstack : t.stack = [] := by simpa [hfull] using h
      rw [answer, hstack]
      rfl

/-- As long as a tour goes on, its next turn makes what is to come smaller. -/
theorem toCome_after_succ (h : t.Tracks entry) {n : Nat} (hgoes : (t.after n).GoesOn) :
    (t.after (n + 1)).toCome < (t.after n).toCome := by
  obtain ⟨u, hu⟩ := Option.ne_none_iff_exists'.1 (mt turn?_eq_none_iff.1 (not_not_intro hgoes))
  rw [after, hu]
  exact toCome_turn (h.after n) (turn_of_turn? hu).2

theorem after_succ_of_not_goesOn {n : Nat} (h : ¬ (t.after n).GoesOn) : t.after (n + 1) = t.after n := by
  rw [after, turn?_eq_none_iff.2 h]
  rfl

theorem not_goesOn_or_toCome_le (h : t.Tracks entry) (n : Nat) :
    ¬ (t.after n).GoesOn ∨ (t.after n).toCome + n ≤ t.toCome := by
  induction n with
  | zero => exact Or.inr le_rfl
  | succ n ih =>
      by_cases hgoes : (t.after n).GoesOn
      · have hle := ih.resolve_left (not_not_intro hgoes)
        have hlt := toCome_after_succ h hgoes
        exact Or.inr (by omega)
      · rw [after_succ_of_not_goesOn hgoes]
        exact Or.inl hgoes

/-- A tour goes no further after as many turns as were to come. -/
theorem not_goesOn_after (h : t.Tracks entry) : ¬ (t.after t.toCome).GoesOn := by
  intro hgoes
  have hle := (not_goesOn_or_toCome_le h t.toCome).resolve_left (not_not_intro hgoes)
  have hlt := toCome_after_succ h hgoes
  omega

/-! ## Tours from entries -/

section Of
variable (ids : List String) (links : List RouteLink)

/-- What is in place whenever a turn begins. -/
structure InPlace (entry : String) (t : Tour (Net.of ids links)) : Prop where
  length_stack : t.stack.length = t.path.length
  length_keys : t.keys.length + 1 = t.path.length
  mem_onPath : ∀ n, n ∈ t.onPath ↔ n ∈ t.path
  simple : t.path.Nodup
  begins : t.path.reverse.head? = some entry
  keys : ∀ (i : Nat) key, t.keys.reverse[i]? = some key → ∃ l ∈ links, l.source ∈ ids ∧ l.target ∈ ids ∧ l.key = key ∧
    t.path.reverse[i]? = some l.source ∧ t.path.reverse[i + 1]? = some l.target

/-- A tour that has everything in place at every turn, makes what is to come smaller by every turn, and so ends with a
harvest; unless it was cut off, it leaves nothing behind. -/
structure WellRun (entry : String) (t : Tour (Net.of ids links)) (h : Harvest) : Prop where
  turns : ∀ n, (t.after n).GoesOn → InPlace ids links entry (t.after n) ∧ (t.after (n + 1)).toCome < (t.after n).toCome
  ends : ∃ n ≤ t.toCome, ¬ (t.after n).GoesOn ∧ (t.after n).harvest = h ∧ (h.terminal.full = false →
    (t.after n).stack = [] ∧ (t.after n).path = [] ∧ (t.after n).keys = [] ∧ (t.after n).onPath = ∅)

variable {ids links}

theorem exists_link_of_step {n : String} {s} (hs : s ∈ (Net.of ids links).stepsOf n) :
    ∃ l ∈ links, l.source ∈ ids ∧ l.target ∈ ids ∧ l.key = s.1.key ∧ l.source = n ∧ l.target = s.1.target := by
  rw [Net.stepsOf_eq] at hs
  split at hs
  · rename_i hn
    obtain ⟨l, hl, hstep⟩ := List.mem_filterMap.1 hs
    split at hstep
    · rename_i h
      obtain rfl := Option.some.inj hstep
      exact ⟨l, hl, h.1 ▸ hn, (Net.mem_members_ofList ids).1 h.2, rfl, h.1, rfl⟩
    · cases hstep
  · cases hs

theorem Tracks.inPlace {t : Tour (Net.of ids links)} (h : t.Tracks entry) (hgoes : t.GoesOn) :
    InPlace ids links entry t := by
  have hstack : t.stack.length = t.path.length := h.frames.length_eq
  have hpos : 0 < t.stack.length := List.length_pos_iff.2 hgoes.1
  refine ⟨hstack, ?_, fun n => by rw [h.on_path, List.mem_toFinset], h.nodup, ?_, fun i key hkey => ?_⟩
  · have hkeys := h.along.length_keys
    omega
  · have hne : t.path ≠ [] := List.length_pos_iff.1 (hstack ▸ hpos)
    have hlast := List.getLast?_eq_some_getLast hne
    rw [List.head?_reverse, hlast, h.begins _ hlast]
  · obtain ⟨n, s, hs, hn, htarget, rfl⟩ := h.along.getElem?_keys hkey
    obtain ⟨l, hl, hsource, hltarget, hlkey, rfl, hls⟩ := exists_link_of_step hs
    exact ⟨l, hl, hsource, hltarget, hlkey, hn, hls ▸ htarget⟩

/-- A tour that goes no further although there is room has left every node. -/
theorem Tracks.empty (h : t.Tracks entry) (hgoes : ¬ t.GoesOn) (hroom : t.harvest.terminal.full = false) :
    t.stack = [] ∧ t.path = [] ∧ t.keys = [] ∧ t.onPath = ∅ := by
  have hstack : t.stack = [] := by simpa [GoesOn, hroom] using hgoes
  have hframes := h.frames
  rw [hstack] at hframes
  have hpath : t.path = [] := List.forall₂_nil_left_iff.1 hframes
  refine ⟨hstack, hpath, ?_, ?_⟩
  · have hkeys := h.along.length_keys
    rw [hpath] at hkeys
    exact List.length_eq_zero_iff.1 hkeys
  · rw [h.on_path, hpath]
    rfl

theorem answer_start {h : Harvest} : (start h entry : Tour net).answer = walk net h entry := by
  unfold walk
  split
  · rename_i hfull
    exact net.resume_of_full hfull _ _ _
  · rfl

/-- The tour from any node, with whatever has been collected before. -/
theorem wellRun_start (h : Harvest) (entry : String) :
    WellRun ids links entry (start h entry) (walk (Net.of ids links) h entry) := by
  have htracks : (start h entry : Tour (Net.of ids links)).Tracks entry := tracks_start h entry
  have hend := not_goesOn_after htracks
  have hharvest := answer_of_not_goesOn hend
  rw [answer_after htracks, answer_start] at hharvest
  refine ⟨fun n hgoes => ⟨(htracks.after n).inPlace hgoes, toCome_after_succ htracks hgoes⟩, ?_⟩
  exact ⟨_, le_rfl, hend, hharvest.symm, fun hroom => (htracks.after _).empty hend (hharvest ▸ hroom)⟩

/-- **Walking with a stack.** One after the other, the tours from the entries have stack, path, keys and the set of
nodes on the path in place at every turn. Each ends after no more turns than were to come and leaves nothing behind
unless the cap cut it off; together they collect what the routes of the graph are made of. -/
theorem wellRun_of_entries (ids : List String) (links : List RouteLink) (cap : Int) :
    ∃ harvest : Nat → Harvest, harvest 0 = Harvest.start cap ∧
      (∀ (k : Nat) entry, (Net.of ids links).entries[k]? = some entry →
        WellRun ids links entry (start (harvest k) entry) (harvest (k + 1))) ∧
      harvest (Net.of ids links).entries.length = harvestOf ids links cap := by
  refine ⟨fun k => ((Net.of ids links).entries.take k).foldl (walk (Net.of ids links)) (Harvest.start cap), rfl, ?_, ?_⟩
  · intro k entry hentry
    have hnext : (Net.of ids links).entries.take (k + 1) = (Net.of ids links).entries.take k ++ [entry] := by
      rw [List.take_add_one, hentry]
      rfl
    dsimp only
    rw [hnext, List.foldl_concat]
    exact wellRun_start _ entry
  · dsimp only
    rw [List.take_length]
    rfl

end Of
end Tour

/-- A street with two lanes at its beginning, a roundabout at `b`, a way back to `b` and an end at `d`. -/
def lanes : List RouteLink :=
  [⟨"a", "b", .jump⟩, ⟨"a", "b", .call⟩, ⟨"b", "b", .jump⟩, ⟨"b", "c", .jump⟩, ⟨"c", "b", .jump⟩, ⟨"c", "d", .implicit⟩]

namespace Tour

theorem wellRun_of_entries_lanes : (Net.of ["a", "b", "c", "d"] lanes).entries[0]? = some "a" ∧
    ∃ h, WellRun ["a", "b", "c", "d"] lanes "a" (start (Harvest.start 10) "a") h := by
  have hentry : (Net.of ["a", "b", "c", "d"] lanes).entries[0]? = some "a" := by cbv
  obtain ⟨harvest, hstart, hruns, -⟩ := wellRun_of_entries ["a", "b", "c", "d"] lanes 10
  exact ⟨hentry, harvest 1, hstart ▸ hruns 0 "a" hentry⟩

end Tour
end Plotline
