import Plotline.Log.State
import Plotline.Proofs.Tables

/-!
# Which file an event goes to

* `LogFiles.linesAt_append`: the lines of every file after one is added.
* `Logging.Wired`: what holds of the handlers between two steps: one console is at the root and then the handler of the
  file, if there is one, and every other stream is closed.
* `Logging.wired_configure`, `Logging.wired_close`, `Logging.wired_add`: what can happen keeps that.
* `Logging.Wired.dispatch_eq`, `Logging.Wired.linesAt_add`: what the handlers at the root do with an entry.
* `Logging.Wired.step`, `Logging.Wired.linesAt_step`: the handlers after a step, and what it adds to the files.
* `Logging.Wired.run`, `Logging.Wired.linesAt_prefix`, `Logging.Wired.linesAt_unnamed`: the same for many steps.
* `Logging.run_routes_events`: over every run, each event goes to the file that was named last.
-/

namespace Plotline.Log
open Files

/-! ## Files -/

namespace LogFiles
variable (w : LogFiles) (place p : Place) (line : Entry)

theorem linesAt_create : (w.create place).linesAt p = w.linesAt p := by
  unfold linesAt create Table.getD
  rw [Table.get?_insertNew]
  split <;> cases w.lines.get? p <;> rfl

theorem linesAt_append : (w.append place line).linesAt p = w.linesAt p ++ if place = p then [line] else [] := by
  unfold linesAt append Table.update Table.getD
  rw [Table.get?_insert]
  by_cases h : place = p
  · rw [if_pos h, if_pos h, h]
    rfl
  · rw [if_neg h, if_neg h, List.append_nil]

end LogFiles

namespace Logging
variable {s : Logging} {console : Nat} {file : Option (Nat × Place)}

/-! ## Closing -/

theorem made_shut (s : Logging) (n m : Nat) :
    (s.shut n).made[m]? = if n = m then (s.made[m]?).map Handler.closed else s.made[m]? := by
  unfold shut
  rw [List.getElem?_modify]
  split <;> cases s.made[m]? <;> rfl

theorem foldl_shut_eq (ns : List Nat) (s : Logging) :
    ns.foldl shut s = { s with made := (ns.foldl shut s).made } := by
  induction ns generalizing s with
  | nil => rfl
  | cons n ns ih => rw [List.foldl_cons, ih]; rfl

theorem closed_closed (h : Handler) : h.closed.closed = h.closed := by cases h <;> rfl

theorem map_closed_ne (handler : Option Handler) (place : Place) :
    handler.map Handler.closed ≠ some (.file place true) := by
  rcases handler with _ | _ | _ <;> simp [Handler.closed]

theorem made_foldl_shut (ns : List Nat) (s : Logging) (m : Nat) :
    (ns.foldl shut s).made[m]? = if m ∈ ns then (s.made[m]?).map Handler.closed else s.made[m]? := by
  induction ns generalizing s with
  | nil => simp
  | cons n ns ih =>
    rw [List.foldl_cons, ih, made_shut]
    by_cases hn : n = m
    · subst hn
      cases s.made[n]? <;> simp [closed_closed]
    · simp [hn, Ne.symm hn]

theorem made_install (s : Logging) (numbers : List Nat) (threshold : Level) (m : Nat) :
    (s.install numbers threshold).made[m]? = if m ∈ s.root then (s.made[m]?).map Handler.closed else s.made[m]? :=
  made_foldl_shut s.root s m

theorem written_install (s : Logging) (numbers : List Nat) (threshold : Level) :
    (s.install numbers threshold).written = s.written := by
  unfold install
  rw [foldl_shut_eq]

theorem made_close (s : Logging) (m : Nat) :
    s.close.made[m]? = if s.held = some m then (s.made[m]?).map Handler.closed else s.made[m]? := by
  unfold close
  cases s.held with
  | none => simp
  | some n => simpa using made_shut s n m

theorem close_eq (s : Logging) : s.close = { s with made := s.close.made, held := none, current := none } := by
  unfold close
  cases s.held <;> rfl

theorem length_made_close (s : Logging) : s.close.made.length = s.made.length := by
  unfold close
  cases s.held with
  | none => rfl
  | some n => exact List.length_modify ..

/-! ## Wiring -/

/-- One console is at the root and then the handler of the file, if there is one. A file takes everything, and no
stream is open but the one of that handler. -/
structure Wired (s : Logging) (console : Nat) (file : Option (Nat × Place)) : Prop where
  root : s.root = console :: (file.map Prod.fst).toList
  hasConsole : ∃ level, s.made[console]? = some (.console level)
  hasFile : ∀ n place, file = some (n, place) → ∃ isOpen, s.made[n]? = some (.file place isOpen)
  threshold : file.isSome → s.threshold = .debug
  closed : ∀ n place, s.made[n]? = some (.file place true) → n ∈ s.root

theorem Wired.attached (h : Wired s console file) :
    ∃ level isOpen, s.attached = .console level :: (file.map fun f => .file f.2 isOpen).toList := by
  obtain ⟨level, hconsole⟩ := h.hasConsole
  cases file with
  | none =>
    refine ⟨level, false, ?_⟩
    rw [Logging.attached, h.root]
    simp [hconsole]
  | some f =>
    obtain ⟨isOpen, hfile⟩ := h.hasFile f.1 f.2 rfl
    refine ⟨level, isOpen, ?_⟩
    rw [Logging.attached, h.root]
    simp [hconsole, hfile]

theorem Wired.lt_length (h : Wired s console file) {n : Nat} (hn : n ∈ s.root) : n < s.made.length := by
  obtain ⟨level, hconsole⟩ := h.hasConsole
  rw [h.root, List.mem_cons, Option.mem_toList, Option.map_eq_some_iff] at hn
  rcases hn with rfl | ⟨⟨m, place⟩, hf, rfl⟩
  · exact (List.getElem?_eq_some_iff.1 hconsole).1
  · obtain ⟨isOpen, hfile⟩ := h.hasFile m place hf
    exact (List.getElem?_eq_some_iff.1 hfile).1

/-- The numbers of a console that was made behind so many handlers, and of a file handler behind it. -/
def numbersFrom (n : Nat) (place : Option Place) : List Nat := n :: (place.map fun _ => n + 1).toList

/-- New handlers are installed. Of the old ones those that are open are at the root, so that they are closed. -/
theorem wired_install {old : List Handler} {level threshold : Level} {place : Option Place}
    (hmade : s.made = old ++ .console level :: (place.map fun p => .file p true).toList)
    (hroot : ∀ n ∈ s.root, n < old.length)
    (hold : ∀ n p, old[n]? = some (.file p true) → n ∈ s.root) (hthreshold : place.isSome → threshold = .debug) :
    Wired (s.install (numbersFrom old.length place) threshold) old.length
      (place.map fun p => (old.length + 1, p)) := by
  -- What is closed has an old number, so the new handlers stay as they were made.
  have hnew : ∀ n, old.length ≤ n → (s.install (numbersFrom old.length place) threshold).made[n]? = s.made[n]? :=
    fun n hn => by
      rw [made_install, if_neg fun hmem => absurd (hroot n hmem) (by omega)]
  have hlast : ∀ n p, (s.install (numbersFrom old.length place) threshold).made[n]? = some (.file p true) →
      n = old.length + 1 ∧ place.isSome := fun n p hopen => by
    by_cases hn : old.length ≤ n
    · rw [hnew n hn, hmade, List.getElem?_append_right hn] at hopen
      obtain ⟨k, rfl⟩ := Nat.exists_eq_add_of_le hn
      rw [Nat.add_sub_cancel_left] at hopen
      match k, place, hopen with
      | 1, some p, _ => exact ⟨rfl, rfl⟩
    · rw [made_install, hmade, List.getElem?_append_left (by omega)] at hopen
      split at hopen
      · exact absurd hopen (map_closed_ne _ _)
      · rename_i hout
        exact absurd (hold n p hopen) hout
  refine ⟨?_, ⟨level, ?_⟩, fun n p hf => ⟨true, ?_⟩, fun h => hthreshold (by simpa using h), fun n p hn => ?_⟩
  · cases place <;> rfl
  · rw [hnew _ le_rfl, hmade]
    simp
  · obtain ⟨q, rfl, hq⟩ := Option.map_eq_some_iff.1 hf
    obtain ⟨rfl, rfl⟩ := Prod.mk.inj hq
    rw [hnew _ (by omega), hmade]
    simp
  · obtain ⟨rfl, hsome⟩ := hlast n p hn
    obtain ⟨q, rfl⟩ := Option.isSome_iff_exists.1 hsome
    simp [install, numbersFrom]

theorem root_close (s : Logging) : s.close.root = s.root := by rw [close_eq]

theorem written_close (s : Logging) : s.close.written = s.written := by rw [close_eq]

theorem held_close (s : Logging) : s.close.held = none := rfl

theorem current_close (s : Logging) : s.close.current = none := rfl

/-- After the log file is closed, the old handlers that are still open are at the root. -/
theorem Wired.mem_root_of_close (h : Wired s console file) {n : Nat} {place : Place}
    (hopen : s.close.made[n]? = some (.file place true)) : n ∈ s.root := by
  rw [made_close] at hopen
  split at hopen
  · exact absurd hopen (map_closed_ne _ _)
  · exact h.closed n place hopen

/-- Logging with the handlers of a configuration, before they are installed. -/
def equipped (s : Logging) (verbosity : Int) (f : Option Path) : Logging :=
  { s.close with
    made := s.close.made ++
      .console (consoleLevel verbosity) :: ((f.map (·.locate s.written.here)).map fun p => .file p true).toList
    held := f.map fun _ => s.close.made.length + 1
    current := f
    written := (f.map fun f => s.written.create (f.locate s.written.here)).getD s.written }

theorem configure_eq (s : Logging) (verbosity : Int) (f : Option Path) :
    s.configure verbosity f = (s.equipped verbosity f).install
      (numbersFrom s.close.made.length (f.map (·.locate s.written.here)))
      (if 0 < verbosity ∨ f.isSome then .debug else .warning) := by
  cases f with
  | none =>
    simp [configure, equipped, numbersFrom, held_close, current_close, written_close]
  | some f =>
    simp [configure, equipped, openFile, numbersFrom, written_close]

theorem wired_configure (h : Wired s console file) (verbosity : Int) (f : Option Path) :
    Wired (s.configure verbosity f) s.made.length
      ((f.map (·.locate s.written.here)).map fun p => (s.made.length + 1, p)) := by
  have hroot : ∀ n ∈ s.close.root, n < s.close.made.length := fun n hn => by
    rw [root_close] at hn
    rw [length_made_close]
    exact h.lt_length hn
  have hold : ∀ n p, s.close.made[n]? = some (.file p true) → n ∈ s.close.root := fun n p hopen => by
    rw [root_close]
    exact h.mem_root_of_close hopen
  have hthreshold : (f.map (·.locate s.written.here)).isSome →
      (if 0 < verbosity ∨ f.isSome then Level.debug else Level.warning) = .debug := fun hf =>
    if_pos (Or.inr (by simpa using hf))
  have hmade : (s.equipped verbosity f).made = s.close.made ++ .console (consoleLevel verbosity) ::
      ((f.map (·.locate s.written.here)).map fun p => .file p true).toList := rfl
  have hwired := wired_install hmade hroot hold hthreshold
  rw [configure_eq]
  simpa only [length_made_close] using hwired

theorem wired_close (h : Wired s console file) : Wired s.close console file := by
  refine ⟨?_, ?_, fun n place hf => ?_, fun hf => ?_, fun n place hopen => ?_⟩
  · rw [root_close, h.root]
  · obtain ⟨level, hconsole⟩ := h.hasConsole
    refine ⟨level, ?_⟩
    rw [made_close, hconsole]
    split <;> rfl
  · obtain ⟨isOpen, hfile⟩ := h.hasFile n place hf
    rw [made_close, hfile]
    split
    · exact ⟨false, rfl⟩
    · exact ⟨isOpen, rfl⟩
  · rw [close_eq]
    exact h.threshold hf
  · rw [root_close]
    exact h.mem_root_of_close hopen

/-! ## Events -/

/-- The console breaks off at an entry that passes its level. -/
def breaksOff (s : Logging) (level : Level) (e : Entry) : Bool :=
  s.breaksAt e && s.attached.any fun handler =>
    match handler with
    | .console l => level.passes l
    | .file _ _ => false

/-- The handler of a file takes an entry, if there is one. -/
def writeTo (s : Logging) (file : Option (Nat × Place)) (e : Entry) : Logging :=
  match file with
  | some (n, place) => s.write n place e
  | none => s

theorem dispatch_console {n : Nat} {l : Level} (h : s.made[n]? = some (.console l)) (level : Level) (e : Entry)
    (rest : List Nat) : dispatch level e (n :: rest) s =
      if level.passes l then
        if s.breaksAt e then s else dispatch level e rest { s with shown := s.shown ++ [e] }
      else dispatch level e rest s := by
  rw [dispatch, h]

theorem dispatch_file {n : Nat} {place : Place} {isOpen : Bool} (h : s.made[n]? = some (.file place isOpen))
    (level : Level) (e : Entry) (rest : List Nat) :
    dispatch level e (n :: rest) s = dispatch level e rest (s.write n place e) := by
  rw [dispatch, h]

theorem Wired.breaksOff_eq (h : Wired s console file) {l : Level} (hconsole : s.made[console]? = some (.console l))
    (level : Level) (e : Entry) : s.breaksOff level e = (s.breaksAt e && level.passes l) := by
  obtain ⟨l', isOpen, hattached⟩ := h.attached
  have hlevel : l = l' := by
    have hhead := congrArg List.head? hattached
    rw [Logging.attached, h.root] at hhead
    simpa [hconsole] using hhead
  rw [breaksOff, hattached, hlevel]
  cases file <;> simp

/-- What the handlers at the root do with an entry: the console may show it, and then the file takes it, unless the
console breaks off. -/
theorem Wired.dispatch_eq (h : Wired s console file) (level : Level) (e : Entry) :
    ∃ shown, dispatch level e s.root s =
      if s.breaksOff level e then s else { s with shown }.writeTo file e := by
  obtain ⟨l, hconsole⟩ := h.hasConsole
  -- The numbers behind the console are that of the file or none, whatever the console has shown.
  have hrest : ∀ shown : List Entry,
      dispatch level e (file.map Prod.fst).toList { s with shown } = { s with shown }.writeTo file e := fun shown => by
    cases hf : file with
    | none => rfl
    | some f =>
      obtain ⟨isOpen, hfile⟩ := h.hasFile f.1 f.2 hf
      have hshown : ({ s with shown } : Logging).made[f.1]? = some (.file f.2 isOpen) := hfile
      exact dispatch_file hshown level e []
  have hroot := (congrArg (dispatch level e · s) h.root).trans (dispatch_console hconsole level e _)
  rw [h.breaksOff_eq hconsole]
  cases hpasses : level.passes l
  · rw [hpasses] at hroot
    exact ⟨s.shown, by simpa using hroot.trans (hrest s.shown)⟩
  · cases hbreak : s.breaksAt e
    · rw [hpasses, hbreak] at hroot
      exact ⟨s.shown ++ [e], by simpa using hroot.trans (hrest (s.shown ++ [e]))⟩
    · rw [hpasses, hbreak] at hroot
      exact ⟨s.shown, by simpa using hroot⟩

/-- A file handler that takes an entry adds what is written of it at its place, and its stream is open. -/
theorem linesAt_writeTo (s : Logging) (file : Option (Nat × Place)) (e : Entry) (p : Place) :
    (s.writeTo file e).written.linesAt p =
      s.written.linesAt p ++ if file.map Prod.snd = some p then e.line?.toList else [] := by
  cases file with
  | none => simp [writeTo]
  | some f =>
    unfold writeTo write
    cases e.line? with
    | none => simp
    | some line => simpa using LogFiles.linesAt_append s.written f.2 p line

theorem wired_writeTo (h : Wired s console file) (e : Entry) : Wired (s.writeTo file e) console file := by
  cases file with
  | none => exact h
  | some f =>
    obtain ⟨f, place⟩ := f
    have hmade : (s.writeTo (some (f, place)) e).made = s.made.set f (.file place true) := by
      unfold writeTo write
      cases e.line? <;> rfl
    have hframe : (s.writeTo (some (f, place)) e).root = s.root ∧
        (s.writeTo (some (f, place)) e).threshold = s.threshold := by
      unfold writeTo write
      cases e.line? <;> exact ⟨rfl, rfl⟩
    obtain ⟨level, hconsole⟩ := h.hasConsole
    obtain ⟨isOpen, hfile⟩ := h.hasFile f place rfl
    have hne : f ≠ console := by
      rintro rfl
      simp [hconsole] at hfile
    refine ⟨hframe.1.trans h.root, ⟨level, ?_⟩, fun n place hn => ⟨true, ?_⟩, fun hf => ?_, fun n place hopen => ?_⟩
    · rw [hmade, List.getElem?_set_ne hne, hconsole]
    · obtain ⟨rfl, rfl⟩ := Prod.mk.inj (Option.some.inj hn)
      rw [hmade, List.getElem?_set_self (List.getElem?_eq_some_iff.1 hfile).1]
    · exact hframe.2.trans (h.threshold hf)
    · rw [hframe.1]
      by_cases hn : n = f
      · rw [hn, h.root]
        simp
      · rw [hmade, List.getElem?_set_ne (Ne.symm hn)] at hopen
        exact h.closed n _ hopen

theorem wired_add (h : Wired s console file) (level : Level) (e : Entry) : Wired (s.add level e) console file := by
  obtain ⟨shown, hdispatch⟩ := h.dispatch_eq level e
  have hshown : Wired { s with shown } console file := ⟨h.root, h.hasConsole, h.hasFile, h.threshold, h.closed⟩
  unfold add
  rw [hdispatch]
  split
  · split
    · exact h
    · exact wired_writeTo hshown e
  · exact h

theorem passes_debug (level : Level) : level.passes .debug = true := by cases level <;> rfl

def linesOf (s : Logging) (level : Level) (e : Entry) : List Entry :=
  if s.breaksOff level e then [] else e.line?.toList

/-- An entry goes to the file, if there is one, and to no other, unless the console breaks off. A file takes entries of
every level. -/
theorem Wired.linesAt_add (h : Wired s console file) (level : Level) (e : Entry) (p : Place) :
    (s.add level e).written.linesAt p =
      s.written.linesAt p ++ if file.map Prod.snd = some p then s.linesOf level e else [] := by
  obtain ⟨shown, hdispatch⟩ := h.dispatch_eq level e
  have hline : (dispatch level e s.root s).written.linesAt p =
      s.written.linesAt p ++ if file.map Prod.snd = some p then s.linesOf level e else [] := by
    rw [hdispatch, linesOf]
    split
    · simp
    · exact linesAt_writeTo { s with shown } file e p
  unfold add
  split
  · exact hline
  · rename_i hpasses
    have hnone : file.map Prod.snd ≠ some p := fun hf => hpasses <| by
      rw [h.threshold (by simpa using congrArg Option.isSome hf)]
      exact passes_debug level
    rw [if_neg hnone, List.append_nil]

/-! ## Steps -/

def linesOfStep (s : Logging) : Step → List Entry
  | .event e kept => if e.level.passes (kept.getD .debug) then s.linesOf e.level (Entry.ofEvent s.project e) else []
  | .record logger level template args =>
    match Template.fill? template args with
    | some message => s.linesOf level (Entry.head level logger message)
    | none => []
  | _ => []

end Logging

/-- The file that a configuration names; any other step is none. -/
def Step.file? (here : Place) : Step → Option (Option Place)
  | .configure _ f => some (f.map (·.locate here))
  | _ => none

/-- The file that the latest of some steps to be a configuration names, after one that did so before them. -/
def latestFile (here : Place) (before : Option Place) (steps : List Step) : Option Place :=
  steps.foldl (fun file step => (step.file? here).getD file) before

namespace Logging
variable {s : Logging} {console : Nat} {file : Option (Nat × Place)}

theorem written_configure (s : Logging) (verbosity : Int) (f : Option Path) :
    (s.configure verbosity f).written =
      (f.map fun f => s.written.create (f.locate s.written.here)).getD s.written := by
  rw [configure_eq, written_install]
  rfl

theorem Wired.linesAt_event (h : Wired s console file) (e : Event) (kept : Option Level) (p : Place) :
    (s.event e kept).written.linesAt p =
      s.written.linesAt p ++ if file.map Prod.snd = some p then s.linesOfStep (.event e kept) else [] := by
  rw [event, linesOfStep]
  by_cases hf : file.map Prod.snd = some p
  · rw [h.threshold (by simpa using congrArg Option.isSome hf), if_pos hf]
    split
    · rw [h.linesAt_add, if_pos hf]
    · rw [List.append_nil]
  · rw [if_neg hf, List.append_nil]
    split
    · rw [h.linesAt_add, if_neg hf, List.append_nil]
    · rfl

theorem Wired.linesAt_fresh (h : Wired s console file) (e : Event) (p : Place) :
    (s.event e).written.linesAt p = s.written.linesAt p ++
      if file.map Prod.snd = some p ∧ s.breaksOff e.level (Entry.ofEvent s.project e) = false then
        (Entry.ofEvent s.project e).line?.toList
      else [] := by
  rw [h.linesAt_event, linesOfStep, Option.getD_none, if_pos (passes_debug _), linesOf]
  by_cases hp : file.map Prod.snd = some p
  · cases s.breaksOff e.level (Entry.ofEvent s.project e) <;> simp [hp]
  · simp only [hp, false_and, if_false]

/-- A logger that was in use before adds the line of a new one, or none. -/
theorem Wired.linesAt_kept (h : Wired s console file) (e : Event) (kept : Option Level) (p : Place) :
    (s.event e kept).written.linesAt p = s.written.linesAt p ∨
      (s.event e kept).written.linesAt p = (s.event e).written.linesAt p := by
  rw [h.linesAt_event, h.linesAt_event, linesOfStep, linesOfStep, Option.getD_none, if_pos (passes_debug _)]
  split
  · split
    · exact Or.inr rfl
    · exact Or.inl (List.append_nil _)
  · exact Or.inl (List.append_nil _)

theorem Wired.linesAt_record (h : Wired s console file) (logger : String) (level : Level) (template : String)
    (args : List Data) (p : Place) : (s.record logger level template args).written.linesAt p =
      s.written.linesAt p ++
        if file.map Prod.snd = some p then s.linesOfStep (.record logger level template args) else [] := by
  rw [record, linesOfStep]
  cases Template.fill? template args with
  | some message => exact h.linesAt_add level _ p
  | none => simp

theorem Wired.linesAt_step (h : Wired s console file) (step : Step) (p : Place) :
    (s.step step).written.linesAt p =
      s.written.linesAt p ++ if file.map Prod.snd = some p then s.linesOfStep step else [] := by
  cases step with
  | configure verbosity f =>
    have hlines : (s.configure verbosity f).written.linesAt p = s.written.linesAt p := by
      rw [written_configure]
      cases f with
      | none => rfl
      | some f => exact LogFiles.linesAt_create ..
    simpa [linesOfStep, Logging.step] using hlines
  | event e kept => exact h.linesAt_event e kept p
  | record logger level template args => exact h.linesAt_record logger level template args p
  | bind project => simp [Logging.step, Logging.bind, linesOfStep]
  | close => simp [Logging.step, written_close, linesOfStep]

theorem Wired.here_add (h : Wired s console file) (level : Level) (e : Entry) :
    (s.add level e).written.here = s.written.here := by
  obtain ⟨shown, hdispatch⟩ := h.dispatch_eq level e
  have hwrite : ({ s with shown }.writeTo file e).written.here = s.written.here := by
    unfold writeTo write
    cases file <;> cases e.line? <;> rfl
  unfold add
  rw [hdispatch]
  split
  · split
    · rfl
    · exact hwrite
  · rfl

theorem Wired.here_step (h : Wired s console file) (step : Step) : (s.step step).written.here = s.written.here := by
  cases step with
  | configure verbosity f =>
    rw [Logging.step, written_configure]
    cases f <;> rfl
  | event e kept =>
    rw [Logging.step, event]
    split
    · exact h.here_add ..
    · rfl
  | record logger level template args =>
    rw [Logging.step, record]
    split
    · exact h.here_add ..
    · rfl
  | bind project => rfl
  | close => rw [Logging.step, written_close]

/-- Between two steps the handlers are those of the latest configuration. -/
theorem Wired.step (h : Wired s console file) (step : Step) :
    ∃ console' file', Wired (s.step step) console' file' ∧
      file'.map Prod.snd = (step.file? s.written.here).getD (file.map Prod.snd) := by
  cases step with
  | configure verbosity f =>
    refine ⟨_, _, wired_configure h verbosity f, ?_⟩
    cases f <;> rfl
  | event e kept =>
    refine ⟨console, file, ?_, rfl⟩
    rw [Logging.step, event]
    split
    · exact wired_add h _ _
    · exact h
  | record logger level template args =>
    refine ⟨console, file, ?_, rfl⟩
    rw [Logging.step, record]
    split
    · exact wired_add h _ _
    · exact h
  | bind project => exact ⟨console, file, ⟨h.root, h.hasConsole, h.hasFile, h.threshold, h.closed⟩, rfl⟩
  | close => exact ⟨console, file, wired_close h, rfl⟩

/-! ## Runs -/

/-- A run from handlers of a file ends with those of the file that its latest configuration names. -/
theorem Wired.run (h : Wired s console file) (steps : List Step) :
    ∃ console' file', Wired (s.run steps) console' file' ∧ (s.run steps).written.here = s.written.here ∧
      file'.map Prod.snd = latestFile s.written.here (file.map Prod.snd) steps := by
  induction steps generalizing s console file with
  | nil => exact ⟨console, file, h, rfl, rfl⟩
  | cons step steps ih =>
    obtain ⟨console', file', hstep, hfile⟩ := h.step step
    obtain ⟨console'', file'', hrun, hhere, hlatest⟩ := ih hstep
    rw [h.here_step step] at hhere hlatest
    refine ⟨console'', file'', hrun, hhere, ?_⟩
    rw [hlatest, hfile]
    rfl

/-- Lines that are there stay as they are, and new ones come behind them. -/
theorem Wired.linesAt_prefix (h : Wired s console file) (steps : List Step) (p : Place) :
    s.written.linesAt p <+: (s.run steps).written.linesAt p := by
  induction steps generalizing s console file with
  | nil => exact List.prefix_rfl
  | cons step steps ih =>
    obtain ⟨console', file', hstep, -⟩ := h.step step
    have hfirst : s.written.linesAt p <+: (s.step step).written.linesAt p := by
      rw [h.linesAt_step]
      exact List.prefix_append _ _
    exact hfirst.trans (ih hstep)

/-- A file grows only if it is the one at the beginning of a run, or a configuration of the run names it. -/
theorem Wired.linesAt_unnamed (h : Wired s console file) {steps : List Step} {p : Place}
    (hfile : file.map Prod.snd ≠ some p) (hsteps : ∀ step ∈ steps, step.file? s.written.here ≠ some (some p)) :
    (s.run steps).written.linesAt p = s.written.linesAt p := by
  induction steps generalizing s console file with
  | nil => rfl
  | cons step steps ih =>
    -- The file may change with the step, but only to one that the step names.
    obtain ⟨console', file', hstep, hlatest⟩ := h.step step
    have hnot : file'.map Prod.snd ≠ some p := by
      rw [hlatest]
      have hhead := hsteps step List.mem_cons_self
      cases hnamed : step.file? s.written.here with
      | none => exact hfile
      | some named =>
        rw [hnamed] at hhead
        exact fun heq => hhead (congrArg some heq)
    have hrest : ∀ step' ∈ steps, step'.file? (s.step step).written.here ≠ some (some p) := fun step' hmem => by
      rw [h.here_step]
      exact hsteps step' (List.mem_cons_of_mem step hmem)
    have hfirst : (s.step step).written.linesAt p = s.written.linesAt p := by
      rw [h.linesAt_step, if_neg hfile, List.append_nil]
    exact (ih hstep hnot hrest).trans hfirst

theorem wired_start (written : LogFiles) (breaksAt : Entry → Bool) :
    Wired { written, breaksAt } 0 none := by
  refine ⟨rfl, ⟨.warning, rfl⟩, fun n place hf => ?_, fun hf => ?_, fun n place hopen => ?_⟩
  · cases hf
  · cases hf
  · cases n <;> simp at hopen

/-- **Events go to the file that was named last, and to no other.** After any steps one console is at the root, and then
one file handler exactly if the latest configuration names a file; no other stream is open, and it makes no difference
whether the log file has been closed. An event of a logger that is new then adds one line to that file and nothing to
any other. It adds none if the entry cannot be written, or if the console breaks off at it; an older logger adds the
same line or none. Lines that are there never change, and a file that is neither the one named last nor named again
keeps its lines. -/
theorem run_routes_events (written : LogFiles) (breaksAt : Entry → Bool) (steps : List Step) :
    let s := run { written, breaksAt } steps
    let file := latestFile written.here none steps
    (∃ level isOpen, s.attached = .console level :: (file.map fun p => .file p isOpen).toList) ∧
      (∀ n p, s.made[n]? = some (.file p true) → n ∈ s.root) ∧
      (∀ e p, (s.event e).written.linesAt p = s.written.linesAt p ++
        if file = some p ∧ s.breaksOff e.level (Entry.ofEvent s.project e) = false then
          (Entry.ofEvent s.project e).line?.toList
        else []) ∧
      (∀ e kept p, (s.event e kept).written.linesAt p = s.written.linesAt p ∨
        (s.event e kept).written.linesAt p = (s.event e).written.linesAt p) ∧
      (∀ more p, s.written.linesAt p <+: (s.run more).written.linesAt p) ∧
      (∀ more p, file ≠ some p → (∀ step ∈ more, step.file? written.here ≠ some (some p)) →
        (s.run more).written.linesAt p = s.written.linesAt p) := by
  intro s file
  obtain ⟨console, wired, h, hhere, hlatest⟩ := (wired_start written breaksAt).run steps
  change Wired s console wired at h
  change s.written.here = written.here at hhere
  change wired.map Prod.snd = file at hlatest
  refine ⟨?_, h.closed, fun e p => ?_, h.linesAt_kept, h.linesAt_prefix, fun more p hp hmore => ?_⟩
  · obtain ⟨level, isOpen, hattached⟩ := h.attached
    refine ⟨level, isOpen, ?_⟩
    rw [hattached, ← hlatest, Option.map_map]
    rfl
  · rw [h.linesAt_fresh, hlatest]
  · exact h.linesAt_unnamed (hlatest ▸ hp) (hhere ▸ hmore)

/-- Two log files in the current folder, and something that is logged. -/
def firstLog : Path := { names := [⟨"a.jsonl", by decide⟩] }

def secondLog : Path := { names := [⟨"b.jsonl", by decide⟩] }

def extracted : Event :=
  ⟨.debug, "rpygraph.analysis.extractor", "tables_extracted", Table.ofList [("blocks", .int 1)]⟩

/-- A closed log file takes an event, and it takes none after another file has been named. -/
theorem run_routes_events_reopened :
    let s := run {} [.configure 0 (some firstLog), .close]
    let t := run {} [.configure 0 (some firstLog), .event extracted, .configure 1 (some secondLog)]
    (∃ line, (s.event extracted).written.linesAt firstLog.names = s.written.linesAt firstLog.names ++ [line]) ∧
      (t.run [.event extracted, .close]).written.linesAt firstLog.names = t.written.linesAt firstLog.names := by
  intro s t
  obtain ⟨-, -, hs, -⟩ := run_routes_events {} (fun _ => false) [.configure 0 (some firstLog), .close]
  obtain ⟨-, -, -, -, -, ht⟩ := run_routes_events {} (fun _ => false)
    [.configure 0 (some firstLog), .event extracted, .configure 1 (some secondLog)]
  refine ⟨⟨_, hs extracted firstLog.names⟩, ht [.event extracted, .close] firstLog.names (by decide) ?_⟩
  intro step hstep
  rw [List.mem_cons, List.mem_singleton] at hstep
  rcases hstep with rfl | rfl <;> simp [Step.file?]

def dated : Data := .map [(.moment { day := ⟨2024, 1, 1⟩ }, .text "draft")]

/-- An event is not written if the project at work has no name that can be written. -/
theorem event_lost_beside_project :
    ¬ ∀ (steps : List Step) (e : Event) (p : Place), latestFile [] none steps = some p →
      ∃ line, ((run {} steps).event e).written.linesAt p = (run {} steps).written.linesAt p ++ [line] := by
  intro h
  obtain ⟨line, hline⟩ := h [.configure 0 (some firstLog), .bind dated] extracted firstLog.names rfl
  change ([] : List Entry) = [] ++ [line] at hline
  cases hline

end Logging
end Plotline.Log
