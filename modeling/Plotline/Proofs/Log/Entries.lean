import Plotline.Log.Entry
import Plotline.Proofs.Tables

/-!
# What the line of an event shows

* `Event.get?_bound`, `Entry.get?_ofEvent`, `Entry.get?_line`: every field of an event, of its entry and of its line.
* `Entry.Names`: a line that names the level, the logger and the name of its event.
* `Entry.line_names_event_iff`: which fields of an event make its line name something else.
-/

namespace Plotline.Log

/-! ## Fields -/

/-- The project at work is a field like any other, unless the event has one of that name. -/
theorem Event.get?_bound (project : Option Data) (e : Event) (k : String) :
    (e.bound project).get? k = (e.fields.get? k).or (if k = "project" then project else none) := by
  cases project with
  | none => simp [Event.bound]
  | some p =>
    rw [Event.bound, Table.get?_insertNew]
    simp only [eq_comm]

namespace Entry

theorem get?_head (level : Level) (logger message k : String) :
    (head level logger message).get? k =
      if k = "message" then some (.text message)
      else if k = "logger" then some (.text (loggerName logger))
      else if k = "level" then some (.text level.name)
      else none := by
  unfold head Table.ofList
  simp only [List.foldl_cons, List.foldl_nil, Table.get?_insert, eq_comm]
  rfl

/-- An entry shows the level of its event and no time; of the logger and the name it shows what the event has under
their keys, if it has anything there. -/
theorem get?_ofEvent (project : Option Data) (e : Event) (k : String) :
    (ofEvent project e).get? k =
      if k = "level" then some (.text e.level.name)
      else if k = "timestamp" then none
      else ((e.bound project).get? k).or ((head e.level e.logger e.name).get? k) := by
  rw [ofEvent, Table.get?_foldl_entries, Table.get?_filter]
  by_cases hlevel : k = "level"
  · subst hlevel
    simp [get?_head]
  by_cases htime : k = "timestamp"
  · subst htime
    simp [get?_head]
  · have hkept : ((e.bound project).get? k).filter (fun _ => decide (k ≠ "level") && decide (k ≠ "timestamp")) =
        (e.bound project).get? k := by
      cases (e.bound project).get? k <;> simp [hlevel, htime]
    rw [hkept, if_neg hlevel, if_neg htime]

theorem get?_line {e line : Entry} (h : e.line? = some line) (k : String) :
    line.get? k = (e.get? k).map Json.plain := by
  unfold line? at h
  split at h
  · rw [← Option.some.inj h, Table.get?_map]
  · cases h

/-! ## The keys of the line itself -/

/-- A line names the level, the logger and the name of its event. -/
structure Names (line : Entry) (e : Event) : Prop where
  level : line.get? "level" = some (.text e.level.name)
  logger : line.get? "logger" = some (.text (loggerName e.logger))
  message : line.get? "message" = some (.text e.name)

end Entry

/-- An event has no field of a name, or one that is written as a text anyway. -/
def Event.Yields (e : Event) (k text : String) : Prop := ∀ v, e.fields.get? k = some v → Json.plain v = .text text

namespace Entry

variable {project : Option Data} {e : Event} {line : Entry}

/-- A key of the head other than the level shows its text if and only if the fields of the event yield to it. -/
theorem get?_own_iff (h : (ofEvent project e).line? = some line) {k text : String} (hlevel : k ≠ "level")
    (htime : k ≠ "timestamp") (hproject : k ≠ "project")
    (hhead : (head e.level e.logger e.name).get? k = some (.text text)) :
    line.get? k = some (.text text) ↔ e.Yields k text := by
  have hline : line.get? k = (((e.fields.get? k).or (some (.text text))).map Json.plain) := by
    rw [get?_line h, get?_ofEvent, if_neg hlevel, if_neg htime, Event.get?_bound, if_neg hproject,
      Option.or_none, hhead]
  rw [hline]
  unfold Event.Yields
  cases e.fields.get? k with
  | none => simp [Json.plain]
  | some v => simp

/-- **A line names its event, unless a field of the event is called logger or message.** Whatever the fields and the
project are, the line shows the level and no other time than its own, and every field of another name. It shows the
logger and the name of the event if and only if the fields of these names, if there are any, are written as the same
texts. -/
theorem line_names_event_iff (h : (ofEvent project e).line? = some line) :
    line.get? "level" = some (.text e.level.name) ∧ line.get? "timestamp" = none ∧
      (∀ k, k ∉ ["level", "timestamp", "logger", "message"] →
        line.get? k = ((e.bound project).get? k).map Json.plain) ∧
      (Names line e ↔ e.Yields "logger" (loggerName e.logger) ∧ e.Yields "message" e.name) := by
  have hlevel : line.get? "level" = some (.text e.level.name) := by
    rw [get?_line h, get?_ofEvent, if_pos rfl]
    rfl
  have hlogger : line.get? "logger" = some (.text (loggerName e.logger)) ↔ e.Yields "logger" (loggerName e.logger) :=
    get?_own_iff h (by decide) (by decide) (by decide) (get?_head _ _ _ _)
  have hmessage : line.get? "message" = some (.text e.name) ↔ e.Yields "message" e.name :=
    get?_own_iff h (by decide) (by decide) (by decide) (get?_head _ _ _ _)
  refine ⟨hlevel, ?_, ?_, ?_⟩
  · rw [get?_line h, get?_ofEvent, if_neg (by decide), if_pos rfl]
    rfl
  · intro k hk
    simp only [List.mem_cons, List.not_mem_nil, or_false, not_or] at hk
    obtain ⟨hlevel, htime, hlogger, hmessage⟩ := hk
    rw [get?_line h, get?_ofEvent, if_neg hlevel, if_neg htime, get?_head, if_neg hmessage, if_neg hlogger,
      if_neg hlevel, Option.or_none]
  · constructor
    · intro hnames
      exact ⟨hlogger.1 hnames.logger, hmessage.1 hnames.message⟩
    · rintro ⟨hl, hm⟩
      exact ⟨hlevel, hlogger.2 hl, hmessage.2 hm⟩

def enumerated : Event :=
  ⟨.debug, "t.fields", "routes_enumerated", Table.ofList [("routes", .int 3), ("truncated", .bool false)]⟩

theorem line_names_event_enumerated :
    ∃ line, (ofEvent (some (.text "novel")) enumerated).line? = some line ∧ Names line enumerated := by
  obtain ⟨line, hline⟩ : ∃ line, (ofEvent (some (.text "novel")) enumerated).line? = some line := ⟨_, rfl⟩
  have hlogger : enumerated.fields.get? "logger" = none := rfl
  have hmessage : enumerated.fields.get? "message" = none := rfl
  refine ⟨line, hline, (line_names_event_iff hline).2.2.2.2 ⟨?_, ?_⟩⟩
  · intro v hv
    rw [hlogger] at hv
    cases hv
  · intro v hv
    rw [hmessage] at hv
    cases hv

def relabelled : Event := ⟨.info, "t.x", "loaded", Table.ofList [("message", .text "other")]⟩

theorem message_hidden_by_field :
    ¬ ∀ (project : Option Data) (e : Event) (line : Entry), (ofEvent project e).line? = some line → Names line e := by
  intro h
  have hmessage : some (Data.text "other") = some (Data.text "loaded") := (h none relabelled _ rfl).message
  simp at hmessage

end Entry
end Plotline.Log
