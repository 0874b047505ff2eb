/-!
# Tables in order of first insertion

* `Table κ α`: a finite map that remembers in which order its keys came.
* `Table.insert`: a new key goes last, a known key keeps its place and gets the new value.
* `Table.get?`, `Table.keys`, `Table.values`, `Table.map`.
-/

namespace Plotline

/-- A finite map whose keys stay in the order of their first insertion. -/
structure Table (κ α : Type) where
  /-- The keys with their values, in order. -/
  entries : List (κ × α)
  /-- No key occurs twice. -/
  nodup : (entries.map (·.1)).Nodup

namespace Table
variable {κ α β : Type}

def empty : Table κ α := ⟨[], List.nodup_nil⟩

instance : EmptyCollection (Table κ α) := ⟨empty⟩

instance : Inhabited (Table κ α) := ⟨∅⟩

/-- The keys, in order of first insertion. -/
def keys (t : Table κ α) : List κ := t.entries.map (·.1)

def values (t : Table κ α) : List α := t.entries.map (·.2)

def size (t : Table κ α) : Nat := t.entries.length

/-- Applies `f` to every value. -/
def map (f : α → β) (t : Table κ α) : Table κ β :=
  ⟨t.entries.map fun e => (e.1, f e.2), by simpa [List.map_map, Function.comp_def] using t.nodup⟩

/-- Keeps the entries that satisfy `p`. -/
def filter (p : κ → α → Bool) (t : Table κ α) : Table κ α :=
  ⟨t.entries.filter fun e => p e.1 e.2, t.nodup.sublist (List.filter_sublist.map _)⟩

variable [DecidableEq κ]

def find? (k : κ) : List (κ × α) → Option α
  | [] => none
  | e :: es => if e.1 = k then some e.2 else find? k es

def get? (t : Table κ α) (k : κ) : Option α := find? k t.entries

/-- The value of a key, or `d`. -/
def getD (t : Table κ α) (k : κ) (d : α) : α := (t.get? k).getD d

def contains (t : Table κ α) (k : κ) : Bool := (t.get? k).isSome

/-- The entries with the value of `k` replaced by `v`, or with `k` added at the end. -/
def put (k : κ) (v : α) : List (κ × α) → List (κ × α)
  | [] => [(k, v)]
  | e :: es => if e.1 = k then (k, v) :: es else e :: put k v es

theorem keys_put (k : κ) (v : α) : ∀ es : List (κ × α),
    (put k v es).map (·.1) = if k ∈ es.map (·.1) then es.map (·.1) else es.map (·.1) ++ [k]
  | [] => by simp [put]
  | e :: es => by
    by_cases h : e.1 = k
    · simp [put, h]
    · have h' : ¬ k = e.1 := fun x => h x.symm
      simp only [put, h, if_false, List.map_cons, keys_put k v es, List.mem_cons, h', false_or]
      split <;> simp

theorem nodup_put (k : κ) (v : α) (es : List (κ × α)) (h : (es.map (·.1)).Nodup) :
    ((put k v es).map (·.1)).Nodup := by
  rw [keys_put]
  split
  · exact h
  · rename_i hk
    rw [List.nodup_append]
    refine ⟨h, by simp, ?_⟩
    intro a ha b hb hab
    simp only [List.mem_singleton] at hb
    exact hk (hb ▸ hab ▸ ha)

/-- Gives `k` the value `v`; a known key keeps its place. -/
def insert (t : Table κ α) (k : κ) (v : α) : Table κ α := ⟨put k v t.entries, nodup_put k v _ t.nodup⟩

/-- Gives `k` the value `v` unless it has one. -/
def insertNew (t : Table κ α) (k : κ) (v : α) : Table κ α := if t.contains k then t else t.insert k v

/-- Applies `f` to the value of `k`, or to `d` if it has none. -/
def update (t : Table κ α) (k : κ) (d : α) (f : α → α) : Table κ α := t.insert k (f (t.getD k d))

/-- The table of a list of pairs, in which a later pair of the same key replaces the value. -/
def ofList (es : List (κ × α)) : Table κ α := es.foldl (fun t e => t.insert e.1 e.2) ∅

end Table
end Plotline
