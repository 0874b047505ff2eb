/-!
# Sets of names

* `NameSet`: a finite set of texts that remembers in which order they came.
* `NameSet.sorted`: its members by code points.
-/

namespace Plotline

/-- A finite set of texts, in order of first insertion. -/
structure NameSet where
  /-- The members, in order. -/
  members : List String
  nodup : members.Nodup

namespace NameSet

def empty : NameSet := ⟨[], List.nodup_nil⟩

instance : EmptyCollection NameSet := ⟨empty⟩

instance : Inhabited NameSet := ⟨∅⟩

def contains (s : NameSet) (x : String) : Bool := s.members.contains x

def size (s : NameSet) : Nat := s.members.length

def insert (s : NameSet) (x : String) : NameSet :=
  if h : x ∈ s.members then s
  else ⟨s.members ++ [x], by
    rw [List.nodup_append]
    refine ⟨s.nodup, by simp, ?_⟩
    intro a ha b hb hab
    simp only [List.mem_singleton] at hb
    exact h (hb ▸ hab ▸ ha)⟩

def insertAll (s : NameSet) (xs : List String) : NameSet := xs.foldl insert s

def ofList (xs : List String) : NameSet := insertAll ∅ xs

def sorted (s : NameSet) : List String := s.members.mergeSort fun a b => decide (a ≤ b)

end NameSet
end Plotline
