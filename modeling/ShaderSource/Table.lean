/-!
# Tables by name

A table gives a value to each of some names. No name occurs twice: an insertion
takes the place of an earlier one. The order of the entries does not count; where
one is needed, the names are put in the order of their characters.
-/

namespace ShaderSource

structure Table (α : Type) where
  entries : List (String × α)
  distinct : (entries.map Prod.fst).Nodup

namespace Table

variable {α : Type}

def empty : Table α := ⟨[], by simp⟩

instance : Inhabited (Table α) := ⟨empty⟩

/-- The value of a name. -/
def find? (table : Table α) (name : String) : Option α :=
  (table.entries.find? fun (key, _) => key == name).map Prod.snd

def contains (table : Table α) (name : String) : Bool := (table.find? name).isSome

/-- The table without a name. -/
def erase (table : Table α) (name : String) : Table α where
  entries := table.entries.filter fun (key, _) => key != name
  distinct := table.distinct.sublist (List.filter_sublist.map Prod.fst)

/-- The table with a value for a name, in place of an earlier one. -/
def insert (table : Table α) (name : String) (value : α) : Table α where
  entries := (table.erase name).entries ++ [(name, value)]
  distinct := by
    rw [List.map_append, List.nodup_append]
    refine ⟨(table.erase name).distinct, by simp, ?_⟩
    intro key kept other added
    simp only [List.map_cons, List.map_nil, List.mem_singleton] at added
    simp only [erase, List.mem_map, List.mem_filter, bne_iff_ne] at kept
    obtain ⟨entry, ⟨_, different⟩, same⟩ := kept
    rw [added, ← same]
    exact different

/-- The table with some more entries, each in place of earlier ones. -/
def extend (table : Table α) (entries : List (String × α)) : Table α :=
  entries.foldl (fun table (name, value) => table.insert name value) table

/-- The table of some entries, later ones in place of earlier ones. -/
def ofList (entries : List (String × α)) : Table α := empty.extend entries

/-- The entries in the order of their names. -/
def sorted (table : Table α) : List (String × α) :=
  table.entries.mergeSort fun left right => decide (left.1 ≤ right.1)

end Table

/-- An order in which a table is gone through. Which one it is need not be known: it may differ
    from run to run. -/
structure TableOrder (α : Type) where
  arrange : Table α → Table α
  perm : ∀ table, (arrange table).entries.Perm table.entries

namespace TableOrder

/-- The order in which the names were added. -/
def asAdded {α : Type} : TableOrder α := ⟨id, fun table => .refl table.entries⟩

end TableOrder

end ShaderSource
