import Mathlib.Data.List.Nodup
import Mathlib.Data.String.Basic
import ShaderSource.Table

/-!
# Lookups and extensions of tables

No two entries have the same name, so what a table has under a name is the value of
the entry with this name, wherever it stands.

The entries that a table is extended by stand at its end, in their order, and
the entries with other names stand before them as they were. So a second
extension by the same entries finds them in place already, and entries that are
collected in a table of their own first can be put into another one in one go.
What a table has under a name after an extension is the last entry with this name,
or what it had before if there is none.

The names of the sorted entries are strictly increasing.
-/

namespace ShaderSource.Table

variable {α : Type}

/-- A table is known by its entries. -/
theorem eq_of_entries {table other : Table α} (same : table.entries = other.entries) :
    table = other := by
  cases table
  cases other
  congr

/-- Whether an entry has another name than each of some entries. -/
def isOther (entries : List (String × α)) (entry : String × α) : Bool :=
  !(entries.map Prod.fst).contains entry.1

/-- Extending by entries with different names, as an operation on the entries. -/
theorem extend_entries (table : Table α) {entries : List (String × α)}
    (distinct : (entries.map Prod.fst).Nodup) :
    (table.extend entries).entries = table.entries.filter (isOther entries) ++ entries := by
  induction entries generalizing table with
  | nil =>
    have all : table.entries.filter (isOther []) = table.entries :=
      List.filter_eq_self.mpr fun _ _ => rfl
    rw [all, List.append_nil]
    rfl
  | cons entry entries inductionHypothesis =>
    obtain ⟨name, value⟩ := entry
    rw [List.map_cons, List.nodup_cons] at distinct
    have fresh : isOther entries (name, value) = true := by simpa [isOther] using distinct.1
    have kept : (table.erase name).entries.filter (isOther entries) =
        table.entries.filter (isOther ((name, value) :: entries)) := by
      rw [erase, List.filter_filter]
      congr
      funext other
      simp [isOther, bne, Bool.and_comm]
    have inserted : (table.insert name value).entries.filter (isOther entries) =
        table.entries.filter (isOther ((name, value) :: entries)) ++ [(name, value)] := by
      rw [insert, List.filter_append, kept]
      simp [fresh]
    calc (table.extend ((name, value) :: entries)).entries
        = ((table.insert name value).extend entries).entries := rfl
      _ = (table.insert name value).entries.filter (isOther entries) ++ entries :=
        inductionHypothesis _ distinct.2
      _ = table.entries.filter (isOther ((name, value) :: entries)) ++ (name, value) :: entries := by
        rw [inserted, List.append_assoc, List.singleton_append]

/-- Extending a table twice by the same entries is extending it once. -/
theorem extend_extend (table : Table α) {entries : List (String × α)}
    (distinct : (entries.map Prod.fst).Nodup) :
    (table.extend entries).extend entries = table.extend entries := by
  have replaced : entries.filter (isOther entries) = [] := by
    rw [List.filter_eq_nil_iff]
    intro entry member
    have named : entry.1 ∈ entries.map Prod.fst := List.mem_map_of_mem member
    simp only [isOther, List.contains_iff_mem.mpr named, Bool.not_true, Bool.false_eq_true,
      not_false_eq_true]
  apply eq_of_entries
  rw [extend_entries _ distinct, extend_entries _ distinct, List.filter_append, replaced,
    List.filter_filter, List.append_nil]
  simp

/-- An insertion adds a name and keeps the others. -/
theorem mem_names_insert {table : Table α} {name key : String} {value : α} :
    key ∈ (table.insert name value).entries.map Prod.fst ↔
      key = name ∨ key ∈ table.entries.map Prod.fst := by
  by_cases same : key = name
  · simp [insert, same]
  · simp [insert, erase, same]

/-- The entries of a table with one insertion extend another table by one insertion more. -/
theorem extend_insert (table other : Table α) (name : String) (value : α) :
    table.extend (other.insert name value).entries =
      (table.extend other.entries).insert name value := by
  have others : table.entries.filter (isOther (other.insert name value).entries) =
      (table.entries.filter (isOther other.entries)).filter fun entry => entry.1 != name := by
    rw [List.filter_filter]
    apply List.filter_congr
    rintro ⟨key, _⟩ _
    rw [Bool.eq_iff_iff]
    simp only [isOther, Bool.not_eq_true', Bool.and_eq_true, bne_iff_ne, List.contains_eq_mem,
      decide_eq_false_iff_not, mem_names_insert, not_or, ne_eq]
  apply eq_of_entries
  rw [extend_entries _ (other.insert name value).distinct, others]
  simp only [insert, erase, extend_entries _ other.distinct, List.filter_append,
    List.append_assoc]

/-- Entries that are collected in another table first extend a table as they do by themselves. -/
theorem extend_collected (table other : Table α) (entries : List (String × α)) :
    table.extend (other.extend entries).entries =
      (table.extend other.entries).extend entries := by
  induction entries generalizing other with
  | nil => rfl
  | cons entry entries inductionHypothesis =>
    obtain ⟨name, value⟩ := entry
    calc table.extend ((other.insert name value).extend entries).entries
        = (table.extend (other.insert name value).entries).extend entries :=
          inductionHypothesis (other.insert name value)
      _ = ((table.extend other.entries).insert name value).extend entries := by
          rw [extend_insert]

section Lookup

variable (table : Table α)

/-- A value that is found is among the entries. -/
theorem mem_of_find? {name : String} {value : α} (found : table.find? name = some value) :
    (name, value) ∈ table.entries := by
  obtain ⟨⟨key, given⟩, located, rfl⟩ := Option.map_eq_some_iff.mp found
  obtain rfl : key = name := by simpa using List.find?_some located
  exact List.mem_of_find?_eq_some located

/-- The value of a name is the one that it has an entry with. -/
theorem find?_eq_some_iff {name : String} {value : α} :
    table.find? name = some value ↔ (name, value) ∈ table.entries := by
  constructor
  · exact table.mem_of_find?
  · intro member
    cases found : table.find? name with
    | none =>
      rw [find?, Option.map_eq_none_iff, List.find?_eq_none] at found
      simpa using found (name, value) member
    | some given =>
      -- No other entry has this name.
      have entry : (name, given) = (name, value) :=
        List.inj_on_of_nodup_map table.distinct (table.mem_of_find? found) member rfl
      rw [(Prod.mk.inj entry).2]

/-- A name is not found exactly if no entry has it. -/
theorem find?_eq_none_iff {name : String} :
    table.find? name = none ↔ name ∉ table.entries.map Prod.fst := by
  simp [Option.eq_none_iff_forall_ne_some, find?_eq_some_iff]

/-- A name that is erased is not found. -/
theorem find?_erase_self (name : String) : (table.erase name).find? name = none := by
  rw [find?, Option.map_eq_none_iff, List.find?_eq_none]
  rintro ⟨key, value⟩ member
  have different := (List.mem_filter.mp member).2
  simpa using different

/-- To erase a name leaves the others. -/
theorem find?_erase_of_ne {name key : String} (different : key ≠ name) :
    (table.erase name).find? key = table.find? key := by
  have kept : ∀ entry : String × α,
      decide ((entry.1 != name) = true ∧ (entry.1 == key) = true) = (entry.1 == key) := by
    rintro ⟨other, value⟩
    by_cases same : other = key
    · simp [same, different]
    · simp [same]
  simp only [find?, erase, List.find?_filter, kept]

/-- A name has the value that was inserted for it. -/
theorem find?_insert_self (name : String) (value : α) :
    (table.insert name value).find? name = some value := by
  have absent := table.find?_erase_self name
  rw [find?, Option.map_eq_none_iff] at absent
  simp only [find?, insert, List.find?_append, absent]
  simp

/-- An insertion leaves the values of the other names. -/
theorem find?_insert_of_ne {name key : String} (value : α) (different : key ≠ name) :
    (table.insert name value).find? key = table.find? key := by
  rw [← table.find?_erase_of_ne different]
  simp [find?, insert, List.find?_append, different.symm]

/-- The last entry with a name counts, and what the table had before if there is none. -/
theorem find?_extend (entries : List (String × α)) (key : String) :
    (table.extend entries).find? key =
      (entries.reverse.findSome? fun entry => if entry.1 = key then some entry.2 else none).or
        (table.find? key) := by
  induction entries generalizing table with
  | nil => rfl
  | cons entry entries inductionHypothesis =>
    obtain ⟨name, value⟩ := entry
    have extended : table.extend ((name, value) :: entries) =
        (table.insert name value).extend entries := rfl
    rw [extended, inductionHypothesis, List.reverse_cons, List.findSome?_append, Option.or_assoc]
    congr 1
    by_cases same : name = key
    · subst same
      simp [table.find?_insert_self]
    · have different : key ≠ name := fun equal => same equal.symm
      simp [same, table.find?_insert_of_ne value different]

/-- The last entry with a name is the first one from behind. -/
theorem find?_extend_lookup (entries : List (String × α)) (key : String) :
    (table.extend entries).find? key = (entries.reverse.lookup key).or (table.find? key) := by
  rw [find?_extend, List.lookup_eq_findSome?]
  simp only [beq_iff_eq, eq_comm (a := key)]

/-- What a table has after an extension is an entry, or it was there before. -/
theorem mem_or_find?_of_extend {entries : List (String × α)} {key : String} {value : α}
    (found : (table.extend entries).find? key = some value) :
    (key, value) ∈ entries ∨ table.find? key = some value := by
  rw [find?_extend, Option.or_eq_some_iff] at found
  refine found.imp (fun last => ?_) And.right
  obtain ⟨⟨name, given⟩, member, chosen⟩ := List.exists_of_findSome?_eq_some last
  by_cases same : name = key
  · simp only [same, if_true, Option.some.injEq] at chosen
    rw [← same, ← chosen]
    exact List.mem_reverse.mp member
  · simp [same] at chosen

end Lookup

section Sorted

variable (table : Table α)

/-- Sorting loses no entry and makes none. -/
theorem mem_sorted {entry : String × α} : entry ∈ table.sorted ↔ entry ∈ table.entries :=
  List.mem_mergeSort

/-- No name occurs twice, so each one of the sorted names is less than those behind it. -/
theorem sorted_increasing : table.sorted.Pairwise fun left right => left.1 < right.1 := by
  have transitive : ∀ first second third : String × α, decide (first.1 ≤ second.1) = true →
      decide (second.1 ≤ third.1) = true → decide (first.1 ≤ third.1) = true :=
    fun _ _ _ less further => decide_eq_true (le_trans (of_decide_eq_true less)
      (of_decide_eq_true further))
  have total : ∀ first second : String × α,
      (decide (first.1 ≤ second.1) || decide (second.1 ≤ first.1)) = true :=
    fun first second => by simpa using le_total first.1 second.1
  have ordered : table.sorted.Pairwise fun left right => left.1 ≤ right.1 :=
    (List.pairwise_mergeSort transitive total table.entries).imp of_decide_eq_true
  have distinct : table.sorted.Pairwise fun left right => left.1 ≠ right.1 := by
    have names : (table.sorted.map Prod.fst).Nodup :=
      (List.mergeSort_perm _ _).map Prod.fst |>.nodup_iff.mpr table.distinct
    exact List.pairwise_map.mp names
  exact (ordered.and distinct).imp fun ⟨less, different⟩ => lt_of_le_of_ne less different

end Sorted

end ShaderSource.Table

namespace ShaderSource.TableOrder

variable {α : Type} (order : TableOrder α)

/-- There is nothing to arrange in an empty table. -/
theorem arrange_empty : order.arrange .empty = .empty :=
  Table.eq_of_entries (order.perm .empty).eq_nil

/-- Every arrangement of a table comes from some order. -/
theorem exists_arrange {table other : Table α} (arranged : other.entries.Perm table.entries) :
    ∃ order : TableOrder α, order.arrange table = other := by
  classical
  refine ⟨⟨fun given => if given = table then other else given, fun given => ?_⟩, if_pos rfl⟩
  split
  case isTrue same => exact same ▸ arranged
  case isFalse => exact .refl _

end ShaderSource.TableOrder
