/-!
# Named collections

Values by name, in the order in which the names first came. Replacing the value of a name keeps its
place; removing a name keeps the order of the others. Functions of a catalog, building blocks of a
view and templates of an engine are all kept this way.

Main definitions:

* `Named` — the collection;
* `Named.find?`, `Named.insert`, `Named.erase` — its operations;
* `find?_insert`, `find?_erase` — what look-up sees of them;
* `nodup_names_insert`, `nodup_names_erase` — no name comes to stand twice;
* `names_insert`, `names_erase` — which places the names have.
-/

namespace RuleBlocks

/-- Values by name. No name stands twice in a collection that is built by `insert` and `erase`. -/
structure Named (α : Type) where
  entries : List (String × α)
deriving Repr

namespace Named

variable {α : Type}

def empty : Named α :=
  { entries := [] }

def names (c : Named α) : List String :=
  c.entries.map (·.1)

def values (c : Named α) : List α :=
  c.entries.map (·.2)

def size (c : Named α) : Nat :=
  c.entries.length

def isEmpty (c : Named α) : Bool :=
  c.entries.isEmpty

def find? (c : Named α) (name : String) : Option α :=
  c.entries.lookup name

def contains (c : Named α) (name : String) : Bool :=
  (c.find? name).isSome

/-- Set a name in a list of entries: at its place if it is there, else at the end. -/
def insertEntry (name : String) (value : α) : List (String × α) → List (String × α)
  | [] => [(name, value)]
  | e :: rest => if e.1 = name then (name, value) :: rest else e :: insertEntry name value rest

def insert (c : Named α) (name : String) (value : α) : Named α :=
  { entries := insertEntry name value c.entries }

def erase (c : Named α) (name : String) : Named α :=
  { entries := c.entries.filter fun e => e.1 != name }

-- ---------------------------------------------------------------------------
-- What look-up sees
-- ---------------------------------------------------------------------------

@[simp] theorem find?_empty (name : String) : (empty : Named α).find? name = none := rfl

/-- The first entry is found if it is the one that is looked for, and else the search goes on. -/
theorem lookup_entry (other : String) (e : String × α) (rest : List (String × α)) :
    List.lookup other (e :: rest) = if other = e.1 then some e.2 else List.lookup other rest := by
  rw [List.lookup_cons]
  by_cases h : other = e.1
  · simp [h]
  · have : (other == e.1) = false := beq_eq_false_iff_ne.2 h
    simp [this, h]

/-- An entry that was put in is found, and others as before. -/
theorem lookup_insertEntry (name other : String) (value : α) (entries : List (String × α)) :
    (insertEntry name value entries).lookup other =
      if other = name then some value else entries.lookup other := by
  induction entries with
  | nil => simp [insertEntry, lookup_entry]
  | cons e rest ih =>
    unfold insertEntry
    by_cases hk : e.1 = name
    -- The first entry has the name, and its value is replaced.
    · subst hk
      by_cases h : other = e.1 <;> simp [lookup_entry, h]
    · by_cases h : other = e.1
      · have : other ≠ name := h ▸ hk
        simp [lookup_entry, hk, h]
      · simp [lookup_entry, hk, h, ih]

/-- **What was put in is found**, and everything else as before. -/
theorem find?_insert (c : Named α) (name other : String) (value : α) :
    (c.insert name value).find? other = if other = name then some value else c.find? other :=
  lookup_insertEntry name other value c.entries

/-- Entries that were taken out are not found, and others as before. -/
theorem lookup_filter_ne (name other : String) (entries : List (String × α)) :
    (entries.filter fun e => e.1 != name).lookup other =
      if other = name then none else entries.lookup other := by
  induction entries with
  | nil => simp
  | cons e rest ih =>
    by_cases hk : e.1 = name
    · rw [List.filter_cons_of_neg (by simp [hk]), ih, lookup_entry, hk]
      by_cases h : other = name <;> simp only [h, if_true, if_false]
    · by_cases h : other = e.1
      · simp [lookup_entry, hk, h]
      · simp [lookup_entry, hk, h, ih]

/-- **What was taken out is not found**, and everything else as before. -/
theorem find?_erase (c : Named α) (name other : String) :
    (c.erase name).find? other = if other = name then none else c.find? other :=
  lookup_filter_ne name other c.entries

-- ---------------------------------------------------------------------------
-- Names
-- ---------------------------------------------------------------------------

/-- Nothing is found exactly of the names that no entry has. -/
theorem lookup_eq_none_iff_names {name : String} {entries : List (String × α)} :
    entries.lookup name = none ↔ name ∉ entries.map (·.1) := by
  induction entries with
  | nil => simp
  | cons e rest ih =>
    rw [lookup_entry, List.map_cons, List.mem_cons, not_or]
    by_cases h : name = e.1
    · simp [h]
    · simp [h, ih]

/-- Nothing is found exactly of the names that are not there. -/
theorem find?_eq_none_iff {c : Named α} {name : String} : c.find? name = none ↔ name ∉ c.names :=
  lookup_eq_none_iff_names

/-- An entry that is put in brings its name, and no other. -/
theorem mem_names_insertEntry {name other : String} {value : α} {entries : List (String × α)} :
    other ∈ (insertEntry name value entries).map (·.1) ↔
      other = name ∨ other ∈ entries.map (·.1) := by
  induction entries with
  | nil => simp [insertEntry]
  | cons e rest ih =>
    unfold insertEntry
    by_cases hk : e.1 = name
    · rw [if_pos hk, List.map_cons, List.map_cons, List.mem_cons, List.mem_cons, hk]
      exact or_self_left.symm
    · rw [if_neg hk, List.map_cons, List.map_cons, List.mem_cons, List.mem_cons, ih]
      exact or_left_comm

/-- An entry that is put in brings no name twice. -/
theorem nodup_names_insertEntry {name : String} {value : α} {entries : List (String × α)}
    (h : (entries.map (·.1)).Nodup) : ((insertEntry name value entries).map (·.1)).Nodup := by
  induction entries with
  | nil => simp [insertEntry]
  | cons e rest ih =>
    rw [List.map_cons, List.nodup_cons] at h
    unfold insertEntry
    by_cases hk : e.1 = name
    · rw [if_pos hk, List.map_cons, List.nodup_cons]
      exact ⟨hk ▸ h.1, h.2⟩
    · rw [if_neg hk, List.map_cons, List.nodup_cons, mem_names_insertEntry]
      -- The name is put in further back: neither is it the first one, nor was that there before.
      exact ⟨fun hm => hm.elim hk h.1, ih h.2⟩

/-- Where no name stands twice, none does when a value is put in. -/
theorem nodup_names_insert {c : Named α} (name : String) (value : α) (h : c.names.Nodup) :
    (c.insert name value).names.Nodup :=
  nodup_names_insertEntry h

/-- Where no name stands twice, none does when one is taken out. -/
theorem nodup_names_erase {c : Named α} (name : String) (h : c.names.Nodup) :
    (c.erase name).names.Nodup :=
  h.sublist (List.filter_sublist.map _)

/-- The names that are left keep their order. -/
theorem names_erase (c : Named α) (name : String) :
    (c.erase name).names = c.names.filter (· != name) := by
  rw [names, names, erase, List.filter_map]
  rfl

/-- A name that is not there yet comes last. -/
theorem insertEntry_of_not_mem {name : String} (value : α) {entries : List (String × α)}
    (h : name ∉ entries.map (·.1)) : insertEntry name value entries = entries ++ [(name, value)] := by
  induction entries with
  | nil => rfl
  | cons e rest ih =>
    rw [List.map_cons, List.mem_cons, not_or] at h
    rw [insertEntry, if_neg (Ne.symm h.1), ih h.2, List.cons_append]

/-- A new name comes last. -/
theorem entries_insert_of_not_mem {c : Named α} {name : String} (value : α)
    (h : name ∉ c.names) : (c.insert name value).entries = c.entries ++ [(name, value)] :=
  insertEntry_of_not_mem value h

/-- A name that is there already keeps its place. -/
theorem map_insertEntry_of_mem {name : String} (value : α) {entries : List (String × α)}
    (h : name ∈ entries.map (·.1)) :
    (insertEntry name value entries).map (·.1) = entries.map (·.1) := by
  induction entries with
  | nil => simp at h
  | cons e rest ih =>
    unfold insertEntry
    by_cases hk : e.1 = name
    · rw [if_pos hk, List.map_cons, List.map_cons, hk]
    · have hRest := (List.mem_cons.mp h).resolve_left (Ne.symm hk)
      rw [if_neg hk, List.map_cons, List.map_cons, ih hRest]

/-- **A name keeps its place**, and a new one comes last. -/
theorem names_insert (c : Named α) (name : String) (value : α) :
    (c.insert name value).names = if name ∈ c.names then c.names else c.names ++ [name] := by
  split
  case isTrue hMem => exact map_insertEntry_of_mem value hMem
  case isFalse hNew => rw [names, entries_insert_of_not_mem value hNew, List.map_append]; rfl

/-- Entries whose names are new, and differ from each other, come last in their order. -/
theorem entries_foldl_insert {c : Named α} {entries : List (String × α)}
    (h : (c.names ++ entries.map (·.1)).Nodup) :
    (entries.foldl (fun c e => c.insert e.1 e.2) c).entries = c.entries ++ entries := by
  induction entries generalizing c with
  | nil => simp
  | cons e rest ih =>
    have hNew : e.1 ∉ c.names := fun hMem =>
      (List.nodup_append.mp h).2.2 _ hMem _ List.mem_cons_self rfl
    have hInsert := entries_insert_of_not_mem e.2 hNew
    have hNames : (c.insert e.1 e.2).names = c.names ++ [e.1] := by simp [names, hInsert]
    rw [List.foldl_cons, ih, hInsert, List.append_assoc, List.singleton_append]
    rw [hNames, List.append_assoc]
    exact h

/-- Where no name stands twice, look-up finds exactly the entries. -/
theorem find?_eq_some_iff {c : Named α} {name : String} {value : α} (h : c.names.Nodup) :
    c.find? name = some value ↔ (name, value) ∈ c.entries := by
  obtain ⟨entries⟩ := c
  change (entries.map (·.1)).Nodup at h
  change entries.lookup name = some value ↔ (name, value) ∈ entries
  induction entries with
  | nil => simp
  | cons e rest ih =>
    rw [List.map_cons, List.nodup_cons] at h
    rw [lookup_entry, List.mem_cons]
    -- If the first entry has the name, then no other has.
    by_cases hk : name = e.1
    · have hrest : (name, value) ∉ rest := fun hm =>
        h.1 (hk ▸ List.mem_map_of_mem hm)
      rw [if_pos hk, or_iff_left hrest, Option.some.injEq, Prod.ext_iff]
      exact ⟨fun hv => ⟨hk, hv.symm⟩, fun hv => hv.2.symm⟩
    · have he : (name, value) ≠ e := fun heq => hk (congrArg Prod.fst heq)
      rw [if_neg hk, or_iff_right he]
      exact ih h.2

end Named

end RuleBlocks
