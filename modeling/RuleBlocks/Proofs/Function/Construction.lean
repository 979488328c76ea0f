import RuleBlocks.Function.Catalog

/-!
# How a catalog comes about

A catalog accepts one descriptor after the other and stops at the first one that is unfit or whose
name is taken. Every descriptor that it accepts comes last on the side of its visibility, so each
side lists the descriptors of that visibility in the order in which they came.

* `FunctionCatalog.accept` — put a descriptor on its side;
* `FunctionCatalog.insert_eq_ok_iff` — when a descriptor is accepted;
* `FunctionCatalog.values_side_of_build` — the functions of a catalog, side by side;
* `FunctionCatalog.IsKeyed` — no name stands twice, and every function stands under its own;
* `FunctionCatalog.exists_build_iff` — when there is a catalog of a list of descriptors;
* `FunctionCatalog.exists_build_of_append` — what was accepted before did not depend on what
  follows.
-/

namespace RuleBlocks.FunctionCatalog

variable {c k : FunctionCatalog} {d : FunctionDescriptor}

/-- Put a descriptor on the side of its visibility. -/
def accept (c : FunctionCatalog) (d : FunctionDescriptor) : FunctionCatalog :=
  match d.visibility with
  | .isPublic => { c with shown := c.shown.insert d.name d }
  | .isInternal => { c with hidden := c.hidden.insert d.name d }

/-- A descriptor is accepted if it is fit and its name is new, whatever its visibility. -/
theorem insert_eq_ok_iff :
    c.insert d = .ok k ↔ d.fault? = none ∧ c.contains d.name = false ∧ c.accept d = k := by
  rw [insert, FunctionDescriptor.check]
  cases d.fault? with
  | some fault => simp [bind, Except.bind]
  | none =>
    cases hTaken : c.contains d.name with
    | true => simp [bind, Except.bind, throw, throwThe, MonadExceptOf.throw]
    | false =>
      rw [accept]
      cases d.visibility <;> simp [bind, Except.bind, pure, Except.pure]

/-- Descriptors are accepted one after the other. -/
theorem foldlM_insert_cons_eq_ok_iff {rest : List FunctionDescriptor} :
    (d :: rest).foldlM insert c = .ok k ↔
      (d.fault? = none ∧ c.contains d.name = false) ∧ rest.foldlM insert (c.accept d) = .ok k := by
  rw [List.foldlM_cons]
  cases hInsert : c.insert d with
  | ok next =>
    obtain ⟨hFit, hNew, rfl⟩ := insert_eq_ok_iff.mp hInsert
    exact (and_iff_right ⟨hFit, hNew⟩).symm
  | error e =>
    refine iff_of_false (by simp [bind, Except.bind]) ?_
    rintro ⟨⟨hFit, hNew⟩, -⟩
    simp [insert_eq_ok_iff.mpr ⟨hFit, hNew, rfl⟩] at hInsert

/-- A name is new if it is on neither side. -/
theorem contains_eq_false_iff {name : String} :
    c.contains name = false ↔ name ∉ c.shown.names ∧ name ∉ c.hidden.names := by
  rw [contains, Bool.or_eq_false_iff, Named.contains, Named.contains, Option.isSome_eq_false_iff,
    Option.isSome_eq_false_iff, Option.isNone_iff_eq_none, Option.isNone_iff_eq_none,
    Named.find?_eq_none_iff, Named.find?_eq_none_iff]

/-- After a descriptor has been accepted its name is taken, and no other name. -/
theorem contains_accept (name : String) :
    (c.accept d).contains name = (name == d.name || c.contains name) := by
  rw [accept]
  by_cases hName : name = d.name
  · cases d.visibility <;> simp [contains, Named.contains, Named.find?_insert, hName]
  · have hNe : (name == d.name) = false := beq_eq_false_iff_ne.mpr hName
    cases d.visibility <;> simp [contains, Named.contains, Named.find?_insert, hName, hNe]

-- ---------------------------------------------------------------------------
-- The two sides
-- ---------------------------------------------------------------------------

/-- The functions of one visibility. -/
def side (c : FunctionCatalog) : Visibility → Named FunctionDescriptor
  | .isPublic => c.shown
  | .isInternal => c.hidden

/-- **Step.** A function comes last among those of its visibility, and leaves the others as they
are. -/
theorem values_side_accept (h : c.contains d.name = false) (v : Visibility) :
    ((c.accept d).side v).values = (c.side v).values ++ [d].filter (·.visibility = v) := by
  have hInsert : ((c.side v).insert d.name d).entries = (c.side v).entries ++ [(d.name, d)] := by
    obtain ⟨hShown, hHidden⟩ := contains_eq_false_iff.mp h
    cases v with
    | isPublic => exact Named.entries_insert_of_not_mem d hShown
    | isInternal => exact Named.entries_insert_of_not_mem d hHidden
  rw [accept]
  cases hVisibility : d.visibility <;> cases v <;> simp_all [side, Named.values]

/-- **Run.** The functions of a visibility that are accepted come after those that were there. -/
theorem values_side_foldlM_insert {descriptors : List FunctionDescriptor}
    (h : descriptors.foldlM insert c = .ok k) (v : Visibility) :
    (k.side v).values = (c.side v).values ++ descriptors.filter (·.visibility = v) := by
  induction descriptors generalizing c with
  | nil =>
    obtain rfl : c = k := by simpa [pure, Except.pure] using h
    simp
  | cons d rest ih =>
    obtain ⟨⟨-, hNew⟩, hRest⟩ := foldlM_insert_cons_eq_ok_iff.mp h
    rw [ih hRest, values_side_accept hNew, List.append_assoc, ← List.filter_append,
      List.singleton_append]

/-- Each side lists the descriptors of its visibility, in the order they came in. -/
theorem values_side_of_build {descriptors : List FunctionDescriptor}
    (h : build descriptors = .ok k) (v : Visibility) :
    (k.side v).values = descriptors.filter (·.visibility = v) := by
  have hEmpty : (empty.side v).values = [] := by cases v <;> rfl
  rw [values_side_foldlM_insert h v, hEmpty, List.nil_append]

/-- What is shown are the descriptors that are not internal. -/
theorem all_of_build {descriptors : List FunctionDescriptor} (h : build descriptors = .ok k) :
    k.all = descriptors.filter (!·.isInternal) := by
  refine (values_side_of_build h .isPublic).trans (List.filter_congr fun d _ => ?_)
  rw [FunctionDescriptor.isInternal]
  cases d.visibility <;> rfl

-- ---------------------------------------------------------------------------
-- Names
-- ---------------------------------------------------------------------------

/-- The public functions and the internal ones behind them, with their names. -/
def entries (c : FunctionCatalog) : List (String × FunctionDescriptor) :=
  c.shown.entries ++ c.hidden.entries

/-- No name stands twice, on one side or on both, and every function stands under its own name. -/
structure IsKeyed (c : FunctionCatalog) : Prop where
  nodup : (c.entries.map (·.1)).Nodup
  keyed : ∀ e ∈ c.entries, e.1 = e.2.name

/-- Looking up a name goes through both sides. -/
theorem find?_eq_lookup (c : FunctionCatalog) (name : String) :
    c.find? name = c.entries.lookup name := by
  rw [entries, List.lookup_append]
  rfl

/-- All descriptors are those of both sides. -/
theorem allWithInternal_eq_map (c : FunctionCatalog) : c.allWithInternal = c.entries.map (·.2) := by
  rw [entries, List.map_append]
  rfl

/-- A new name is not among the entries. -/
theorem not_mem_entries_of_contains {name : String} (h : c.contains name = false) :
    name ∉ c.entries.map (·.1) := by
  obtain ⟨hShown, hHidden⟩ := contains_eq_false_iff.mp h
  rw [entries, List.map_append, List.mem_append]
  exact fun hMem => hMem.elim hShown hHidden

/-- A function with a new name comes in among those of its visibility. -/
theorem entries_accept_perm (h : c.contains d.name = false) :
    (c.accept d).entries.Perm (c.entries ++ [(d.name, d)]) := by
  have hNew := not_mem_entries_of_contains h
  rw [entries, List.map_append, List.mem_append, not_or] at hNew
  rw [accept]
  cases d.visibility with
  | isPublic =>
    rw [entries, entries, Named.entries_insert_of_not_mem d hNew.1, List.append_assoc,
      List.append_assoc]
    exact List.perm_append_comm.append_left _
  | isInternal =>
    rw [entries, entries, Named.entries_insert_of_not_mem d hNew.2, List.append_assoc]

/-- An accepted descriptor is entered under its own name, which is new. -/
theorem IsKeyed.accept (h : c.IsKeyed) (hNew : c.contains d.name = false) :
    (c.accept d).IsKeyed := by
  have hPerm := entries_accept_perm hNew
  constructor
  · rw [(hPerm.map (·.1)).nodup_iff, List.map_append, List.nodup_append]
    refine ⟨h.nodup, by simp, fun name hMem other hOther => ?_⟩
    rw [List.map_singleton, List.mem_singleton] at hOther
    rw [hOther]
    rintro rfl
    exact not_mem_entries_of_contains hNew hMem
  · intro e he
    obtain hOld | hLast := List.mem_append.mp (hPerm.mem_iff.mp he)
    · exact h.keyed e hOld
    · rw [List.mem_singleton.mp hLast]

/-- So all entries stay under their own names, each name once. -/
theorem IsKeyed.foldlM_insert (h : c.IsKeyed) {descriptors : List FunctionDescriptor}
    (hBuild : descriptors.foldlM insert c = .ok k) : k.IsKeyed := by
  induction descriptors generalizing c with
  | nil =>
    obtain rfl : c = k := by simpa [pure, Except.pure] using hBuild
    exact h
  | cons d rest ih =>
    obtain ⟨⟨-, hNew⟩, hRest⟩ := foldlM_insert_cons_eq_ok_iff.mp hBuild
    exact ih (h.accept hNew) hRest

/-- **Every catalog that is built is keyed by name.** -/
theorem isKeyed_of_build {descriptors : List FunctionDescriptor} (h : build descriptors = .ok k) :
    k.IsKeyed :=
  IsKeyed.foldlM_insert
    (⟨List.nodup_nil, fun _ he => absurd he List.not_mem_nil⟩ : empty.IsKeyed) h

-- ---------------------------------------------------------------------------
-- Whether there is a catalog
-- ---------------------------------------------------------------------------

/-- All descriptors go in if each is sound and its name is new, to the catalog and to the others. -/
theorem exists_foldlM_insert_iff {descriptors : List FunctionDescriptor} :
    (∃ k, descriptors.foldlM insert c = .ok k) ↔
      (∀ d ∈ descriptors, d.fault? = none ∧ c.contains d.name = false) ∧
        (descriptors.map (·.name)).Nodup := by
  induction descriptors generalizing c with
  | nil => simp [pure, Except.pure]
  | cons d rest ih =>
    simp only [foldlM_insert_cons_eq_ok_iff, exists_and_left, ih]
    rw [List.forall_mem_cons, List.map_cons, List.nodup_cons]
    -- That the name of the first one is new to the rest is said by the catalog, and by the list.
    constructor
    · rintro ⟨hFirst, hRest, hNodup⟩
      refine ⟨⟨hFirst, fun e he => ⟨(hRest e he).1, ?_⟩⟩, fun hMem => ?_, hNodup⟩
      · have hOther := (hRest e he).2
        rw [contains_accept, Bool.or_eq_false_iff] at hOther
        exact hOther.2
      · obtain ⟨e, he, hName⟩ := List.mem_map.mp hMem
        have hTaken := (hRest e he).2
        rw [contains_accept, hName, beq_self_eq_true, Bool.true_or] at hTaken
        exact absurd hTaken (by decide)
    · rintro ⟨⟨hFirst, hRest⟩, hName, hNodup⟩
      refine ⟨hFirst, fun e he => ⟨(hRest e he).1, ?_⟩, hNodup⟩
      rw [contains_accept, (hRest e he).2, Bool.or_false, beq_eq_false_iff_ne]
      exact fun heq => hName (heq ▸ List.mem_map_of_mem he)

/-- There is a catalog exactly of descriptors that are fit and whose names differ. -/
theorem exists_build_iff {descriptors : List FunctionDescriptor} :
    (∃ k, build descriptors = .ok k) ↔
      (∀ d ∈ descriptors, d.fault? = none) ∧ (descriptors.map (·.name)).Nodup := by
  have hEmpty (name : String) : empty.contains name = false := rfl
  simp only [build, exists_foldlM_insert_iff, hEmpty, and_true]

/-- If a catalog is built then so is the one of any first part of its descriptors. -/
theorem exists_build_of_append {descriptors more : List FunctionDescriptor}
    (h : build (descriptors ++ more) = .ok k) : ∃ before, build descriptors = .ok before := by
  rw [build, List.foldlM_append] at h
  cases hBefore : descriptors.foldlM insert empty with
  | error e => simp [hBefore, bind, Except.bind] at h
  | ok before => exact ⟨before, hBefore⟩

end RuleBlocks.FunctionCatalog
