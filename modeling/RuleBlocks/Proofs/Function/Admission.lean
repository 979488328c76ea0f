import RuleBlocks.Proofs.Function.Construction

/-!
# Which contributions make a catalog

There is a catalog of some contributions unless a descriptor among them is unfit, or repeats a name
that came before it on whatever side. The first such descriptor decides the error, so that what
follows it does not matter; and what comes before it is a catalog by itself. A catalog that comes
about has lost nothing: each side lists its descriptors in the order in which they came, and every
name leads to the one descriptor that has it.

* `FunctionDescriptor.IsFit`, `FunctionDescriptor.HasFault` — what makes a descriptor fit, and what
  is said of one that is not; `fault?_eq_none_iff`, `fault?_eq_some_iff` — the check finds that out;
* `FunctionCatalog.Admits` — descriptors of which there is a catalog;
* `FunctionCatalog.Refuses` — the error of a descriptor that comes after others;
* `FunctionCatalog.build_eq_error_iff` — the first descriptor at fault decides;
* `FunctionCatalog.Keeps` — what a catalog has kept of the contributions;
* `collect_admits_refuses_keeps` — which contributions make a catalog, which one, and the error of
  all others.
-/

namespace RuleBlocks

-- ---------------------------------------------------------------------------
-- Fitness
-- ---------------------------------------------------------------------------

/-- No name is repeated if all are different, and none was there before. -/
theorem firstRepeat?_eq_none_iff {before names : List String} :
    firstRepeat? before names = none ↔ names.Nodup ∧ ∀ name ∈ names, name ∉ before := by
  induction names generalizing before with
  | nil => simp [firstRepeat?]
  | cons first rest ih =>
    rw [firstRepeat?, List.nodup_cons, List.forall_mem_cons]
    by_cases hMem : first ∈ before
    · simp [hMem]
    · rw [if_neg hMem, ih]
      constructor
      · rintro ⟨hRest, hNew⟩
        refine ⟨⟨fun hFirst => hNew first hFirst List.mem_cons_self, hRest⟩, hMem, ?_⟩
        exact fun name hName hBefore => hNew name hName (List.mem_cons_of_mem _ hBefore)
      · rintro ⟨⟨hFirst, hRest⟩, -, hNew⟩
        refine ⟨hRest, fun name hName hBefore => ?_⟩
        obtain rfl | hBefore := List.mem_cons.mp hBefore
        · exact hFirst hName
        · exact hNew name hName hBefore

/-- The first name that is there already is the first one repeated. -/
theorem firstRepeat?_append {before front : List String} {name : String} (hFront : front.Nodup)
    (hNew : ∀ n ∈ front, n ∉ before) (hRepeat : name ∈ front ∨ name ∈ before)
    (rest : List String) : firstRepeat? before (front ++ name :: rest) = some name := by
  induction front generalizing before with
  | nil => rw [List.nil_append, firstRepeat?, if_pos (hRepeat.resolve_left List.not_mem_nil)]
  | cons first front ih =>
    obtain ⟨hFirst, hFront⟩ := List.nodup_cons.mp hFront
    obtain ⟨hMem, hNew⟩ := List.forall_mem_cons.mp hNew
    rw [List.cons_append, firstRepeat?, if_neg hMem]
    -- the first name joins those that were there before
    refine ih hFront (fun n hn hBefore => ?_) ?_
    · obtain rfl | hBefore := List.mem_cons.mp hBefore
      · exact hFirst hn
      · exact hNew n hn hBefore
    · rwa [List.mem_cons, or_left_comm, ← or_assoc, ← List.mem_cons]

/-- The first repetition stands behind names that differ. -/
theorem exists_of_firstRepeat? {before names : List String} {name : String}
    (h : firstRepeat? before names = some name) :
    ∃ front rest, names = front ++ name :: rest ∧ front.Nodup ∧ (∀ n ∈ front, n ∉ before) ∧
      (name ∈ front ∨ name ∈ before) := by
  induction names generalizing before with
  | nil => cases h
  | cons first rest ih =>
    rw [firstRepeat?] at h
    split at h
    case isTrue hMem =>
      obtain rfl := Option.some.inj h
      exact ⟨[], rest, rfl, List.nodup_nil, by simp, .inr hMem⟩
    case isFalse hMem =>
      obtain ⟨front, more, rfl, hNodup, hNew, hRepeat⟩ := ih h
      have hFirst : first ∉ front := fun hFirst => hNew first hFirst List.mem_cons_self
      refine ⟨first :: front, more, rfl, List.nodup_cons.mpr ⟨hFirst, hNodup⟩, ?_, ?_⟩
      · refine List.forall_mem_cons.mpr ⟨hMem, fun n hn hBefore => ?_⟩
        exact hNew n hn (List.mem_cons_of_mem _ hBefore)
      -- a name that was there before the rest is the first one, or was there before that
      · obtain hFront | hBefore := hRepeat
        · exact .inl (List.mem_cons_of_mem _ hFront)
        · obtain rfl | hBefore := List.mem_cons.mp hBefore
          · exact .inl List.mem_cons_self
          · exact .inr hBefore

namespace FunctionDescriptor

/-- A catalog may hold the descriptor: its name is not blank and has no white space in it, and its
parameters have names that differ. -/
structure IsFit (d : FunctionDescriptor) : Prop where
  named : Text.isBlank d.name.toList = false
  unbroken : ∀ c ∈ d.name.toList, Text.isWhiteSpace c = false
  distinct : (d.params.map (·.name)).Nodup

/-- What is said of a descriptor that is not fit: the first fault that it has. -/
inductive HasFault (d : FunctionDescriptor) : DescriptorFault → Prop
  | blankName (hBlank : Text.isBlank d.name.toList = true) : HasFault d .blankName
  | blankInName {c : Char} (hNamed : Text.isBlank d.name.toList = false)
    (hMem : c ∈ d.name.toList) (hBlank : Text.isWhiteSpace c = true) : HasFault d .blankInName
  | repeatedParameter {front rest : List String} {name : String}
    (hNamed : Text.isBlank d.name.toList = false)
    (hUnbroken : ∀ c ∈ d.name.toList, Text.isWhiteSpace c = false)
    (hParams : d.params.map (·.name) = front ++ name :: rest) (hFront : front.Nodup)
    (hRepeat : name ∈ front) : HasFault d (.repeatedParameter name)

variable {d : FunctionDescriptor}

/-- **The check passes what is fit.** -/
theorem fault?_eq_none_iff : d.fault? = none ↔ d.IsFit := by
  have hUnbroken : d.name.toList.any Text.isWhiteSpace = false ↔
      ∀ c ∈ d.name.toList, Text.isWhiteSpace c = false := by simp
  rw [fault?]
  cases hBlank : Text.isBlank d.name.toList with
  | true =>
    refine iff_of_false (by simp) fun hFit => ?_
    rw [hFit.named] at hBlank
    cases hBlank
  | false =>
    cases hBroken : d.name.toList.any Text.isWhiteSpace with
    | true =>
      refine iff_of_false (by simp) fun hFit => ?_
      rw [hUnbroken.mpr hFit.unbroken] at hBroken
      cases hBroken
    | false =>
      simp only [Bool.false_eq_true, if_false, Option.map_eq_none_iff, firstRepeat?_eq_none_iff]
      constructor
      · exact fun hParams => ⟨hBlank, hUnbroken.mp hBroken, hParams.1⟩
      · exact fun hFit => ⟨hFit.distinct, fun _ _ => List.not_mem_nil⟩

/-- **The check says what is wrong.** -/
theorem fault?_eq_some_iff {fault : DescriptorFault} :
    d.fault? = some fault ↔ d.HasFault fault := by
  rw [fault?]
  constructor
  · intro h
    split at h
    case isTrue hBlank =>
      obtain rfl := Option.some.inj h
      exact .blankName hBlank
    case isFalse hNamed =>
      rw [Bool.not_eq_true] at hNamed
      split at h
      case isTrue hBroken =>
        obtain rfl := Option.some.inj h
        obtain ⟨c, hMem, hBlank⟩ := List.any_eq_true.mp hBroken
        exact .blankInName hNamed hMem hBlank
      case isFalse hUnbroken =>
        have hUnbroken : ∀ c ∈ d.name.toList, Text.isWhiteSpace c = false := by
          simpa using hUnbroken
        obtain ⟨name, hFirst, rfl⟩ := Option.map_eq_some_iff.mp h
        -- the name is sound, so it is a parameter that is at fault
        obtain ⟨front, rest, hParams, hFront, -, hRepeat⟩ := exists_of_firstRepeat? hFirst
        exact .repeatedParameter hNamed hUnbroken hParams hFront
          (hRepeat.resolve_right List.not_mem_nil)
  · intro h
    cases h with
    | blankName hBlank => rw [if_pos hBlank]
    | blankInName hNamed hMem hBlank =>
      rw [if_neg (Bool.not_eq_true _ ▸ hNamed), if_pos (List.any_eq_true.mpr ⟨_, hMem, hBlank⟩)]
    | @repeatedParameter front rest name hNamed hUnbroken hParams hFront hRepeat =>
      have hFirst : firstRepeat? [] (d.params.map (·.name)) = some name :=
        hParams ▸ firstRepeat?_append hFront (fun _ _ => List.not_mem_nil) (.inl hRepeat) rest
      have hUnbroken : d.name.toList.any Text.isWhiteSpace = false := by simpa using hUnbroken
      rw [if_neg (Bool.not_eq_true _ ▸ hNamed), if_neg (Bool.not_eq_true _ ▸ hUnbroken), hFirst]
      rfl

end FunctionDescriptor

-- ---------------------------------------------------------------------------
-- The first fault
-- ---------------------------------------------------------------------------

namespace FunctionCatalog

variable {c k : FunctionCatalog} {d : FunctionDescriptor} {e : CatalogError}
variable {before descriptors : List FunctionDescriptor}

/-- There is a catalog of these descriptors: they are fit, and no name comes twice, on whatever
side. -/
structure Admits (descriptors : List FunctionDescriptor) : Prop where
  fit : ∀ d ∈ descriptors, d.IsFit
  distinct : (descriptors.map (·.name)).Nodup

/-- The error of a descriptor that comes after others. It must be fit before its name is compared
with theirs. -/
inductive Refuses (before : List FunctionDescriptor) (d : FunctionDescriptor) : CatalogError → Prop
  | unfit {fault : DescriptorFault} (hFault : d.HasFault fault) :
    Refuses before d (.invalidDescriptor d.name fault)
  | repeated (hFit : d.IsFit) (hRepeat : d.name ∈ before.map (·.name)) :
    Refuses before d (.repeatedName d.name)

/-- A catalog is built exactly from descriptors that are admitted. -/
theorem exists_build_iff_admits : (∃ k, build descriptors = .ok k) ↔ Admits descriptors := by
  simp only [exists_build_iff, FunctionDescriptor.fault?_eq_none_iff]
  exact ⟨fun h => ⟨h.1, h.2⟩, fun h => ⟨h.fit, h.distinct⟩⟩

/-- A descriptor is refused for its own fault first, and then for its name. -/
theorem insert_eq_error_iff :
    c.insert d = .error e ↔
      (∃ fault, d.fault? = some fault ∧ e = .invalidDescriptor d.name fault) ∨
        (d.fault? = none ∧ c.contains d.name = true ∧ e = .repeatedName d.name) := by
  rw [insert, FunctionDescriptor.check]
  cases d.fault? with
  | some fault => simp [bind, Except.bind, @eq_comm _ e]
  | none =>
    cases hTaken : c.contains d.name with
    | true => simp [bind, Except.bind, throw, throwThe, MonadExceptOf.throw, @eq_comm _ e]
    | false => cases d.visibility <;> simp [bind, Except.bind, pure, Except.pure]

/-- The catalog contains what it contained, and what went in. -/
theorem contains_foldlM_insert (h : descriptors.foldlM insert c = .ok k) (name : String) :
    k.contains name = true ↔ c.contains name = true ∨ name ∈ descriptors.map (·.name) := by
  induction descriptors generalizing c with
  | nil =>
    obtain rfl : c = k := by simpa [pure, Except.pure] using h
    simp
  | cons d rest ih =>
    obtain ⟨-, hRest⟩ := foldlM_insert_cons_eq_ok_iff.mp h
    rw [ih hRest, contains_accept, Bool.or_eq_true, beq_iff_eq, List.map_cons, List.mem_cons,
      or_assoc, or_left_comm]

/-- **The names of a catalog are those of its descriptors.** -/
theorem contains_iff_of_build (h : build descriptors = .ok k) (name : String) :
    k.contains name = true ↔ name ∈ descriptors.map (·.name) := by
  have hEmpty : empty.contains name = false := rfl
  rw [contains_foldlM_insert h, hEmpty, or_iff_right Bool.false_ne_true]

/-- A catalog refuses what comes next exactly for what came before. -/
theorem insert_eq_error_iff_refuses (h : build before = .ok k) :
    k.insert d = .error e ↔ Refuses before d e := by
  rw [insert_eq_error_iff]
  simp only [FunctionDescriptor.fault?_eq_none_iff, FunctionDescriptor.fault?_eq_some_iff,
    contains_iff_of_build h]
  constructor
  · rintro (⟨fault, hFault, rfl⟩ | ⟨hFit, hRepeat, rfl⟩)
    · exact .unfit hFault
    · exact .repeated hFit hRepeat
  · rintro (hFault | ⟨hFit, hRepeat⟩)
    · exact .inl ⟨_, hFault, rfl⟩
    · exact .inr ⟨hFit, hRepeat, rfl⟩

/-- There is no catalog if one descriptor is refused by the catalog of those before it. -/
theorem foldlM_insert_eq_error_iff :
    descriptors.foldlM insert c = .error e ↔
      ∃ before d after k, descriptors = before ++ d :: after ∧
        before.foldlM insert c = .ok k ∧ k.insert d = .error e := by
  constructor
  · intro h
    induction descriptors generalizing c with
    | nil => cases h
    | cons first rest ih =>
      rw [List.foldlM_cons] at h
      cases hInsert : c.insert first with
      | error fault =>
        rw [hInsert] at h
        exact ⟨[], first, rest, c, rfl, rfl, hInsert.trans h⟩
      | ok next =>
        rw [hInsert] at h
        -- the first went in, so the refused one is further on
        obtain ⟨before, d, after, k, rfl, hBefore, hLast⟩ := ih h
        refine ⟨first :: before, d, after, k, rfl, ?_, hLast⟩
        rw [List.foldlM_cons, hInsert]
        exact hBefore
  · rintro ⟨before, d, after, k, rfl, hBefore, hLast⟩
    rw [List.foldlM_append, hBefore]
    change (d :: after).foldlM insert k = _
    rw [List.foldlM_cons, hLast]
    rfl

/-- **The first descriptor at fault decides the error.** -/
theorem build_eq_error_iff :
    build descriptors = .error e ↔
      ∃ before d after, descriptors = before ++ d :: after ∧ Admits before ∧
        Refuses before d e := by
  rw [build, foldlM_insert_eq_error_iff]
  constructor
  · rintro ⟨before, d, after, k, hSplit, hBuild, hLast⟩
    exact ⟨before, d, after, hSplit, exists_build_iff_admits.mp ⟨k, hBuild⟩,
      (insert_eq_error_iff_refuses hBuild).mp hLast⟩
  · rintro ⟨before, d, after, hSplit, hAdmits, hRefuses⟩
    obtain ⟨k, hBuild⟩ := exists_build_iff_admits.mpr hAdmits
    exact ⟨before, d, after, k, hSplit, hBuild, (insert_eq_error_iff_refuses hBuild).mpr hRefuses⟩

-- ---------------------------------------------------------------------------
-- What is kept
-- ---------------------------------------------------------------------------

/-- A catalog has kept everything that was contributed, and made up nothing. -/
structure Keeps (k : FunctionCatalog) (contributions : List Contribution) : Prop where
  all : k.all =
    (contributions.flatMap Contribution.descriptors).filter (·.visibility = .isPublic)
  allWithInternal : k.allWithInternal =
    (contributions.flatMap Contribution.descriptors).filter (·.visibility = .isPublic) ++
      (contributions.flatMap Contribution.descriptors).filter (·.visibility = .isInternal)
  find? : ∀ name d, k.find? name = some d ↔
    d ∈ contributions.flatMap Contribution.descriptors ∧ d.name = name
  /-- What was contributed as internal is internal, whatever it declares. -/
  hidden : ∀ d, Contribution.hidden d ∈ contributions →
    k.find? d.name = some { d with visibility := .isInternal }
  contains : ∀ name, k.contains name = (k.find? name).isSome
  size : k.size = (contributions.flatMap Contribution.descriptors).length

/-- All descriptors, the shown ones in front of the hidden ones. -/
theorem allWithInternal_of_build (h : build descriptors = .ok k) :
    k.allWithInternal = descriptors.filter (·.visibility = .isPublic) ++
      descriptors.filter (·.visibility = .isInternal) := by
  rw [← values_side_of_build h .isPublic, ← values_side_of_build h .isInternal]
  rfl

/-- Both sides together hold all descriptors. -/
theorem mem_allWithInternal_of_build (h : build descriptors = .ok k) :
    d ∈ k.allWithInternal ↔ d ∈ descriptors := by
  rw [allWithInternal_of_build h, List.mem_append, List.mem_filter, List.mem_filter,
    ← and_or_left]
  refine and_iff_left ?_
  cases d.visibility with
  | isPublic => exact .inl rfl
  | isInternal => exact .inr rfl

/-- None is lost, and none is counted twice. -/
theorem size_of_build (h : build descriptors = .ok k) : k.size = descriptors.length := by
  have hSize : k.size = k.allWithInternal.length := by
    rw [allWithInternal, List.length_append, Named.values, Named.values, List.length_map,
      List.length_map]
    rfl
  have hOther : descriptors.filter (·.visibility = .isInternal) =
      descriptors.filter fun d => !decide (d.visibility = .isPublic) := by
    refine List.filter_congr fun d _ => ?_
    cases d.visibility <;> rfl
  rw [hSize, allWithInternal_of_build h, hOther]
  exact (List.filter_append_perm _ descriptors).length_eq

/-- Every name leads to the one descriptor that has it. -/
theorem find?_of_build (h : build descriptors = .ok k) (name : String) :
    k.find? name = some d ↔ d ∈ descriptors ∧ d.name = name := by
  have hKeyed := isKeyed_of_build h
  have hEntry : k.find? name = some d ↔ (name, d) ∈ k.entries := by
    rw [find?_eq_lookup]
    exact Named.find?_eq_some_iff (c := ⟨k.entries⟩) hKeyed.nodup
  rw [hEntry, ← mem_allWithInternal_of_build h, allWithInternal_eq_map, List.mem_map]
  constructor
  · exact fun hMem => ⟨⟨_, hMem, rfl⟩, (hKeyed.keyed _ hMem).symm⟩
  · rintro ⟨⟨⟨other, d'⟩, hMem, rfl⟩, rfl⟩
    obtain rfl : other = d'.name := hKeyed.keyed _ hMem
    exact hMem

/-- A name is contained if it can be looked up. -/
theorem contains_eq_isSome_find? (k : FunctionCatalog) (name : String) :
    k.contains name = (k.find? name).isSome := by
  rw [contains, Named.contains, Named.contains, FunctionCatalog.find?, Option.isSome_or]

/-- **What is collected keeps every contribution.** -/
theorem keeps_of_collect {contributions : List Contribution} (h : collect contributions = .ok k) :
    k.Keeps contributions where
  all := values_side_of_build h .isPublic
  allWithInternal := allWithInternal_of_build h
  find? := fun name _ => find?_of_build h name
  hidden := by
    intro d hMem
    refine (find?_of_build h d.name).mpr ⟨List.mem_flatMap.mpr ⟨_, hMem, ?_⟩, rfl⟩
    exact List.mem_singleton_self _
  contains := k.contains_eq_isSome_find?
  size := size_of_build h

end FunctionCatalog

open FunctionCatalog in
/--
**Which contributions make a catalog.** There is a catalog of some contributions exactly if all of
their descriptors are fit and have names that differ, public ones or not. If there is none, then the
first descriptor that is unfit, or else repeats a name that came before it, decides the error; and
if there is one, it keeps all descriptors, the public and the internal ones each in the order in
which they came, and finds each of them by its name.
-/
theorem collect_admits_refuses_keeps (contributions : List Contribution) :
    let descriptors := contributions.flatMap Contribution.descriptors
    ((∃ k, collect contributions = .ok k) ↔ Admits descriptors) ∧
      (∀ e, collect contributions = .error e ↔
        ∃ before d after, descriptors = before ++ d :: after ∧ Admits before ∧
          Refuses before d e) ∧
      ∀ k, collect contributions = .ok k → k.Keeps contributions :=
  ⟨exists_build_iff_admits, fun _ => build_eq_error_iff, fun _ => keeps_of_collect⟩

open FunctionCatalog in
/-- A function that declares to be public is contributed as internal, ahead of a plugin. -/
theorem collect_admits_refuses_keeps_hidden :
    let probe := FunctionDescriptor.ofType "probe" .boolean
    let trace := FunctionDescriptor.ofType "trace" .void
    ∃ k, collect [.hidden probe, .plugin [trace]] = .ok k ∧ k.all = [trace] ∧
      k.allWithInternal = [trace, probe.makeInternal] ∧
      k.find? "probe" = some probe.makeInternal := by
  intro probe trace
  obtain ⟨hExists, -, hKeeps⟩ := collect_admits_refuses_keeps [.hidden probe, .plugin [trace]]
  have hFit : ∀ d ∈ [probe.makeInternal, trace], d.fault? = none := by decide +kernel
  obtain ⟨k, hCollect⟩ := hExists.mpr
    ⟨fun d hMem => FunctionDescriptor.fault?_eq_none_iff.mp (hFit d hMem), by decide⟩
  have hKept := hKeeps k hCollect
  exact ⟨k, hCollect, hKept.all, hKept.allWithInternal, hKept.hidden probe List.mem_cons_self⟩

end RuleBlocks
