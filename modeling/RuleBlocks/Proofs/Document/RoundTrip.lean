import RuleBlocks.Config
import RuleBlocks.Fragment.File

/-!
# Documents are read back

Descriptors, fragments, fragment files and configurations are written as JSON values, and each is
read back from the value that it is written as. A record is written under the keys under which its
fields are read, each of them at most once. A text that is absent has no entry, or a null, and is
read as absent from either.

* `IsReadBack` — what is written one way is read back another way;
* `fields?_objectOf`, `fields?_record` — the fields of an object, and of one that was written;
* `required_written`, `defaulted_written`, `optional_written` — a field that was written;
* `FunctionDescriptor.isReadBack`, `BuildingBlock.isReadBack`, `FragmentFile.isReadBack`,
  `Config.isReadBack` — the documents.
-/

namespace RuleBlocks

open DocumentNode

/-- Whatever is written is read back from the value that it is written as. -/
def IsReadBack {α : Type} (write : α → Json) (read : Form → Option α) : Prop :=
  ∀ x, ofJson? read (write x) = some x

-- ---------------------------------------------------------------------------
-- Values
-- ---------------------------------------------------------------------------

theorem isReadBack_text : IsReadBack .string text? :=
  fun _ => rfl

theorem isReadBack_flag : IsReadBack .bool flag? :=
  fun _ => rfl

/-- A number is read back, as it is written without a sign. -/
theorem isReadBack_natural : IsReadBack .nat natural? := by
  intro n
  have hNatural : (0 : Int) ≤ n := Int.natCast_nonneg n
  simp [ofJson?, Json.nat, Form.ofJson, natural?, hNatural]

/-- A value that is written by its name is read back if no two share one. -/
theorem isReadBack_named {α : Type} {names : List (String × α)} {name : α → String}
    (h : ∀ x, names.lookup (name x) = some x) :
    IsReadBack (fun x => .string (name x)) (named? names) :=
  h

/-- The items of a list are told apart one by one. -/
theorem ofItems_eq_map (items : List Json) : Form.ofItems items = items.map Form.ofJson := by
  induction items with
  | nil => rfl
  | cons v rest ih => rw [Form.ofItems, ih, List.map_cons]

/-- A list is read back if its items are. -/
theorem IsReadBack.list {α : Type} {write : α → Json} {read : Form → Option α}
    (h : IsReadBack write read) : IsReadBack (fun xs => .array (xs.map write)) (list? read) := by
  intro xs
  have hItems : (xs.map fun x => Form.ofJson (write x)).mapM read = some xs := by
    induction xs with
    | nil => rfl
    | cons x rest ih =>
      have hFirst : read (Form.ofJson (write x)) = some x := h x
      simp [hFirst, ih]
  rw [ofJson?, Form.ofJson, ofItems_eq_map, List.map_map]
  exact hItems

-- ---------------------------------------------------------------------------
-- Records
-- ---------------------------------------------------------------------------

/-- An object with the given fields. -/
def objectOf (fields : Fields Form) : Form :=
  .object (fields.map fun (key, value) => (some key, value))

/-- The entries of an object as they are read. -/
def writtenFields (entries : List (String × Json)) : Fields Form :=
  entries.map fun (key, value) => (key, .ofJson value)

theorem ofJson_object (entries : List (String × Json)) :
    Form.ofJson (.object entries) = objectOf (writtenFields entries) := by
  rw [Form.ofJson, objectOf]
  congr 1
  induction entries with
  | nil => rfl
  | cons e rest ih =>
    rw [Form.ofEntries, ih]
    rfl

theorem noRepeats_iff {names : List String} : noRepeats names = true ↔ names.Nodup :=
  decide_eq_true_iff

/-- The fields of an object that are read. -/
def knownFields (names : List String) (fields : Fields Form) : Fields Form :=
  fields.filter fun e => names.contains e.1

/-- An object has fields unless one that is known is repeated. -/
theorem fields?_objectOf (names : List String) (fields : Fields Form) :
    fields? names (objectOf fields) =
      if noRepeats ((knownFields names fields).map (·.1)) then some (knownFields names fields)
      else none := by
  -- every key is a text, so none is refused
  have hKeyed : Form.keyed? (fields.map fun (key, value) => (some key, value)) = some fields := by
    induction fields with
    | nil => rfl
    | cons e rest ih =>
      rw [Form.keyed?] at ih ⊢
      simp [ih]
  change Form.fields? names (.object _) = _
  rw [Form.fields?, hKeyed]
  rfl

/-- The fields of a record that was written under keys under which it is read. -/
theorem fields?_record {names : List String} {entries : List (String × Json)}
    (hNames : names.Nodup) (hEntries : (entries.map (·.1)).Sublist names) :
    fields? names (Form.ofJson (.object entries)) = some (writtenFields entries) := by
  have hKeys : (writtenFields entries).map (·.1) = entries.map (·.1) := by
    rw [writtenFields, List.map_map]
    rfl
  have hKnown : knownFields names (writtenFields entries) = writtenFields entries := by
    refine List.filter_eq_self.mpr fun e he => List.contains_iff_mem.mpr (hEntries.subset ?_)
    exact hKeys ▸ List.mem_map_of_mem he
  rw [ofJson_object, fields?_objectOf, hKnown, if_pos]
  exact noRepeats_iff.mpr (hKeys ▸ hNames.sublist hEntries)

section Fields

variable {α : Type} {entries : List (String × Json)} {name : String} {write : α → Json}
  {read : Form → Option α} {x : α}

/-- A field holds what was written under its name. -/
theorem lookup_writtenFields (name : String) (entries : List (String × Json)) :
    (writtenFields entries).lookup name = (entries.lookup name).map Form.ofJson := by
  induction entries with
  | nil => rfl
  | cons e rest ih =>
    rw [writtenFields, List.map_cons, List.lookup_cons, List.lookup_cons]
    cases name == e.1 with
    | true => rfl
    | false => exact ih

/-- A required field is read back from what was written. -/
theorem required_written (hRead : IsReadBack write read)
    (h : entries.lookup name = some (write x)) :
    (writtenFields entries).required name read = some x := by
  rw [Fields.required, lookup_writtenFields, h]
  exact hRead x

/-- So is one with a default: the default stands for nothing that was written. -/
theorem defaulted_written {default : α} (hRead : IsReadBack write read)
    (h : entries.lookup name = some (write x)) :
    (writtenFields entries).defaulted name default read = some x := by
  rw [Fields.defaulted, lookup_writtenFields, h]
  exact hRead x

/-- A text that may be absent. -/
theorem optional_written (text : Option String)
    (h : entries.lookup name = text.map .string ∨
      (entries.lookup name = some .null ∧ text = none)) :
    (writtenFields entries).optional name text? = some text := by
  rw [Fields.optional, lookup_writtenFields]
  rcases h with h | ⟨h, rfl⟩
  · rw [h]
    cases text <;> rfl
  · rw [h]
    rfl

end Fields

-- ---------------------------------------------------------------------------
-- Documents
-- ---------------------------------------------------------------------------

/-- The types of a result are written under different names. -/
theorem isReadBack_returnType :
    IsReadBack (fun t : ReturnType => .string t.name) (named? ReturnType.names) :=
  isReadBack_named fun t => by cases t <;> decide

theorem isReadBack_visibility :
    IsReadBack (fun v : Visibility => .string v.name) (named? Visibility.names) :=
  isReadBack_named fun v => by cases v <;> decide

theorem isReadBack_logFormat :
    IsReadBack (fun f : LogFormat => .string f.name) (named? LogFormat.named) :=
  isReadBack_named fun f => by cases f <;> decide

/-- An entry that may be left out has no key but its own. -/
theorem keys_optionalEntry (name : String) (text : Option String) :
    ((optionalEntry name text).map (·.1)).Sublist [name] := by
  cases text with
  | none => exact List.nil_sublist _
  | some text => exact List.Sublist.refl _

/-- A parameter is read back: its description is written only if there is one. -/
theorem Parameter.isReadBack : IsReadBack json read? := by
  rintro ⟨name, type, isOptional, description⟩
  rw [ofJson?, json, read?, fields?_record]
  case hNames => decide
  case hEntries =>
    rw [List.map_append]
    exact (List.Sublist.refl ["name", "type", "optional"]).append (keys_optionalEntry _ _)
  simp only [Option.bind_eq_bind, Option.bind_some]
  rw [required_written isReadBack_text rfl, required_written isReadBack_returnType rfl,
    defaulted_written isReadBack_flag rfl,
    optional_written description (.inl (by cases description <;> rfl))]
  rfl

/-- **A descriptor is read back**, whichever of its texts are left out. -/
theorem FunctionDescriptor.isReadBack : IsReadBack json read? := by
  rintro ⟨name, returnType, enabled, visibility, params, description, label, title⟩
  rw [ofJson?, json, read?, fields?_record]
  case hNames => decide
  case hEntries =>
    rw [List.map_append, List.map_append, List.map_append]
    -- five fields are always written; each of the other three only if it is there
    have hRequired := List.Sublist.refl
      ["name", "returnType", "ruleBuilderEnabled", "visibility", "params"]
    exact ((hRequired.append (keys_optionalEntry _ _)).append (keys_optionalEntry _ _)).append
      (keys_optionalEntry _ _)
  simp only [Option.bind_eq_bind, Option.bind_some]
  rw [required_written isReadBack_text rfl, required_written isReadBack_returnType rfl,
    defaulted_written isReadBack_flag rfl, defaulted_written isReadBack_visibility rfl,
    defaulted_written Parameter.isReadBack.list rfl,
    optional_written description
      (.inl (by cases description <;> cases label <;> cases title <;> rfl)),
    optional_written label
      (.inl (by cases description <;> cases label <;> cases title <;> rfl)),
    optional_written title
      (.inl (by cases description <;> cases label <;> cases title <;> rfl))]
  rfl

/-- **A block is read back.** -/
theorem BuildingBlock.isReadBack : IsReadBack json read? := by
  rintro ⟨descriptor, isCondition, source⟩
  rw [ofJson?, json, read?, fields?_record]
  case hNames => decide
  case hEntries =>
    rw [List.map_append]
    exact (List.Sublist.refl ["descriptor", "isCondition"]).append (keys_optionalEntry _ _)
  simp only [Option.bind_eq_bind, Option.bind_some]
  rw [required_written FunctionDescriptor.isReadBack rfl, defaulted_written isReadBack_flag rfl,
    optional_written source (.inl (by cases source <;> rfl))]
  rfl

/-- **A file of fragments is read back.** -/
theorem FragmentFile.isReadBack : IsReadBack json read? := by
  rintro ⟨fragments⟩
  rw [ofJson?, json, read?, fields?_record]
  case hNames => decide
  case hEntries => exact List.Sublist.refl fieldNames
  simp only [Option.bind_eq_bind, Option.bind_some]
  rw [defaulted_written BuildingBlock.isReadBack.list rfl]
  rfl

theorem FragmentSettings.isReadBack : IsReadBack json read? := by
  rintro ⟨path, watch⟩
  rw [ofJson?, json, read?, fields?_record]
  case hNames => decide
  case hEntries => exact List.Sublist.refl fieldNames
  simp only [Option.bind_eq_bind, Option.bind_some]
  rw [optional_written path (by cases path <;> simp), defaulted_written isReadBack_flag rfl]
  rfl

theorem SearchJobSettings.isReadBack : IsReadBack json read? := by
  rintro ⟨maxSize, expireAfterAccessSecs, loadWaitMillis⟩
  rw [ofJson?, json, read?, fields?_record]
  case hNames => decide
  case hEntries => exact List.Sublist.refl fieldNames
  simp only [Option.bind_eq_bind, Option.bind_some]
  rw [defaulted_written isReadBack_natural rfl, defaulted_written isReadBack_natural rfl,
    defaulted_written isReadBack_natural rfl]
  rfl

theorem LogSettings.isReadBack : IsReadBack json read? := by
  rintro ⟨level, format⟩
  rw [ofJson?, json, read?, fields?_record]
  case hNames => decide
  case hEntries => exact List.Sublist.refl fieldNames
  simp only [Option.bind_eq_bind, Option.bind_some]
  rw [defaulted_written isReadBack_text rfl, defaulted_written isReadBack_logFormat rfl]
  rfl

theorem PluginSettings.isReadBack : IsReadBack json read? := by
  rintro ⟨internalFunctions⟩
  rw [ofJson?, json, read?, fields?_record]
  case hNames => decide
  case hEntries => exact List.Sublist.refl fieldNames
  simp only [Option.bind_eq_bind, Option.bind_some]
  rw [defaulted_written FunctionDescriptor.isReadBack.list rfl]
  rfl

/-- **A configuration is read back.** -/
theorem Config.isReadBack : IsReadBack json read? := by
  rintro ⟨fragments, searchJobs, nodeId, logging, plugins⟩
  rw [ofJson?, json, read?, fields?_record]
  case hNames => decide
  case hEntries => exact List.Sublist.refl fieldNames
  simp only [Option.bind_eq_bind, Option.bind_some]
  rw [defaulted_written FragmentSettings.isReadBack rfl,
    defaulted_written SearchJobSettings.isReadBack rfl, defaulted_written isReadBack_text rfl,
    defaulted_written LogSettings.isReadBack rfl, defaulted_written PluginSettings.isReadBack rfl]
  rfl

end RuleBlocks
