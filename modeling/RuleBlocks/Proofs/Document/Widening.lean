import Mathlib.Logic.Relation
import RuleBlocks.Proofs.Document.RoundTrip

/-!
# Documents that say more

A reader takes from a record the fields whose names it knows, each by its name. So nothing changes
for it when a record comes to hold fields of other names, or has its fields in another order, and
nothing changes for the readers around it either. This holds at every depth, as long as what is
edited stands where the document has a record: a text, a flag or a number is read as a whole.

The shape of a document says where it has records. An edit is made at one place of a document of a
shape, and a document is widened by any number of edits. The forms that are edited need not be what
a value is written as: they may be those of any JSON text, with keys that stand twice or records
that are spelled as lists.

* `Shape`, `Edit`, `Widened` — where records stand, what is done to one of them, and how often;
* `Alike` — two records whose fields differ by edits only;
* `rel_fields?_of_edit` — how an edit shows in the fields that are read;
* `Respects.list`, `respects_record` — readers from readers of the parts;
* `documents_are_read_back` — every document is read back from what it is written as, and read as
  before after it is widened.
-/

namespace RuleBlocks

open DocumentNode

-- ---------------------------------------------------------------------------
-- Edits
-- ---------------------------------------------------------------------------

/-- Where a document has records. -/
inductive Shape
  /-- A value that is read as a whole. -/
  | value
  | list (item : Shape)
  /-- The names that are read, and the shape of what stands under each. -/
  | record (names : List String) (part : String → Shape)

/-- An edit at one place of a document of the given shape. -/
inductive Edit : Shape → Form → Form → Prop
  /-- The fields of an object come in another order. -/
  | reorder {names : List String} {part : String → Shape} {fields fields' : Fields Form}
      (h : fields.Perm fields') :
      Edit (.record names part) (objectOf fields) (objectOf fields')
  /-- An object gets a field of a name that is not read. -/
  | add {names : List String} {part : String → Shape} (before after : Fields Form)
      {key : String} (value : Form) (h : key ∉ names) :
      Edit (.record names part) (objectOf (before ++ after))
        (objectOf (before ++ (key, value) :: after))
  /-- A field of an object is edited. -/
  | field {names : List String} {part : String → Shape} (before after : Fields Form)
      {key : String} {v w : Form} (h : Edit (part key) v w) :
      Edit (.record names part) (objectOf (before ++ (key, v) :: after))
        (objectOf (before ++ (key, w) :: after))
  /-- A field of a record that is spelled as a list is edited. -/
  | place {names : List String} {part : String → Shape} (before after : List Form)
      {key : String} {v w : Form} (hKey : names[before.length]? = some key)
      (h : Edit (part key) v w) :
      Edit (.record names part) (.array (before ++ v :: after)) (.array (before ++ w :: after))
  /-- An item of a list is edited. -/
  | item {shape : Shape} (before after : List Form) {v w : Form} (h : Edit shape v w) :
      Edit (.list shape) (.array (before ++ v :: after)) (.array (before ++ w :: after))

/-- The second form comes from the first by edits. -/
def Widened (shape : Shape) : Form → Form → Prop :=
  Relation.ReflTransGen (Edit shape)

-- ---------------------------------------------------------------------------
-- The fields of an edited record
-- ---------------------------------------------------------------------------

variable {names : List String} {part : String → Shape}

/-- Under every name there is the same in two records, or what an edit makes of it. -/
def Alike (part : String → Shape) (f g : Fields Form) : Prop :=
  ∀ name, f.lookup name = g.lookup name ∨
    ∃ v w, f.lookup name = some v ∧ g.lookup name = some w ∧ Edit (part name) v w

/-- The order of fields does not matter when no name is repeated. -/
theorem Alike.of_perm {f g : Fields Form} (hNames : (f.map (·.1)).Nodup) (h : f.Perm g) :
    Alike part f g := by
  intro name
  refine .inl (Option.ext fun value => ?_)
  have hNames' : (g.map (·.1)).Nodup := (h.map _).nodup_iff.mp hNames
  exact (Named.find?_eq_some_iff (c := ⟨f⟩) hNames).trans
    (h.mem_iff.trans (Named.find?_eq_some_iff (c := ⟨g⟩) hNames').symm)

/-- Only the first field of a name counts, so the edited one may also be hidden by another. -/
theorem Alike.of_edit {key : String} {v w : Form} (before after : Fields Form)
    (h : Edit (part key) v w) :
    Alike part (before ++ (key, v) :: after) (before ++ (key, w) :: after) := by
  intro name
  rw [List.lookup_append, List.lookup_append]
  cases hBefore : before.lookup name with
  | some value => exact .inl rfl
  | none =>
    rw [Named.lookup_entry, Named.lookup_entry]
    by_cases hName : name = key
    · subst hName
      refine .inr ⟨v, w, ?_, ?_, h⟩ <;> simp
    · refine .inl ?_
      simp [hName]

theorem Alike.refl (f : Fields Form) : Alike part f f :=
  fun _ => .inl rfl

/-- A known field is read where it stands. -/
theorem knownFields_of_mem {key : String} (h : key ∈ names) (before after : Fields Form)
    (value : Form) :
    knownFields names (before ++ (key, value) :: after) =
      knownFields names before ++ (key, value) :: knownFields names after := by
  simp [knownFields, h]

/-- An unknown field is not read at all. -/
theorem knownFields_of_not_mem {key : String} (h : key ∉ names) (before after : Fields Form)
    (value : Form) :
    knownFields names (before ++ (key, value) :: after) = knownFields names (before ++ after) := by
  simp [knownFields, h]

/-- An object may be edited in any way that keeps its known keys and leaves what is known alike. -/
theorem rel_fields?_objectOf {f g : Fields Form}
    (hKeys : ((knownFields names f).map (·.1)).Perm ((knownFields names g).map (·.1)))
    (hAlike : ((knownFields names f).map (·.1)).Nodup →
      Alike part (knownFields names f) (knownFields names g)) :
    Option.Rel (Alike part) (fields? names (objectOf f)) (fields? names (objectOf g)) := by
  rw [fields?_objectOf, fields?_objectOf]
  by_cases hNodup : ((knownFields names f).map (·.1)).Nodup
  · rw [if_pos (noRepeats_iff.mpr hNodup), if_pos (noRepeats_iff.mpr (hKeys.nodup_iff.mp hNodup))]
    exact .some (hAlike hNodup)
  · rw [if_neg (mt noRepeats_iff.mp hNodup),
      if_neg (mt noRepeats_iff.mp (mt hKeys.nodup_iff.mpr hNodup))]
    exact .none

theorem rel_fields?_objectOf_same {f g : Fields Form}
    (h : knownFields names f = knownFields names g) :
    Option.Rel (Alike part) (fields? names (objectOf f)) (fields? names (objectOf g)) :=
  rel_fields?_objectOf (h ▸ .refl _) fun _ => h ▸ .refl _

/-- The fields of a record that is spelled as a list, one of which is edited. -/
theorem rel_fields?_array {key : String} {v w : Form} (before after : List Form)
    (hKey : names[before.length]? = some key) (h : Edit (part key) v w) :
    Option.Rel (Alike part) (fields? names (Form.array (before ++ v :: after)))
      (fields? names (Form.array (before ++ w :: after))) := by
  -- in a list, the name of an item is the one at its place
  obtain ⟨namesBefore, namesAfter, rfl, hLength⟩ :
      ∃ namesBefore namesAfter, names = namesBefore ++ key :: namesAfter ∧
        namesBefore.length = before.length := by
    obtain ⟨hIndex, rfl⟩ := List.getElem?_eq_some_iff.mp hKey
    refine ⟨names.take before.length, names.drop (before.length + 1), ?_, ?_⟩
    · rw [← List.drop_eq_getElem_cons hIndex, List.take_append_drop]
    · exact List.length_take_of_le (Nat.le_of_lt hIndex)
  have hZip (value : Form) : (namesBefore ++ key :: namesAfter).zip (before ++ value :: after) =
      namesBefore.zip before ++ (key, value) :: namesAfter.zip after := by
    rw [List.zip_append hLength, List.zip_cons_cons]
  change Option.Rel _ (Form.fields? _ _) (Form.fields? _ _)
  simp only [Form.fields?, hZip, List.length_append, List.length_cons]
  split
  · exact .some (.of_edit _ _ h)
  · exact .none

/-- **An edited record.** Either both records are refused, or their fields are alike. -/
theorem rel_fields?_of_edit {v w : Form} (h : Edit (.record names part) v w) :
    Option.Rel (Alike part) (fields? names v) (fields? names w) := by
  cases h with
  | reorder h =>
    have hKnown := h.filter fun e => names.contains e.1
    exact rel_fields?_objectOf (hKnown.map _) fun hNodup => .of_perm hNodup hKnown
  | add before after value hKey =>
    exact rel_fields?_objectOf_same (knownFields_of_not_mem hKey before after value).symm
  | @field _ _ before after key v w h =>
    -- a change within a field that is not known is not read
    by_cases hKey : key ∈ names
    · refine rel_fields?_objectOf ?_ fun _ => ?_
      · simp [knownFields_of_mem hKey]
      · rw [knownFields_of_mem hKey, knownFields_of_mem hKey]
        exact .of_edit _ _ h
    · refine rel_fields?_objectOf_same ?_
      rw [knownFields_of_not_mem hKey, knownFields_of_not_mem hKey]
  | place before after hKey h => exact rel_fields?_array before after hKey h

-- ---------------------------------------------------------------------------
-- Readers
-- ---------------------------------------------------------------------------

/-- An edit of a document of the given shape makes no difference to a reader. -/
def Respects {α : Type} (shape : Shape) (read : Form → Option α) : Prop :=
  ∀ v w, Edit shape v w → read w = read v

section Readers

variable {α : Type} {read : Form → Option α}

/-- There is nothing to edit in a value. -/
theorem respects_value : Respects .value read :=
  fun _ _ h => nomatch h

/-- A list reader respects changes within an item. -/
theorem Respects.list {shape : Shape} (h : Respects shape read) :
    Respects (.list shape) (list? read) := by
  intro _ _ hEdit
  cases hEdit with
  | @item _ before after v w hEdit =>
    have hItems (value : Form) : list? read (Form.array (before ++ value :: after)) =
        (before ++ value :: after).mapM read := rfl
    rw [hItems, hItems, List.mapM_append, List.mapM_append, List.mapM_cons, List.mapM_cons,
      h v w hEdit]

variable {f g : Fields Form}

/-- A required field is read alike. -/
theorem Alike.required (h : Alike part f g) (name : String) (hRead : Respects (part name) read) :
    g.required name read = f.required name read := by
  rw [Fields.required, Fields.required]
  obtain hSame | ⟨v, w, hf, hg, hEdit⟩ := h name
  · rw [hSame]
  · rw [hf, hg]
    exact hRead v w hEdit

theorem Alike.defaulted (h : Alike part f g) (name : String) (default : α)
    (hRead : Respects (part name) read) :
    g.defaulted name default read = f.defaulted name default read := by
  rw [Fields.defaulted, Fields.defaulted]
  obtain hSame | ⟨v, w, hf, hg, hEdit⟩ := h name
  · rw [hSame]
  · rw [hf, hg]
    exact hRead v w hEdit

/-- A field that may be null is read as a whole. -/
theorem Alike.optional (h : Alike part f g) (name : String) (hValue : part name = .value) :
    g.optional name read = f.optional name read := by
  rw [Fields.optional, Fields.optional]
  obtain hSame | ⟨v, w, hf, hg, hEdit⟩ := h name
  · rw [hSame]
  · rw [hValue] at hEdit
    cases hEdit

/-- A record is read from its fields. -/
theorem respects_record {body : Fields Form → Option α}
    (h : ∀ f g, Alike part f g → body g = body f) :
    Respects (.record names part) fun node => (fields? names node).bind body := by
  intro v w hEdit
  have hFields := rel_fields?_of_edit hEdit
  change (fields? names w).bind body = (fields? names v).bind body
  generalize fields? names v = fieldsBefore at hFields
  generalize fields? names w = fieldsAfter at hFields
  cases hFields with
  | some hAlike => exact h _ _ hAlike
  | none => rfl

end Readers

/-- **Any number of edits** makes no difference to a reader to which no edit does. -/
theorem Respects.widened {α : Type} {shape : Shape} {read : Form → Option α} {v w : Form}
    (hRead : Respects shape read) (h : Widened shape v w) : read w = read v := by
  induction h with
  | refl => rfl
  | tail _ hEdit ih => exact (hRead _ _ hEdit).trans ih

-- ---------------------------------------------------------------------------
-- Documents
-- ---------------------------------------------------------------------------

def Parameter.shape : Shape :=
  .record fieldNames fun _ => .value

def FunctionDescriptor.shape : Shape :=
  .record fieldNames fun
    | "params" => .list Parameter.shape
    | _ => .value

def BuildingBlock.shape : Shape :=
  .record fieldNames fun
    | "descriptor" => FunctionDescriptor.shape
    | _ => .value

def FragmentFile.shape : Shape :=
  .record fieldNames fun
    | "fragments" => .list BuildingBlock.shape
    | _ => .value

def PluginSettings.shape : Shape :=
  .record fieldNames fun
    | "internalFunctions" => .list FunctionDescriptor.shape
    | _ => .value

def Config.shape : Shape :=
  .record fieldNames fun
    | "fragments" => .record FragmentSettings.fieldNames fun _ => .value
    | "searchJobs" => .record SearchJobSettings.fieldNames fun _ => .value
    | "logging" => .record LogSettings.fieldNames fun _ => .value
    | "plugins" => PluginSettings.shape
    | _ => .value

/-- No change to a parameter that is not about it is seen. -/
theorem Parameter.respects : Respects shape read? :=
  respects_record fun f g h => by
    rw [h.required "name" respects_value, h.required "type" respects_value,
      h.defaulted "optional" _ respects_value, h.optional "description" rfl]

/-- **A descriptor is read alike** from every widening. -/
theorem FunctionDescriptor.respects : Respects shape read? :=
  respects_record fun f g h => by
    rw [h.required "name" respects_value, h.required "returnType" respects_value,
      h.defaulted "ruleBuilderEnabled" _ respects_value, h.defaulted "visibility" _ respects_value,
      h.defaulted "params" _ Parameter.respects.list, h.optional "description" rfl,
      h.optional "ruleBuilderName" rfl, h.optional "ruleBuilderTitle" rfl]

/-- **A block is read alike** from every widening. -/
theorem BuildingBlock.respects : Respects shape read? :=
  respects_record fun f g h => by
    rw [h.required "descriptor" FunctionDescriptor.respects,
      h.defaulted "isCondition" _ respects_value, h.optional "fragment" rfl]

/-- **A file of fragments is read alike** from every widening. -/
theorem FragmentFile.respects : Respects shape read? :=
  respects_record fun f g h => by
    rw [h.defaulted "fragments" _ BuildingBlock.respects.list]

theorem FragmentSettings.respects :
    Respects (.record fieldNames fun _ => .value) FragmentSettings.read? :=
  respects_record fun f g h => by
    rw [h.optional "path" rfl, h.defaulted "watch" _ respects_value]

theorem SearchJobSettings.respects :
    Respects (.record fieldNames fun _ => .value) SearchJobSettings.read? :=
  respects_record fun f g h => by
    rw [h.defaulted "maxSize" _ respects_value,
      h.defaulted "expireAfterAccessSecs" _ respects_value,
      h.defaulted "loadWaitMillis" _ respects_value]

theorem LogSettings.respects : Respects (.record fieldNames fun _ => .value) LogSettings.read? :=
  respects_record fun f g h => by
    rw [h.defaulted "level" _ respects_value, h.defaulted "format" _ respects_value]

theorem PluginSettings.respects : Respects shape read? :=
  respects_record fun f g h => by
    rw [h.defaulted "internalFunctions" _ FunctionDescriptor.respects.list]

/-- **A configuration is read alike** from every widening. -/
theorem Config.respects : Respects shape read? :=
  respects_record fun f g h => by
    rw [h.defaulted "fragments" _ FragmentSettings.respects,
      h.defaulted "searchJobs" _ SearchJobSettings.respects,
      h.defaulted "nodeId" _ respects_value, h.defaulted "logging" _ LogSettings.respects,
      h.defaulted "plugins" _ PluginSettings.respects]

/-- **Documents are read back.** Every descriptor, fragment, fragment file and configuration is
read back from the value that it is written as. Whatever document is widened, by fields of unknown
names or another order of fields in any of its records, is read as it was read before. -/
theorem documents_are_read_back :
    (∀ d : FunctionDescriptor, ofJson? FunctionDescriptor.read? d.json = some d) ∧
    (∀ b : BuildingBlock, ofJson? BuildingBlock.read? b.json = some b) ∧
    (∀ f : FragmentFile, ofJson? FragmentFile.read? f.json = some f) ∧
    (∀ c : Config, ofJson? Config.read? c.json = some c) ∧
    (∀ v w : Form, Widened FunctionDescriptor.shape v w →
      FunctionDescriptor.read? w = FunctionDescriptor.read? v) ∧
    (∀ v w : Form, Widened BuildingBlock.shape v w →
      BuildingBlock.read? w = BuildingBlock.read? v) ∧
    (∀ v w : Form, Widened FragmentFile.shape v w →
      FragmentFile.read? w = FragmentFile.read? v) ∧
    (∀ v w : Form, Widened Config.shape v w → Config.read? w = Config.read? v) :=
  ⟨FunctionDescriptor.isReadBack, BuildingBlock.isReadBack, FragmentFile.isReadBack,
    Config.isReadBack, fun _ _ => FunctionDescriptor.respects.widened,
    fun _ _ => BuildingBlock.respects.widened, fun _ _ => FragmentFile.respects.widened,
    fun _ _ => Config.respects.widened⟩

/-- A function of one parameter, and documents that hold it. -/
def hasField : FunctionDescriptor :=
  (FunctionDescriptor.ofType "has_field" .boolean).withParam (.required "field" .string)

def hasFieldBlock : BuildingBlock :=
  .condition hasField "has $field$"

def hasFieldConfig : Config :=
  { Config.standard with plugins := { internalFunctions := [hasField] } }

def hasFieldHead : Fields Form :=
  [("name", .string "has_field"), ("returnType", .string "boolean"),
    ("ruleBuilderEnabled", .bool false), ("visibility", .string "public")]

/-- The parameters of the function, of which the only one holds the given fields beside its own. -/
def hasFieldParams (more : Fields Form) : String × Form :=
  ("params", .array
    [objectOf <|
      [("name", .string "field")] ++ more ++
        [("type", .string "string"), ("optional", .bool false)]])

/-- The function with its parameters in front, of which the only one got a unit. -/
def hasFieldWidened : Form :=
  objectOf ([hasFieldParams [("unit", .null)]] ++ hasFieldHead)

/-- The block around the form of its descriptor. -/
def hasFieldBlockAround (descriptor : Form) : Form :=
  objectOf
    [("descriptor", descriptor), ("isCondition", .bool true), ("fragment", .string "has $field$")]

/-- The configuration around the form of the function that it adds. -/
def hasFieldConfigAround (descriptor : Form) : Form :=
  objectOf <|
    [("fragments", Form.ofJson FragmentSettings.standard.json),
      ("searchJobs", Form.ofJson SearchJobSettings.standard.json), ("nodeId", .string "local"),
      ("logging", Form.ofJson LogSettings.standard.json)] ++
      [("plugins", objectOf [("internalFunctions", .array [descriptor])])]

/-- The descriptor with its fields turned around, and one more within a parameter. -/
theorem widened_hasField :
    Widened FunctionDescriptor.shape (Form.ofJson hasField.json) hasFieldWidened := by
  have hWritten : Form.ofJson hasField.json = objectOf (hasFieldHead ++ [hasFieldParams []]) := rfl
  rw [hWritten]
  refine .tail (.single (.reorder List.perm_append_comm)) ?_
  exact .field [] hasFieldHead (.item [] [] (.add [_] [_, _] .null (by decide)))

/-- The block around that descriptor. -/
theorem widened_hasFieldBlock :
    Widened BuildingBlock.shape (Form.ofJson hasFieldBlock.json)
      (hasFieldBlockAround hasFieldWidened) :=
  widened_hasField.lift hasFieldBlockAround fun _ _ h => .field [] _ h

/-- The documents whose descriptor is widened are read as they were written. -/
theorem documents_are_read_back_widened :
    (Widened FunctionDescriptor.shape (Form.ofJson hasField.json) hasFieldWidened ∧
      FunctionDescriptor.read? hasFieldWidened = some hasField) ∧
    (Widened BuildingBlock.shape (Form.ofJson hasFieldBlock.json)
        (hasFieldBlockAround hasFieldWidened) ∧
      BuildingBlock.read? (hasFieldBlockAround hasFieldWidened) = some hasFieldBlock) ∧
    (Widened FragmentFile.shape (Form.ofJson (FragmentFile.mk [hasFieldBlock]).json)
        (objectOf [("fragments", .array [hasFieldBlockAround hasFieldWidened])]) ∧
      FragmentFile.read? (objectOf [("fragments", .array [hasFieldBlockAround hasFieldWidened])]) =
        some { fragments := [hasFieldBlock] }) ∧
    (Widened Config.shape (Form.ofJson hasFieldConfig.json)
        (hasFieldConfigAround hasFieldWidened) ∧
      Config.read? (hasFieldConfigAround hasFieldWidened) = some hasFieldConfig) := by
  have hFile : Widened FragmentFile.shape (Form.ofJson (FragmentFile.mk [hasFieldBlock]).json)
      (objectOf [("fragments", .array [hasFieldBlockAround hasFieldWidened])]) :=
    widened_hasFieldBlock.lift (fun b => objectOf [("fragments", .array [b])])
      fun _ _ h => .field [] [] (.item [] [] h)
  have hConfig : Widened Config.shape (Form.ofJson hasFieldConfig.json)
      (hasFieldConfigAround hasFieldWidened) :=
    widened_hasField.lift hasFieldConfigAround
      fun _ _ h => .field [_, _, _, _] [] (.field [] [] (.item [] [] h))
  obtain ⟨readDescriptor, readBlock, readFile, readConfig, sameDescriptor, sameBlock, sameFile,
    sameConfig⟩ := documents_are_read_back
  exact ⟨⟨widened_hasField, (sameDescriptor _ _ widened_hasField).trans (readDescriptor _)⟩,
    ⟨widened_hasFieldBlock, (sameBlock _ _ widened_hasFieldBlock).trans (readBlock _)⟩,
    ⟨hFile, (sameFile _ _ hFile).trans (readFile _)⟩,
    ⟨hConfig, (sameConfig _ _ hConfig).trans (readConfig _)⟩⟩

end RuleBlocks
