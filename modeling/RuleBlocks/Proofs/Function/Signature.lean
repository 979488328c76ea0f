import RuleBlocks.Function.Signature

/-!
# What a signature spells

A signature is cut at its commas, and each part that is not blank at its first colon. What is in
front of the colon, without blanks, is a name; what is behind it is a word for a type and perhaps a
mark. Blanks are taken off in three places, and a part is looked at after some of them have gone, so
it is not plain that the cut is made where the part as it stands has its first colon. It is, since a
colon is not blank; and a blank between word and mark stays, so it belongs to the word.

Hence nothing that is written by the rules is refused, and nothing else is accepted. Which
parameters come out is said by `SpellsSignature`, which does not mention a reader.

* `ReturnType.IsSpelling` — the words for a type;
* `SpellsParameter`, `SpellsParameters`, `SpellsSignature` — how parameters are written;
* `IsTyped`, `PartFault` — parts that can be read, and what is said of the others;
* `Parameter.ofPart_trim_cons` — what is read from a part, by the two sides of its first colon;
* `signatures_are_read_part_by_part` — which signatures are read, as what, and the errors of all
  others.
-/

namespace RuleBlocks

open Text

-- ---------------------------------------------------------------------------
-- Words for types
-- ---------------------------------------------------------------------------

namespace ReturnType

/-- The word stands for the type in a signature: it is the name of the type, or shorter. -/
def IsSpelling (t : ReturnType) (word : String) : Prop :=
  word = t.name ∨ (word, t) ∈ aliases

variable {t : ReturnType} {word : String}

/-- The table of names and aliases gives a type to every spelling of it. -/
theorem ofSpelling?_eq_some_iff : ofSpelling? word = some t ↔ t.IsSpelling word := by
  constructor
  · intro h
    obtain ⟨before, after, hSplit, -⟩ := List.lookup_eq_some_iff.mp h
    have hMem : (word, t) ∈ names ++ aliases := hSplit ▸ by simp
    obtain hName | hAlias := List.mem_append.mp hMem
    · obtain ⟨u, -, hPair⟩ := List.mem_map.mp hName
      obtain ⟨rfl, rfl⟩ := Prod.mk.inj hPair
      exact .inl rfl
    · exact .inr hAlias
  · rintro (rfl | hAlias)
    · exact ofSpelling?_name t
    · simp only [aliases, List.mem_cons, List.not_mem_nil, or_false, Prod.mk.injEq] at hAlias
      obtain ⟨rfl, rfl⟩ | ⟨rfl, rfl⟩ | ⟨rfl, rfl⟩ | ⟨rfl, rfl⟩ := hAlias <;> decide

/-- A word is a type if it spells one. -/
theorem ofSpelling_eq_ok_iff : ofSpelling word = .ok t ↔ t.IsSpelling word := by
  rw [← ofSpelling?_eq_some_iff, ofSpelling]
  cases ofSpelling? word <;> simp

/-- A word that spells no type is refused by name. -/
theorem ofSpelling_eq_error_iff {e : CatalogError} :
    ofSpelling word = .error e ↔
      (∀ t : ReturnType, ¬ t.IsSpelling word) ∧
        e = .invalidDescriptor word (.unknownType word) := by
  simp only [← ofSpelling?_eq_some_iff, ofSpelling]
  cases ofSpelling? word <;> simp [eq_comm]

/-- The characters of a word for a type: none of them means anything in a signature. -/
theorem IsSpelling.plain (h : t.IsSpelling word) :
    ∀ c ∈ word.toList, isWhiteSpace c = false ∧ c ≠ ',' ∧ c ≠ '?' := by
  have hAll : word.toList.all (fun c => !isWhiteSpace c && c != ',' && c != '?') = true := by
    obtain rfl | hAlias := h
    · cases t <;> decide
    · simp only [aliases, List.mem_cons, List.not_mem_nil, or_false, Prod.mk.injEq] at hAlias
      obtain ⟨rfl, -⟩ | ⟨rfl, -⟩ | ⟨rfl, -⟩ | ⟨rfl, -⟩ := hAlias <;> decide
  intro c hc
  simpa [and_assoc] using List.all_eq_true.mp hAll c hc

end ReturnType

-- ---------------------------------------------------------------------------
-- How parameters are written
-- ---------------------------------------------------------------------------

/-- A signature can hold the parameter: no blanks are at the ends of its name, there is no mark in
it that a signature is cut at, and there is nothing else to say of it. -/
structure Parameter.IsPlain (p : Parameter) : Prop where
  trimmed : trim p.name.toList = p.name.toList
  comma : ',' ∉ p.name.toList
  colon : ':' ∉ p.name.toList
  undescribed : p.description = none

/-- What stands behind the word for the type. -/
def optionalMark (isOptional : Bool) : List Char :=
  if isOptional then ['?'] else []

/-- A part that writes the parameter: its name, a colon, a word for its type and, directly behind
the word, the mark of an optional one. Blanks may stand around the name, and around word and mark. -/
def SpellsParameter (p : Parameter) (part : List Char) : Prop :=
  p.IsPlain ∧ ∃ before after left right word, isBlank before = true ∧ isBlank after = true ∧
    isBlank left = true ∧ isBlank right = true ∧ p.type.IsSpelling word ∧
    part = before ++ p.name.toList ++ after ++
      ':' :: (left ++ (word.toList ++ optionalMark p.isOptional) ++ right)

/-- One part for each parameter, in their order, with any number of blank parts among them. -/
inductive SpellsParameters : List Parameter → List (List Char) → Prop
  | nil : SpellsParameters [] []
  | blank {ps : List Parameter} {part : List Char} {parts : List (List Char)}
      (hBlank : isBlank part = true) (hRest : SpellsParameters ps parts) :
      SpellsParameters ps (part :: parts)
  | cons {p : Parameter} {ps : List Parameter} {part : List Char} {parts : List (List Char)}
      (hFirst : SpellsParameter p part) (hRest : SpellsParameters ps parts) :
      SpellsParameters (p :: ps) (part :: parts)

/-- The signature is such parts with commas between them. -/
def SpellsSignature (ps : List Parameter) (signature : String) : Prop :=
  ∃ parts, SpellsParameters ps parts ∧ signature.toList = [','].intercalate parts

-- ---------------------------------------------------------------------------
-- Parts that can be read
-- ---------------------------------------------------------------------------

/-- Whether the text behind a colon ends in a mark, blanks apart. -/
def isMarked (s : List Char) : Bool :=
  (trim s).getLast? == some '?'

/-- The text behind a colon, without the blanks around it and without one mark at its end. -/
def typeWord (s : List Char) : List Char :=
  if isMarked s then (trim s).dropLast else trim s

/-- The part has a colon, and a word for a type stands behind the first one. -/
def IsTyped (part : List Char) : Prop :=
  ∃ before after, part = before ++ ':' :: after ∧ ':' ∉ before ∧
    ∃ t : ReturnType, t.IsSpelling (String.ofList (typeWord after))

/-- What is said of a part of the signature of the named function that cannot be read. -/
inductive PartFault (function : String) (part : List Char) : CatalogError → Prop
  | malformed (hColon : ':' ∉ part) :
      PartFault function part
        (.invalidDescriptor function (.malformedParameter (String.ofList (trim part))))
  | unknownType {before after : List Char} {word : String} (hPart : part = before ++ ':' :: after)
      (hFirst : ':' ∉ before) (hWord : String.ofList (typeWord after) = word)
      (hUnknown : ∀ t : ReturnType, ¬ t.IsSpelling word) :
      PartFault function part (.invalidDescriptor word (.unknownType word))

/-- Behind the colon stands the word of the type, with or without the mark. -/
theorem typeWord_append_optionalMark (s : List Char) :
    typeWord s ++ optionalMark (isMarked s) = trim s := by
  cases hMarked : isMarked s with
  | false => simp [typeWord, optionalMark, hMarked]
  | true =>
    have hLast : (trim s).getLast? = some '?' := by simpa [isMarked] using hMarked
    obtain ⟨word, hWord⟩ := List.getLast?_eq_some_iff.mp hLast
    simp [typeWord, optionalMark, hMarked, hWord]

section Word

variable {t : ReturnType} {word : String} (h : t.IsSpelling word) (isOptional : Bool)
  {left right : List Char} (hLeft : isBlank left = true) (hRight : isBlank right = true)

include h hLeft hRight

/-- Blanks around the type do not count. -/
theorem trim_word :
    trim (left ++ (word.toList ++ optionalMark isOptional) ++ right) =
      word.toList ++ optionalMark isOptional := by
  rw [trim_surround hLeft _ hRight]
  refine trim_of_forall fun c hc => ?_
  obtain hWord | hMark := List.mem_append.mp hc
  · exact (h.plain c hWord).1
  · cases isOptional with
    | false => simp [optionalMark] at hMark
    | true =>
      obtain rfl : c = '?' := by simpa [optionalMark] using hMark
      decide

/-- The mark is seen if it is there. -/
theorem isMarked_word :
    isMarked (left ++ (word.toList ++ optionalMark isOptional) ++ right) = isOptional := by
  rw [isMarked, trim_word h isOptional hLeft hRight]
  cases isOptional with
  | true => simp [optionalMark]
  | false =>
    rw [optionalMark, if_neg Bool.false_ne_true, List.append_nil, beq_eq_false_iff_ne]
    exact fun hLast => (h.plain _ (List.mem_of_getLast? hLast)).2.2 rfl

/-- Without the mark, the word of the type is left. -/
theorem typeWord_word :
    typeWord (left ++ (word.toList ++ optionalMark isOptional) ++ right) = word.toList := by
  rw [typeWord, isMarked_word h isOptional hLeft hRight, trim_word h isOptional hLeft hRight]
  cases isOptional <;> simp [optionalMark]

end Word

-- ---------------------------------------------------------------------------
-- One part
-- ---------------------------------------------------------------------------

section Map

variable {ε α β : Type} {x : Except ε α} {f : α → β}

theorem map_eq_ok_iff {y : β} : x.map f = .ok y ↔ ∃ a, x = .ok a ∧ f a = y := by
  cases x <;> simp [Except.map]

theorem map_eq_error_iff {e : ε} : x.map f = .error e ↔ x = .error e := by
  cases x <;> simp [Except.map]

end Map

namespace Parameter

variable {function : String} {part before : List Char}

/-- A part without a colon is malformed. -/
theorem ofPart_trim_of_not_mem (hColon : ':' ∉ part) :
    ofPart function (trim part) =
      .error (.invalidDescriptor function (.malformedParameter (String.ofList (trim part)))) := by
  rw [ofPart, splitFirst_eq_none_of_not_mem (not_mem_trim hColon)]

/-- **One part.** It is read by what stands on the two sides of its first colon. -/
theorem ofPart_trim_cons (hFirst : ':' ∉ before) (after : List Char) :
    ofPart function (trim (before ++ ':' :: after)) =
      (ReturnType.ofSpelling (String.ofList (typeWord after))).map fun type =>
        { name := String.ofList (trim before), type, isOptional := isMarked after,
          description := none } := by
  rw [ofPart, trim_append_cons (by decide),
    splitFirst_append_cons_of_not_mem (not_mem_trimStart hFirst)]
  simp only [trim_trimEnd, trim_trimStart, dropEnding?_singleton, typeWord]
  rw [← isMarked]
  cases isMarked after <;> rfl

/-- **A part is read as the parameter that it spells**, and as no other. -/
theorem ofPart_trim_eq_ok_iff {p : Parameter} (hComma : ',' ∉ part) :
    ofPart function (trim part) = .ok p ↔ SpellsParameter p part := by
  constructor
  · intro h
    by_cases hColon : ':' ∈ part
    · obtain ⟨front, back, rfl, hFirst⟩ := List.eq_append_cons_of_mem hColon
      rw [ofPart_trim_cons hFirst, map_eq_ok_iff] at h
      obtain ⟨t, hType, rfl⟩ := h
      -- the spelling is what was trimmed: blanks around the name, and around the type
      obtain ⟨before, after, hBefore, hAfter, hFront⟩ := exists_surround_trim front
      obtain ⟨left, right, hLeft, hRight, hBack⟩ := exists_surround_trim back
      have hName : ',' ∉ front := fun hMem => hComma (List.mem_append_left _ hMem)
      refine ⟨⟨?_, ?_, ?_, rfl⟩, before, after, left, right, _, hBefore, hAfter, hLeft, hRight,
        ReturnType.ofSpelling_eq_ok_iff.mp hType, ?_⟩
      · rw [String.toList_ofList, trim_trim]
      · rw [String.toList_ofList]
        exact not_mem_trim hName
      · rw [String.toList_ofList]
        exact not_mem_trim hFirst
      · rw [String.toList_ofList, String.toList_ofList, typeWord_append_optionalMark, ← hFront,
          ← hBack]
    · rw [ofPart_trim_of_not_mem hColon] at h
      cases h
  · rintro ⟨hPlain, before, after, left, right, word, hBefore, hAfter, hLeft, hRight, hWord, rfl⟩
    -- the first colon is the one behind the name
    have hFirst : ':' ∉ before ++ p.name.toList ++ after := by
      simp only [List.mem_append, not_or]
      exact ⟨⟨not_mem_of_isBlank hBefore (by decide), hPlain.colon⟩,
        not_mem_of_isBlank hAfter (by decide)⟩
    rw [ofPart_trim_cons hFirst, typeWord_word hWord _ hLeft hRight,
      isMarked_word hWord _ hLeft hRight, trim_surround hBefore _ hAfter, hPlain.trimmed,
      String.ofList_toList, String.ofList_toList, ReturnType.ofSpelling_eq_ok_iff.mpr hWord]
    obtain ⟨name, type, isOptional, description⟩ := p
    obtain rfl : description = none := hPlain.undescribed
    rfl

/-- **A part is refused for its own fault.** -/
theorem ofPart_trim_eq_error_iff {e : CatalogError} :
    ofPart function (trim part) = .error e ↔ PartFault function part e := by
  constructor
  · intro h
    by_cases hColon : ':' ∈ part
    · obtain ⟨front, back, rfl, hFirst⟩ := List.eq_append_cons_of_mem hColon
      rw [ofPart_trim_cons hFirst, map_eq_error_iff,
        ReturnType.ofSpelling_eq_error_iff] at h
      obtain ⟨hUnknown, rfl⟩ := h
      exact .unknownType rfl hFirst rfl hUnknown
    · rw [ofPart_trim_of_not_mem hColon] at h
      obtain rfl := Except.error.inj h
      exact .malformed hColon
  · intro h
    cases h with
    | malformed hColon => exact ofPart_trim_of_not_mem hColon
    | unknownType hPart hFirst hWord hUnknown =>
      rw [hPart, ofPart_trim_cons hFirst, hWord,
        ReturnType.ofSpelling_eq_error_iff.mpr ⟨hUnknown, rfl⟩]
      rfl

/-- A part is read if a colon is in it and a type behind that. -/
theorem exists_ofPart_trim_iff :
    (∃ p, ofPart function (trim part) = .ok p) ↔ IsTyped part := by
  constructor
  · rintro ⟨p, h⟩
    by_cases hColon : ':' ∈ part
    · obtain ⟨front, back, rfl, hFirst⟩ := List.eq_append_cons_of_mem hColon
      rw [ofPart_trim_cons hFirst, map_eq_ok_iff] at h
      obtain ⟨t, hType, -⟩ := h
      exact ⟨front, back, rfl, hFirst, t, ReturnType.ofSpelling_eq_ok_iff.mp hType⟩
    · rw [ofPart_trim_of_not_mem hColon] at h
      cases h
  · rintro ⟨before, after, rfl, hFirst, t, hWord⟩
    rw [ofPart_trim_cons hFirst, ReturnType.ofSpelling_eq_ok_iff.mpr hWord]
    exact ⟨_, rfl⟩

end Parameter

-- ---------------------------------------------------------------------------
-- All parts
-- ---------------------------------------------------------------------------

/-- The parameters that the parts between commas give. -/
def readParts (function : String) (parts : List (List Char)) :
    Except CatalogError (List Parameter) :=
  ((parts.map trim).filter fun part => !part.isEmpty).mapM (Parameter.ofPart function)

/-- A signature is read part by part, between the commas. -/
theorem parseSignature_eq_readParts (function signature : String) :
    parseSignature function signature = readParts function (signature.toList.splitOn ',') :=
  rfl

section Parts

variable {function : String} {part : List Char} {parts : List (List Char)} {ps : List Parameter}
  {e : CatalogError}

/-- A blank part stands for nothing. -/
theorem readParts_blank (hBlank : isBlank part = true) :
    readParts function (part :: parts) = readParts function parts := by
  rw [readParts, List.map_cons, trim_of_isBlank hBlank]
  rfl

/-- Any other part is read before what follows. -/
theorem readParts_cons (hPart : isBlank part = false) :
    readParts function (part :: parts) = (do
      let p ← Parameter.ofPart function (trim part)
      let ps ← readParts function parts
      return p :: ps) := by
  have hNe : trim part ≠ [] := by
    rw [Ne, trim_eq_nil_iff, hPart]
    exact Bool.false_ne_true
  rw [readParts, List.map_cons, List.filter_cons_of_pos (by simpa using hNe), List.mapM_cons]
  rfl

/-- What spells a parameter has a colon at least. -/
theorem SpellsParameter.isBlank_eq_false {p : Parameter} (h : SpellsParameter p part) :
    isBlank part = false := by
  obtain ⟨-, before, after, left, right, word, -, -, -, -, -, rfl⟩ := h
  simp [isBlank, show isWhiteSpace ':' = false by decide]

/-- The parts are read as the parameters they spell. -/
theorem readParts_eq_ok_iff (hCommas : ∀ part ∈ parts, ',' ∉ part) :
    readParts function parts = .ok ps ↔ SpellsParameters ps parts := by
  induction parts generalizing ps with
  | nil =>
    constructor
    · intro h
      obtain rfl := Except.ok.inj h
      exact .nil
    · rintro ⟨⟩
      rfl
  | cons part parts ih =>
    obtain ⟨hComma, hCommas⟩ := List.forall_mem_cons.mp hCommas
    cases hPart : isBlank part with
    | true =>
      rw [readParts_blank hPart, ih hCommas]
      constructor
      · exact .blank hPart
      -- a blank part can only be skipped
      · rintro (_ | ⟨-, hRest⟩ | ⟨hFirst, -⟩)
        · exact hRest
        · cases hPart.symm.trans hFirst.isBlank_eq_false
    | false =>
      rw [readParts_cons hPart]
      constructor
      · intro h
        cases hFirst : Parameter.ofPart function (trim part) with
        | error e => simp [hFirst, bind, Except.bind] at h
        | ok p =>
          cases hRest : readParts function parts with
          | error e => simp [hFirst, hRest, bind, Except.bind] at h
          | ok rest =>
            rw [hFirst, hRest] at h
            obtain rfl := Except.ok.inj h
            exact .cons ((Parameter.ofPart_trim_eq_ok_iff hComma).mp hFirst)
              ((ih hCommas).mp hRest)
      -- and any other can only be read
      · rintro (_ | ⟨hBlank, -⟩ | ⟨hFirst, hRest⟩)
        · cases hPart.symm.trans hBlank
        · rw [(Parameter.ofPart_trim_eq_ok_iff hComma).mpr hFirst, (ih hCommas).mpr hRest]
          rfl

/-- The parts are read if each is blank or typed. -/
theorem exists_readParts_iff :
    (∃ ps, readParts function parts = .ok ps) ↔
      ∀ part ∈ parts, isBlank part = false → IsTyped part := by
  induction parts with
  | nil => exact iff_of_true ⟨[], rfl⟩ (by simp)
  | cons part parts ih =>
    rw [List.forall_mem_cons, ← ih]
    cases hPart : isBlank part with
    | true => simp [readParts_blank hPart]
    | false =>
      rw [readParts_cons hPart, ← @Parameter.exists_ofPart_trim_iff function]
      cases Parameter.ofPart function (trim part) <;> cases readParts function parts <;>
        simp [bind, Except.bind, pure, Except.pure]

/-- The leftmost part that cannot be read decides the error. -/
theorem readParts_eq_error_iff :
    readParts function parts = .error e ↔
      ∃ before part after, parts = before ++ part :: after ∧
        (∀ p ∈ before, isBlank p = true ∨ IsTyped p) ∧ isBlank part = false ∧
          PartFault function part e := by
  induction parts with
  | nil => simp [readParts, pure, Except.pure]
  | cons first parts ih =>
    -- the leftmost part at fault is the first one, or is the leftmost one behind it
    have hSplit : (∃ before part after, first :: parts = before ++ part :: after ∧
          (∀ p ∈ before, isBlank p = true ∨ IsTyped p) ∧ isBlank part = false ∧
            PartFault function part e) ↔
        (isBlank first = false ∧ PartFault function first e) ∨
          ((isBlank first = true ∨ IsTyped first) ∧ readParts function parts = .error e) := by
      rw [ih]
      constructor
      · rintro ⟨before, part, after, hParts, hBefore, hPart, hFault⟩
        cases before with
        | nil =>
          obtain ⟨rfl, rfl⟩ := List.cons.inj hParts
          exact .inl ⟨hPart, hFault⟩
        | cons p before =>
          obtain ⟨rfl, rfl⟩ := List.cons.inj hParts
          obtain ⟨hFirst, hBefore⟩ := List.forall_mem_cons.mp hBefore
          exact .inr ⟨hFirst, before, part, after, rfl, hBefore, hPart, hFault⟩
      · rintro (⟨hPart, hFault⟩ | ⟨hFirst, before, part, after, rfl, hBefore, hPart, hFault⟩)
        · exact ⟨[], first, parts, rfl, by simp, hPart, hFault⟩
        · exact ⟨first :: before, part, after, rfl,
            List.forall_mem_cons.mpr ⟨hFirst, hBefore⟩, hPart, hFault⟩
    rw [hSplit]
    cases hFirst : isBlank first with
    | true => simp [readParts_blank hFirst]
    | false =>
      rw [readParts_cons hFirst, ← @Parameter.exists_ofPart_trim_iff function,
        ← Parameter.ofPart_trim_eq_error_iff]
      cases Parameter.ofPart function (trim first) <;> cases readParts function parts <;>
        simp [bind, Except.bind, pure, Except.pure]

end Parts

-- ---------------------------------------------------------------------------
-- Signatures
-- ---------------------------------------------------------------------------

/-- Parts of a split do not hold what the text was split at. -/
theorem not_mem_of_mem_splitOn {c : Char} {s part : List Char} (h : part ∈ s.splitOn c) :
    c ∉ part := by
  induction s generalizing part with
  | nil =>
    obtain rfl : part = [] := by simpa using h
    exact List.not_mem_nil
  | cons d r ih =>
    rw [List.splitOn_cons_eq_if_modifyHead] at h
    split at h
    case isTrue =>
      obtain rfl | hRest := List.mem_cons.mp h
      · exact List.not_mem_nil
      · exact ih hRest
    case isFalse hOther =>
      obtain ⟨first, rest, hSplit⟩ := List.exists_cons_of_ne_nil (List.splitOn_ne_nil c r)
      rw [hSplit, List.modifyHead_cons, List.mem_cons] at h
      rw [hSplit] at ih
      obtain rfl | hRest := h
      · have hFirst : c ∉ first := ih List.mem_cons_self
        have hNe : c ≠ d := fun hEq => hOther (beq_iff_eq.mpr hEq.symm)
        simp [hFirst, hNe]
      · exact ih (List.mem_cons_of_mem _ hRest)

/-- A spelling of one parameter holds no comma. -/
theorem SpellsParameter.comma_not_mem {p : Parameter} {part : List Char}
    (h : SpellsParameter p part) : ',' ∉ part := by
  obtain ⟨hPlain, before, after, left, right, word, hBefore, hAfter, hLeft, hRight, hWord, rfl⟩ := h
  have hBlank {b : List Char} (hb : isBlank b = true) : ',' ∉ b :=
    not_mem_of_isBlank hb (by decide)
  have hType : ',' ∉ word.toList := fun hMem => (hWord.plain _ hMem).2.1 rfl
  have hMark : ',' ∉ optionalMark p.isOptional := by cases p.isOptional <;> decide
  simp [hBlank hBefore, hBlank hAfter, hBlank hLeft, hBlank hRight, hPlain.comma, hType, hMark]

/-- So no part is split further. -/
theorem SpellsParameters.comma_not_mem {ps : List Parameter} {parts : List (List Char)}
    (h : SpellsParameters ps parts) : ∀ part ∈ parts, ',' ∉ part := by
  induction h with
  | nil => simp
  | blank hBlank _ ih =>
    exact List.forall_mem_cons.mpr ⟨not_mem_of_isBlank hBlank (by decide), ih⟩
  | cons hFirst _ ih => exact List.forall_mem_cons.mpr ⟨hFirst.comma_not_mem, ih⟩

/-- **Signatures.** A signature is read exactly if it is written by the rules, and as what it
spells. -/
theorem parseSignature_eq_ok_iff {function signature : String} {ps : List Parameter} :
    parseSignature function signature = .ok ps ↔ SpellsSignature ps signature := by
  rw [parseSignature_eq_readParts]
  constructor
  · intro h
    have hParts := (readParts_eq_ok_iff fun _ => not_mem_of_mem_splitOn).mp h
    exact ⟨_, hParts, (List.intercalate_splitOn ',').symm⟩
  · rintro ⟨parts, hParts, hSignature⟩
    cases parts with
    | nil =>
      cases hParts
      rw [hSignature]
      rfl
    | cons part rest =>
      rw [hSignature, List.splitOn_intercalate _ hParts.comma_not_mem (List.cons_ne_nil _ _)]
      exact (readParts_eq_ok_iff hParts.comma_not_mem).mpr hParts

/--
**What is written is read, and nothing else.** A signature gives the parameters that it spells: each
written as its name, a colon, a word for its type and the mark of an optional one, with blanks
around the name and around word and mark, and with commas and any number of blank parts between
them. There are such parameters exactly if every part that is not blank has a colon, and a word for
a type behind the first one. If not, the error is that of the leftmost part of which this is not so.
-/
theorem signatures_are_read_part_by_part (function signature : String) :
    (∀ ps, parseSignature function signature = .ok ps ↔ SpellsSignature ps signature) ∧
    ((∃ ps, parseSignature function signature = .ok ps) ↔
      ∀ part ∈ signature.toList.splitOn ',', isBlank part = false → IsTyped part) ∧
    ∀ e, parseSignature function signature = .error e ↔
      ∃ before part after, signature.toList.splitOn ',' = before ++ part :: after ∧
        (∀ p ∈ before, isBlank p = true ∨ IsTyped p) ∧ isBlank part = false ∧
          PartFault function part e :=
  ⟨fun _ => parseSignature_eq_ok_iff, exists_readParts_iff, fun _ => readParts_eq_error_iff⟩

/-- A name may be empty, and a second mark belongs to the word. -/
example : parseSignature "join" " a :\u3000ip? ,, b : date,:list" =
      .ok [.optional "a" .ipAddress, .required "b" .dateTime, .required "" .list] ∧
    parseSignature "join" "a:list??" =
      .error (.invalidDescriptor "list?" (.unknownType "list?")) := by
  constructor <;> with_unfolding_all rfl

end RuleBlocks
