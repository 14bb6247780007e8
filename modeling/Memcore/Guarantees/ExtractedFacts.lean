import Memcore.Domain.JsonReader
import Memcore.Providers.OpenAiLlm

/-!
# Facts that the model extracts

The instructions name eight memory types, of which the parser of labels knows two. A fact of any
other type is left out without an error. What else the schema and the instructions ask for is
enough: a response that conforms to the schema is read, and its facts pass the checks on candidates.
A number too large for single precision counts as zero.
-/
namespace Memcore

/-- A property of an object. -/
def Value.member (name : String) (value : Value) : Option Value :=
  value.asObject.bind (Value.lookup name)

/-- A label that the instructions allow, as they write it or in snake case. -/
def Instructed (label : String) : Prop :=
  label ∈ instructedMemoryTypes ∨ ∃ written ∈ instructedMemoryTypes, label = toSnakeCase written

/-- The labels of facts that are kept. -/
def knownLabels : List String := ["Preference", "Profile", "preference", "profile"]

/-- What the instructions ask of a fact beyond the schema. -/
structure AsInstructed (library : JsonLibrary) (fact : Value) : Prop where
  content : ∃ text, fact.member "content" = some (.string text) ∧ Texts.isBlank text = false
  validAt : fact.member "valid_at" = some .null ∨ ∃ text instant,
    fact.member "valid_at" = some (.string text) ∧ library.parseDateTime text = some instant
  memoryType : ∃ label, fact.member "memory_type" = some (.string label) ∧ Instructed label

/-- The number of a property, moved into the unit interval. -/
def ClampedFrom (fact : Value) (name : String) (clamped : ℚ) : Prop :=
  ∃ number, (fact.member name).bind Value.asNumber = some number ∧
    clamped = max 0 (min 1 number)

/-- A candidate with the content, metadata and numbers of a fact. -/
structure Represents (fact : Value) (candidate : CandidateFact) : Prop where
  content : fact.member "content" = some (.string candidate.content)
  metadata : fact.member "metadata" = some candidate.metadata
  confidence : ClampedFrom fact "confidence" candidate.confidence
  importance : ClampedFrom fact "importance" candidate.importance

/-- A fact of a known type whose numbers are not too large. -/
structure Usable (fact : Value) : Prop where
  memoryType : ∃ label ∈ knownLabels, fact.member "memory_type" = some (.string label)
  confidence : ∀ number, (fact.member "confidence").bind Value.asNumber = some number →
    number < singleOverflow
  importance : ∀ number, (fact.member "importance").bind Value.asNumber = some number →
    number < singleOverflow

/-- The facts of a response. -/
def factsOf (document : Value) : List Value :=
  match document.member "facts" with
  | some (.array facts) => facts
  | _ => []

/-- Of the labels that the instructions allow, the known ones are understood. -/
theorem parse_instructed :
    ∀ label ∈ instructedMemoryTypes ++ instructedMemoryTypes.map toSnakeCase,
      (parseMemoryTypeLabel label).toOption.isSome = decide (label ∈ knownLabels) := by
  decide

theorem parse_instructed_iff {label : String} (instructed : Instructed label) :
    (∃ memoryType, parseMemoryTypeLabel label = .ok memoryType) ↔ label ∈ knownLabels := by
  have listed : label ∈ instructedMemoryTypes ++ instructedMemoryTypes.map toSnakeCase := by
    rcases instructed with written | ⟨written, member, rfl⟩
    · exact List.mem_append_left _ written
    · exact List.mem_append_right _ (List.mem_map_of_mem member)
  have understood := parse_instructed label listed
  cases parsed : parseMemoryTypeLabel label with
  | error failure =>
    rw [parsed] at understood
    simpa [Except.toOption] using understood
  | ok memoryType =>
    rw [parsed] at understood
    simpa [Except.toOption] using understood.symm

/-! ## Reading -/

/-- What is read from a fact. -/
structure ReadFrom (fact : Value) (parsed : FactExtractionModelFact) : Prop where
  content : fact.member "content" = some (.string parsed.content)
  memoryType : fact.member "memory_type" = some (.string parsed.memoryType)
  confidence : ∃ number, (fact.member "confidence").bind Value.asNumber = some number ∧
    parsed.confidence = asSingle number
  importance : ∃ number, (fact.member "importance").bind Value.asNumber = some number ∧
    parsed.importance = asSingle number
  metadata : fact.member "metadata" = some parsed.metadata

/-- The schema of one fact. -/
def factSchema : JsonSchema :=
  .objectOf [("content", .ofTypes [.string]), ("memory_type", .ofTypes [.string]),
    ("confidence", .ofTypes [.number]), ("importance", .ofTypes [.number]),
    ("valid_at", .ofTypes [.string, .null]), ("metadata", .ofTypes [.object])] factFields

theorem asText_of_conforms {value : Value}
    (conforming : (JsonSchema.ofTypes [.string]).conforms value = true) :
    ∃ text, value = .string text := by
  cases value <;> simp_all [JsonSchema.conforms, JsonType.admitsValue]

theorem asNumber_of_conforms {value : Value}
    (conforming : (JsonSchema.ofTypes [.number]).conforms value = true) :
    ∃ number, value.asNumber = some number := by
  cases value <;> simp_all [JsonSchema.conforms, JsonType.admitsValue, Value.asNumber]

/-- A structure is read from an object that has each name once. -/
theorem fieldsOf_object {members : List (String × Value)}
    (distinct : (members.map Prod.fst).Nodup) (names : List String) :
    Value.fieldsOf names (.object members) = some members :=
  if_pos (distinct.filter _)

/-- A conforming fact is read, once its date can be. -/
theorem readFact_of_conforms (library : JsonLibrary) {fact : Value}
    (conforming : factSchema.conforms fact = true) (instructed : AsInstructed library fact) :
    ∃ parsed, library.readFact fact = some parsed ∧ ReadFrom fact parsed := by
  obtain ⟨members, rfl, distinct, property⟩ := JsonSchema.objectOf_conforms _ _ _ conforming
  obtain ⟨content, hasContent, contentText⟩ := property "content" (by decide)
  obtain ⟨label, hasLabel, labelText⟩ := property "memory_type" (by decide)
  obtain ⟨confidence, hasConfidence, confidenceNumber⟩ := property "confidence" (by decide)
  obtain ⟨importance, hasImportance, importanceNumber⟩ := property "importance" (by decide)
  obtain ⟨metadata, hasMetadata, _⟩ := property "metadata" (by decide)
  obtain ⟨contentOf, rfl⟩ := asText_of_conforms contentText
  obtain ⟨labelOf, rfl⟩ := asText_of_conforms labelText
  obtain ⟨confidenceOf, isConfidence⟩ := asNumber_of_conforms confidenceNumber
  obtain ⟨importanceOf, isImportance⟩ := asNumber_of_conforms importanceNumber
  have date : ∃ validAt, library.optionalDate (Value.lookup "valid_at" members) = some validAt := by
    rcases instructed.validAt with absent | ⟨text, instant, given, parsed⟩
    · exact ⟨none, by rw [show Value.lookup "valid_at" members = some .null from absent]; rfl⟩
    · refine ⟨some instant, ?_⟩
      rw [show Value.lookup "valid_at" members = some (.string text) from given]
      simp [JsonLibrary.optionalDate, parsed]
  obtain ⟨validAt, dated⟩ := date
  refine ⟨⟨contentOf, labelOf, asSingle confidenceOf, asSingle importanceOf, validAt, metadata⟩, ?_,
    hasContent, hasLabel, ⟨confidenceOf, ?_, rfl⟩, ⟨importanceOf, ?_, rfl⟩, hasMetadata⟩
  · simp only [JsonLibrary.readFact, fieldsOf_object distinct, hasContent, hasLabel,
      hasConfidence, hasImportance, hasMetadata, isConfidence, isImportance, dated, Value.asText,
      Option.bind_some, Option.getD_some, Option.bind_eq_bind, Option.pure_def]
  · rw [show (Value.object members).member "confidence" = some confidence from hasConfidence]
    exact isConfidence
  · rw [show (Value.object members).member "importance" = some importance from hasImportance]
    exact isImportance

theorem readFacts_of_conforms (library : JsonLibrary) {facts : List Value}
    (conforming : ∀ fact ∈ facts, factSchema.conforms fact = true)
    (instructed : ∀ fact ∈ facts, AsInstructed library fact) :
    ∃ parsed, facts.mapM library.readFact = some parsed ∧ List.Forall₂ ReadFrom facts parsed := by
  induction facts with
  | nil => exact ⟨[], rfl, .nil⟩
  | cons fact rest inductionHypothesis =>
    obtain ⟨conforms, restConform⟩ := List.forall_mem_cons.mp conforming
    obtain ⟨asTold, restAsTold⟩ := List.forall_mem_cons.mp instructed
    obtain ⟨first, readFirst, firstFrom⟩ := readFact_of_conforms library conforms asTold
    obtain ⟨later, readLater, laterFrom⟩ := inductionHypothesis restConform restAsTold
    refine ⟨first :: later, ?_, .cons firstFrom laterFrom⟩
    rw [List.mapM_cons, readFirst, readLater]
    rfl

/-- A conforming response is read fact by fact. -/
theorem fromStr_of_conforms (library : JsonLibrary) {text : String} {document : Value}
    (parsed : library.parse text = .ok document)
    (conforming : factExtractionJsonSchema.conforms document = true)
    (instructed : ∀ fact ∈ factsOf document, AsInstructed library fact) :
    ∃ facts, library.fromStr text = .ok ⟨facts⟩ ∧
      List.Forall₂ ReadFrom (factsOf document) facts := by
  obtain ⟨members, rfl, distinct, property⟩ := JsonSchema.objectOf_conforms _ _ _ conforming
  obtain ⟨value, held, valid⟩ := property "facts" (List.mem_singleton_self _)
  obtain ⟨items, rfl, itemsConform⟩ := (JsonSchema.arrayOf_conforms factSchema value).mp valid
  have same : factsOf (.object members) = items := by
    rw [factsOf, show (Value.object members).member "facts" = some (.array items) from held]
  rw [same] at instructed ⊢
  obtain ⟨facts, read, readFrom⟩ := readFacts_of_conforms library itemsConform instructed
  refine ⟨facts, ?_, readFrom⟩
  simp only [JsonLibrary.fromStr, parsed, JsonLibrary.readResponse, fieldsOf_object distinct, held,
    read, Option.bind_eq_bind, Option.bind_some, Option.map_some]

/-! ## Candidates -/

theorem clampUnitInterval_valid (value : Single) :
    0 ≤ clampUnitInterval value ∧ clampUnitInterval value ≤ 1 := by
  cases value with
  | finite value => exact ⟨le_max_left _ _, max_le zero_le_one (min_le_left _ _)⟩
  | infinite negative => exact ⟨le_refl 0, zero_le_one⟩

/-- A number is clamped as it is in single precision, exactly when it does not overflow upwards. -/
theorem clampUnitInterval_asSingle_iff (number : ℚ) :
    clampUnitInterval (asSingle number) = max 0 (min 1 number) ↔ number < singleOverflow := by
  have large : (1 : ℚ) < singleOverflow := by norm_num [singleOverflow]
  unfold asSingle
  split
  · rename_i overflow
    rcases le_abs.mp overflow with above | below
    · have clamped : max 0 (min 1 number) = 1 := by
        rw [min_eq_left (by linarith), max_eq_right zero_le_one]
      rw [clampUnitInterval, clamped]
      exact iff_of_false zero_ne_one (not_lt.mpr above)
    · have clamped : max 0 (min 1 number) = 0 :=
        max_eq_left ((min_le_right _ _).trans (by linarith))
      rw [clampUnitInterval, clamped]
      exact iff_of_true rfl (by linarith)
  · rename_i within
    exact iff_of_true rfl (abs_lt.mp (not_le.mp within)).2

/-- A number of a property that was read is clamped from it exactly when it does not overflow. -/
theorem clampedFrom_iff {fact : Value} {name : String} {single : Single}
    (read : ∃ number, (fact.member name).bind Value.asNumber = some number ∧
      single = asSingle number) :
    ClampedFrom fact name (clampUnitInterval single) ↔
      ∀ number, (fact.member name).bind Value.asNumber = some number →
        number < singleOverflow := by
  obtain ⟨number, held, rfl⟩ := read
  simp only [ClampedFrom, held, Option.some.injEq, exists_eq_left', forall_eq']
  exact clampUnitInterval_asSingle_iff number

/-- The candidate of a fact with content, if its label is understood. -/
theorem candidate?_eq_some (fact : FactExtractionModelFact)
    (solid : Texts.isBlank fact.content = false) (candidate : CandidateFact) :
    fact.candidate? = some candidate ↔
      ∃ memoryType, parseMemoryTypeLabel fact.memoryType = .ok memoryType ∧
        candidate = ⟨fact.content, memoryType, clampUnitInterval fact.confidence,
          clampUnitInterval fact.importance, fact.validAt, fact.metadata⟩ := by
  unfold FactExtractionModelFact.candidate?
  cases parsed : parseMemoryTypeLabel fact.memoryType with
  | error failure => simp
  | ok memoryType =>
    have valid : CandidateFact.new ⟨fact.content, memoryType, clampUnitInterval fact.confidence,
        clampUnitInterval fact.importance, fact.validAt, fact.metadata⟩ =
          .ok ⟨fact.content, memoryType, clampUnitInterval fact.confidence,
            clampUnitInterval fact.importance, fact.validAt, fact.metadata⟩ := by
      rw [CandidateFact.new, check_then_ok, check_then_ok, check_then_ok]
      exact ⟨(validateNonEmpty_ok _ _).mpr solid,
        (validateUnitInterval_ok _ _).mpr (clampUnitInterval_valid _),
        (validateUnitInterval_ok _ _).mpr (clampUnitInterval_valid _), rfl⟩
    simp only [valid, Option.some.injEq, Except.ok.injEq, exists_eq_left']
    exact eq_comm

/-- A fact whose label is not understood is left out. -/
theorem candidate?_eq_none {fact : FactExtractionModelFact} {failure : MemcoreError}
    (unknown : parseMemoryTypeLabel fact.memoryType = .error failure) :
    fact.candidate? = none := by
  unfold FactExtractionModelFact.candidate?
  cases parsed : parseMemoryTypeLabel fact.memoryType with
  | error other => rfl
  | ok memoryType =>
    rw [parsed] at unknown
    cases unknown

/-- A fact becomes a candidate that represents it exactly when it is usable. -/
theorem represented_iff {library : JsonLibrary} {fact : Value} {parsed : FactExtractionModelFact}
    (instructed : AsInstructed library fact) (read : ReadFrom fact parsed) :
    (∃ candidate, parsed.candidate? = some candidate ∧ Represents fact candidate) ↔
      Usable fact := by
  have solid : Texts.isBlank parsed.content = false := by
    obtain ⟨text, held, solid⟩ := instructed.content
    rw [read.content] at held
    cases held
    exact solid
  have allowed : Instructed parsed.memoryType := by
    obtain ⟨label, held, allowed⟩ := instructed.memoryType
    rw [read.memoryType] at held
    cases held
    exact allowed
  have understood := parse_instructed_iff allowed
  constructor
  · rintro ⟨candidate, made, represents⟩
    obtain ⟨memoryType, named, rfl⟩ := (candidate?_eq_some parsed solid candidate).mp made
    exact ⟨⟨parsed.memoryType, understood.mp ⟨memoryType, named⟩, read.memoryType⟩,
      (clampedFrom_iff read.confidence).mp represents.confidence,
      (clampedFrom_iff read.importance).mp represents.importance⟩
  · rintro ⟨⟨label, known, held⟩, confidence, importance⟩
    rw [read.memoryType] at held
    cases held
    obtain ⟨memoryType, named⟩ := understood.mpr known
    exact ⟨_, (candidate?_eq_some parsed solid _).mpr ⟨memoryType, named, rfl⟩, read.content,
      read.metadata, (clampedFrom_iff read.confidence).mpr confidence,
      (clampedFrom_iff read.importance).mpr importance⟩

/-- One candidate for each fact is one for every single fact: a fact that is left out makes the list
of candidates too short. -/
theorem all_represented_iff {library : JsonLibrary} {facts : List Value}
    {parsed : List FactExtractionModelFact}
    (instructed : ∀ fact ∈ facts, AsInstructed library fact)
    (read : List.Forall₂ ReadFrom facts parsed) :
    List.Forall₂ Represents facts (parsed.filterMap (·.candidate?)) ↔
      ∀ fact ∈ facts, Usable fact := by
  induction read with
  | nil => exact iff_of_true .nil (List.forall_mem_nil _)
  | @cons fact first facts rest readFirst readRest inductionHypothesis =>
    obtain ⟨asTold, restAsTold⟩ := List.forall_mem_cons.mp instructed
    have following := inductionHypothesis restAsTold
    have one := represented_iff asTold readFirst
    rw [List.forall_mem_cons]
    cases made : first.candidate? with
    | none =>
      rw [List.filterMap_cons_none made]
      refine iff_of_false (fun all => ?_) (fun usable => ?_)
      · have short := List.length_filterMap_le FactExtractionModelFact.candidate? rest
        have long := all.length_eq
        have paired := readRest.length_eq
        rw [List.length_cons] at long
        omega
      · obtain ⟨candidate, exists_, _⟩ := one.mpr usable.1
        rw [made] at exists_
        cases exists_
    | some candidate =>
      rw [List.filterMap_cons_some made, List.forall₂_cons, following]
      refine and_congr_left fun _ => ?_
      rw [← one]
      constructor
      · intro represents
        exact ⟨candidate, made, represents⟩
      · rintro ⟨other, same, represents⟩
        rw [made] at same
        cases same
        exact represents

/-- No fact of a conforming response is dropped or changed exactly when all of them are of a type
that the parser of labels knows and no number overflows single precision. -/
theorem no_fact_dropped_iff (library : JsonLibrary) (text : String) (document : Value)
    (parsed : library.parse text = .ok document)
    (conforming : factExtractionJsonSchema.conforms document = true)
    (instructed : ∀ fact ∈ factsOf document, AsInstructed library fact) :
    (∃ candidates, parseFactExtractionResponse library text = .ok candidates ∧
        List.Forall₂ Represents (factsOf document) candidates) ↔
      ∀ fact ∈ factsOf document, Usable fact := by
  obtain ⟨facts, read, readFrom⟩ := fromStr_of_conforms library parsed conforming instructed
  have result : parseFactExtractionResponse library text =
      .ok (facts.filterMap (·.candidate?)) := by
    rw [parseFactExtractionResponse, read]
  rw [result]
  simp only [Except.ok.injEq, exists_eq_left']
  exact all_represented_iff instructed readFrom

/-! ## Samples -/

/-- A response with one fact of a type. -/
def responseOf (label : String) : Value :=
  .object [("facts", .array [.object [("content", .string "Runs"), ("memory_type", .string label),
    ("confidence", .integer 1), ("importance", .integer 1), ("valid_at", .null),
    ("metadata", .object [])]])]

/-- The text of the response. -/
def responseText (label : String) : String :=
  Value.print (fun _ => "0.0") (responseOf label)

/-- A library that reads compact JSON and takes every fraction for zero. -/
def sampleLibrary : JsonLibrary where
  parse text :=
    match Value.read (fun _ => some 0) text with
    | some value => .ok value
    | none => .error "expected value"
  mismatch _ := "invalid type"
  parseDateTime _ := none

theorem parse_responseText (label : String) :
    sampleLibrary.parse (responseText label) = .ok (responseOf label) := by
  have read := Value.read_print Value.floatTexts_constant (responseOf label)
  simp only [sampleLibrary, responseText, read]
  rfl

theorem asInstructed_responseOf {label : String} (instructed : Instructed label) :
    ∀ fact ∈ factsOf (responseOf label), AsInstructed sampleLibrary fact := by
  intro fact member
  obtain rfl := List.mem_singleton.mp member
  exact ⟨⟨"Runs", rfl, by decide⟩, .inl rfl, ⟨label, rfl, instructed⟩⟩

/-- A profile is kept. -/
theorem no_fact_dropped_iff_sample :
    ∃ candidates, parseFactExtractionResponse sampleLibrary (responseText "Profile") =
        .ok candidates ∧ List.Forall₂ Represents (factsOf (responseOf "Profile")) candidates :=
  (no_fact_dropped_iff sampleLibrary (responseText "Profile") (responseOf "Profile")
    (parse_responseText _) (by decide +kernel) (asInstructed_responseOf (.inl (by decide)))).mpr (by
      intro fact member
      obtain rfl := List.mem_singleton.mp member
      refine ⟨⟨"Profile", by decide, rfl⟩, ?_, ?_⟩
      · rintro _ ⟨⟩
        norm_num [singleOverflow]
      · rintro _ ⟨⟩
        norm_num [singleOverflow])

/-- A goal is dropped, although the instructions allow it. -/
theorem goal_is_dropped :
    Instructed "Goal" ∧ factExtractionJsonSchema.conforms (responseOf "Goal") = true ∧
      parseFactExtractionResponse sampleLibrary (responseText "Goal") = .ok [] ∧
      ¬∃ candidates, parseFactExtractionResponse sampleLibrary (responseText "Goal") =
        .ok candidates ∧ List.Forall₂ Represents (factsOf (responseOf "Goal")) candidates := by
  have unknown : parseMemoryTypeLabel "Goal" =
      .error (.validationError "invalid memory_type from model: Goal") := by
    decide +kernel
  have dropped : parseFactExtractionResponse sampleLibrary (responseText "Goal") = .ok [] := by
    obtain ⟨facts, read, readFrom⟩ := fromStr_of_conforms sampleLibrary
      (parse_responseText "Goal") (by decide +kernel) (asInstructed_responseOf (.inl (by decide)))
    cases readFrom with
    | @cons _ fact _ rest readFact readRest =>
      cases readRest
      have label : "Goal" = fact.memoryType :=
        Value.string.inj (Option.some.inj readFact.memoryType)
      have leftOut : fact.candidate? = none := candidate?_eq_none (label ▸ unknown)
      rw [parseFactExtractionResponse, read]
      exact congrArg Except.ok (List.filterMap_cons_none leftOut)
  refine ⟨.inl (by decide), by decide +kernel, dropped, ?_⟩
  rintro ⟨candidates, result, represented⟩
  rw [dropped] at result
  cases result
  cases represented

end Memcore
