import Memcore.Domain.JsonReader
import Memcore.Engine.Operations

/-!
# Equal cache keys are keys of equal requests

A key of the context cache consists of the tenant, a hash of the query and a hash of
the printed options. The printed options can be read back, whatever the platform
prints for a float, since no option is one; so as long as the texts that are hashed
do not collide, a key determines every field of the request. Nothing is asked of the
hash for other texts.
-/
namespace Memcore

open Programs

/-! ## The printed options determine the options -/

theorem MemoryType.snakeCase_injective : Function.Injective MemoryType.snakeCase := by
  intro left right same
  cases left <;> cases right <;> first | rfl | simp [MemoryType.snakeCase] at same

theorem ContextFormat.snakeCase_injective : Function.Injective ContextFormat.snakeCase := by
  intro left right same
  cases left <;> cases right <;> first | rfl | simp [ContextFormat.snakeCase] at same

theorem ContextCompressionMode.snakeCase_injective :
    Function.Injective ContextCompressionMode.snakeCase := by
  intro left right same
  cases left <;> cases right <;> first | rfl | simp [ContextCompressionMode.snakeCase] at same

/-- The memory types asked for, as they are printed. -/
def memoryTypesValue (memoryTypes : Option (List MemoryType)) : Value :=
  memoryTypes.elim .null fun types =>
    .array (types.map fun memoryType => .string memoryType.snakeCase)

def formatOptionsValue (format : ContextFormatOptions) : Value := .object [
  ("format", .string format.format.snakeCase),
  ("section_by_memory_type", .bool format.sectionByMemoryType),
  ("include_memory_ids", .bool format.includeMemoryIds),
  ("include_memory_types", .bool format.includeMemoryTypes),
  ("include_scores", .bool format.includeScores),
  ("include_timestamps", .bool format.includeTimestamps),
  ("include_confidence", .bool format.includeConfidence),
  ("include_importance", .bool format.includeImportance)]

def compressionOptionsValue (compression : ContextCompressionOptions) : Value := .object [
  ("mode", .string compression.mode.snakeCase),
  ("summary_max_tokens", .integer compression.summaryMaxTokens),
  ("include_summary_section", .bool compression.includeSummarySection)]

def fingerprintValue (input : BuildContextInput) : Value := .object [
  ("max_memories", .integer input.maxMemories),
  ("memory_types", memoryTypesValue input.memoryTypes),
  ("include_metadata", .bool input.includeMetadata),
  ("max_tokens", .integer input.budget.maxTokens),
  ("reserved_tokens", .integer input.budget.reservedTokens),
  ("format_options", formatOptionsValue input.formatOptions),
  ("compression_options", compressionOptionsValue input.compressionOptions)]

theorem optionsFingerprintJson_eq (platform : Platform) (input : BuildContextInput) :
    optionsFingerprintJson platform input =
      (fingerprintValue input).print platform.formatFloat := rfl

theorem memoryTypesValue_injective : Function.Injective memoryTypesValue := by
  intro left right same
  cases left with
  | none => cases right <;> first | rfl | simp [memoryTypesValue] at same
  | some types =>
    cases right with
    | none => simp [memoryTypesValue] at same
    | some others =>
      have names := Value.array.inj same
      refine congrArg some (List.map_injective_iff.mpr ?_ names)
      intro first second sameName
      exact MemoryType.snakeCase_injective (Value.string.inj sameName)

theorem formatOptionsValue_injective : Function.Injective formatOptionsValue := by
  rintro ⟨format⟩ ⟨other⟩ same
  simp only [formatOptionsValue, Value.object.injEq, List.cons.injEq, Prod.mk.injEq,
    Value.string.injEq, Value.bool.injEq, true_and, and_true] at same
  obtain ⟨sameFormat, rfl, rfl, rfl, rfl, rfl, rfl, rfl⟩ := same
  rw [ContextFormat.snakeCase_injective sameFormat]

theorem compressionOptionsValue_injective : Function.Injective compressionOptionsValue := by
  rintro ⟨mode⟩ ⟨other⟩ same
  simp only [compressionOptionsValue, Value.object.injEq, List.cons.injEq, Prod.mk.injEq,
    Value.string.injEq, Value.bool.injEq, Value.integer.injEq, Nat.cast_inj, true_and,
    and_true] at same
  obtain ⟨sameMode, rfl, rfl⟩ := same
  rw [ContextCompressionMode.snakeCase_injective sameMode]

/-- Everything in a request but the tenant and the query is in its fingerprint. -/
theorem fingerprintValue_injective {input other : BuildContextInput}
    (same : fingerprintValue input = fingerprintValue other) :
    other = { input with tenant := other.tenant, query := other.query } := by
  obtain ⟨tenant, query, maxMemories, types, metadata, ⟨maxTokens, reserved⟩, format,
    compression⟩ := input
  obtain ⟨otherTenant, otherQuery, otherMemories, otherTypes, otherMetadata,
    ⟨otherTokens, otherReserved⟩, otherFormat, otherCompression⟩ := other
  simp only [fingerprintValue, Value.object.injEq, List.cons.injEq, Prod.mk.injEq,
    Value.bool.injEq, Value.integer.injEq, Nat.cast_inj, true_and, and_true] at same
  obtain ⟨rfl, sameTypes, rfl, rfl, rfl, sameFormat, sameCompression⟩ := same
  obtain rfl := memoryTypesValue_injective sameTypes
  obtain rfl := formatOptionsValue_injective sameFormat
  obtain rfl := compressionOptionsValue_injective sameCompression
  rfl

/-! ## No option is a float -/

theorem print_memoryTypesValue (formatFloat otherFormat : ℚ → String)
    (memoryTypes : Option (List MemoryType)) :
    (memoryTypesValue memoryTypes).print formatFloat =
      (memoryTypesValue memoryTypes).print otherFormat := by
  cases memoryTypes with
  | none => rfl
  | some types =>
    simp only [memoryTypesValue, Option.elim, Value.print, Value.printItems_eq_map, List.map_map,
      Function.comp_def]

/-- The fingerprint is printed in one way, whatever is printed for a float. -/
theorem print_fingerprintValue (formatFloat otherFormat : ℚ → String)
    (input : BuildContextInput) :
    (fingerprintValue input).print formatFloat = (fingerprintValue input).print otherFormat := by
  simp only [fingerprintValue, formatOptionsValue, compressionOptionsValue, Value.print,
    Value.printMembers, print_memoryTypesValue formatFloat otherFormat]

theorem mapFloats_fingerprintValue (change : ℚ → ℚ) (input : BuildContextInput) :
    (fingerprintValue input).mapFloats change = fingerprintValue input := by
  have types : (memoryTypesValue input.memoryTypes).mapFloats change =
      memoryTypesValue input.memoryTypes := by
    cases input.memoryTypes with
    | none => rfl
    | some types =>
      simp only [memoryTypesValue, Option.elim, Value.mapFloats, Value.mapItems_eq_map,
        List.map_map, Function.comp_def]
  simp only [fingerprintValue, formatOptionsValue, compressionOptionsValue, Value.mapFloats,
    Value.mapMembers, types]

/-- Requests with the same printed options have the same options. -/
theorem optionsFingerprintJson_injective {platform : Platform} {input other : BuildContextInput}
    (same : optionsFingerprintJson platform input = optionsFingerprintJson platform other) :
    other = { input with tenant := other.tenant, query := other.query } := by
  have readBack (request : BuildContextInput) :
      Value.read (fun _ => some 0) (optionsFingerprintJson platform request) =
        some (fingerprintValue request) := by
    rw [optionsFingerprintJson_eq, print_fingerprintValue _ (fun _ => "0.0"),
      Value.read_print Value.floatTexts_constant, mapFloats_fingerprintValue]
  have sameValue : some (fingerprintValue input) = some (fingerprintValue other) := by
    rw [← readBack input, ← readBack other, same]
  exact fingerprintValue_injective (Option.some.inj sameValue)

/-! ## Keys -/

/-- The texts that are hashed for a key. -/
def hashedTexts (platform : Platform) (input : BuildContextInput) : Set String :=
  {input.query, optionsFingerprintJson platform input}

/-- A key determines the request, unless texts hashed for the two requests collide. -/
theorem buildContextCacheKey_injective {platform : Platform} {input other : BuildContextInput}
    (noCollision : Set.InjOn platform.stableSha256Hex
      (hashedTexts platform input ∪ hashedTexts platform other))
    (sameKey : buildContextCacheKey platform input = buildContextCacheKey platform other) :
    input = other := by
  simp only [buildContextCacheKey, ContextCacheKey.mk.injEq] at sameKey
  obtain ⟨sameOrg, sameUser, sameQueryHash, sameOptionsHash⟩ := sameKey
  have sameQuery : input.query = other.query :=
    noCollision (.inl (.inl rfl)) (.inr (.inl rfl)) sameQueryHash
  have sameOptions : optionsFingerprintJson platform input =
      optionsFingerprintJson platform other :=
    noCollision (.inl (.inr rfl)) (.inr (.inr rfl)) sameOptionsHash
  have sameTenant : input.tenant = other.tenant := by
    show TenantContext.mk input.tenant.orgId input.tenant.userId = _
    rw [sameOrg, sameUser]
  rw [optionsFingerprintJson_injective sameOptions, ← sameTenant, ← sameQuery]

/-- Requests with the same key have the same uncached contexts, from any stores and
with any behaviour of the ports. -/
theorem equal_keys_equal_contexts (engine : MemoryEngine) {input other : BuildContextInput}
    (noCollision : Set.InjOn engine.platform.stableSha256Hex
      (hashedTexts engine.platform input ∪ hashedTexts engine.platform other))
    (sameKey : buildContextCacheKey engine.platform input =
      buildContextCacheKey engine.platform other) :
    input = other ∧ ∀ world trace outcome final,
      Runs (engineServer engine.platform) anyChoice (buildContextUncached engine input) world
          trace outcome final ↔
        Runs (engineServer engine.platform) anyChoice (buildContextUncached engine other) world
          trace outcome final := by
  obtain rfl := buildContextCacheKey_injective noCollision sameKey
  exact ⟨rfl, fun _ _ _ _ => Iff.rfl⟩

/-- The two digests of a request differ, and so its texts do not collide. -/
theorem equal_keys_equal_contexts_sample :
    sampleContext = sampleContext ∧ ∀ world trace outcome final,
      Runs (engineServer Platform.sample) anyChoice
          (buildContextUncached (.new .sample) sampleContext) world trace outcome final ↔
        Runs (engineServer Platform.sample) anyChoice
          (buildContextUncached (.new .sample) sampleContext) world trace outcome final := by
  refine equal_keys_equal_contexts (.new .sample) ?_ rfl
  rw [Set.union_self]
  have apart : "37290d74ac4d186e3a8e5785d259d2ec04fac91ae28092e7620ec8bc99e830aa" ≠
      "dcf8965e9a1f128eceae8c13513be52b86a11b071f524d5fe494b16b195951f8" := by decide
  have same_of {text : String} (digest : Platform.sample.stableSha256Hex "coffee" =
      Platform.sample.stableSha256Hex text) : "coffee" = text := by
    by_contra different
    refine apart ?_
    simpa only [Platform.sample, if_true, if_neg (Ne.symm different)] using digest
  rintro left (rfl | rfl) right (rfl | rfl) digest
  · rfl
  · exact same_of digest
  · exact (same_of digest.symm).symm
  · rfl

end Memcore
