import Memcore.Context.Cache
import Memcore.Domain.JsonSchema
import Memcore.Engine.Ports
import Memcore.Foundations.ByteTexts

/-!
# A language model behind an OpenAI interface

The provider sends instructions and a JSON value and receives a text. For extraction of facts the
text is JSON, for which the provider sends along a schema; facts that cannot be used are left out.
For a summary the text is cut to the length that was asked for.

The client that sends the request is a parameter. So is the library that reads JSON and dates,
whose error texts are its own. Numbers are exact except that those too large for single precision
become infinite.
-/
namespace Memcore

open ByteTexts

/-! ## Labels -/

def toSnakeCaseFrom : ℕ → List Char → List Char
  | _, [] => []
  | index, character :: rest =>
      (if character.isUpper then
        (if 0 < index then ['_'] else []) ++ [character.toLower]
      else [character]) ++ toSnakeCaseFrom (index + 1) rest

/-- An underscore before every letter from A to Z but the first, which become lowercase. -/
def toSnakeCase (value : String) : String :=
  String.ofList (toSnakeCaseFrom 0 value.toList)

/-- The memory type that a label of the model names. -/
def parseMemoryTypeLabel (value : String) : MemcoreResult MemoryType :=
  match toSnakeCase (Texts.replace ' ' "_" (Texts.trim value)) with
  | "profile" => .ok .profile
  | "preference" => .ok .preference
  | "project" => .ok .project
  | "conversation" => .ok .conversation
  | "task" => .ok .task
  | "entity" => .ok .entity
  | "skill" => .ok .skill
  | "system" => .ok .system
  | _ => .error (.validationError ("invalid memory_type from model: " ++ value))

/-! ## Extraction of facts -/

/-- The memory types that the model is told to choose from. -/
def instructedMemoryTypes : List String :=
  ["Preference", "Profile", "Goal", "Relationship", "Event", "Knowledge", "Instruction", "Other"]

def factExtractionInstructions : String :=
  "You extract durable long-term memory facts from conversation messages.\n" ++
  "Rules:\n" ++
  "- Extract only useful, durable facts worth remembering later.\n" ++
  "- Do not store random short-lived details.\n" ++
  "- Do not store sensitive data unless the user clearly asks for it.\n" ++
  "- Prefer concise fact statements.\n" ++
  "- confidence and importance must be floating-point numbers between 0.0 and 1.0 inclusive.\n" ++
  "- memory_type must be one of: " ++ Texts.join ", " instructedMemoryTypes ++ ".\n" ++
  "- Return valid JSON only matching the schema.\n" ++
  "- Do not include markdown or commentary."

/-- The fields of an extracted fact, in the order of the structure. -/
def factFields : List String :=
  ["content", "memory_type", "confidence", "importance", "valid_at", "metadata"]

def factExtractionJsonSchema : JsonSchema :=
  .objectOf [("facts", .arrayOf (.objectOf
      [("content", .ofTypes [.string]), ("memory_type", .ofTypes [.string]),
        ("confidence", .ofTypes [.number]), ("importance", .ofTypes [.number]),
        ("valid_at", .ofTypes [.string, .null]), ("metadata", .ofTypes [.object])] factFields))]
    ["facts"]

/-- A number of single precision that can come from JSON. -/
inductive Single where
  | finite (value : ℚ)
  | infinite (negative : Bool)

/-- Numbers from here on are rounded to infinity. -/
def singleOverflow : ℚ := 2 ^ 128 - 2 ^ 103

def asSingle (value : ℚ) : Single :=
  if singleOverflow ≤ |value| then .infinite (decide (value < 0)) else .finite value

structure FactExtractionModelFact where
  content : String
  memoryType : String
  confidence : Single
  importance : Single
  validAt : Option Instant
  metadata : Value

structure FactExtractionModelResponse where
  facts : List FactExtractionModelFact

/-- The library that reads JSON and dates. -/
structure JsonLibrary where
  parse : String → Except String Value
  mismatch : Value → String
  parseDateTime : String → Option Instant

namespace JsonLibrary

variable (library : JsonLibrary)

/-- A date that may be absent or null. -/
def optionalDate : Option Value → Option (Option Instant)
  | none => some none
  | some .null => some none
  | some (.string text) => (library.parseDateTime text).map some
  | some _ => none

def readFact (value : Value) : Option FactExtractionModelFact := do
  let members ← Value.fieldsOf factFields value
  let content ← (Value.lookup "content" members).bind Value.asText
  let memoryType ← (Value.lookup "memory_type" members).bind Value.asText
  let confidence ← (Value.lookup "confidence" members).bind Value.asNumber
  let importance ← (Value.lookup "importance" members).bind Value.asNumber
  let validAt ← library.optionalDate (Value.lookup "valid_at" members)
  return {
    content := content
    memoryType := memoryType
    confidence := asSingle confidence
    importance := asSingle importance
    validAt := validAt
    metadata := (Value.lookup "metadata" members).getD .null }

def readResponse (value : Value) : Option FactExtractionModelResponse := do
  let members ← Value.fieldsOf ["facts"] value
  match Value.lookup "facts" members with
  | some (.array items) => (items.mapM library.readFact).map FactExtractionModelResponse.mk
  | _ => none

def fromStr (text : String) : Except String FactExtractionModelResponse :=
  match library.parse text with
  | .error failure => .error failure
  | .ok value =>
    match library.readResponse value with
    | some response => .ok response
    | none => .error (library.mismatch value)

end JsonLibrary

def clampUnitInterval : Single → ℚ
  | .infinite _ => 0
  | .finite value => max 0 (min 1 value)

def CandidateFact.new (candidate : CandidateFact) : MemcoreResult CandidateFact := do
  validateNonEmpty "content" candidate.content
  validateUnitInterval "confidence" candidate.confidence
  validateUnitInterval "importance" candidate.importance
  return candidate

/-- The candidate that an extracted fact becomes, unless it is left out. -/
def FactExtractionModelFact.candidate? (fact : FactExtractionModelFact) : Option CandidateFact :=
  match parseMemoryTypeLabel fact.memoryType with
  | .error _ => none
  | .ok memoryType =>
    match CandidateFact.new {
        content := fact.content
        memoryType := memoryType
        confidence := clampUnitInterval fact.confidence
        importance := clampUnitInterval fact.importance
        validAt := fact.validAt
        metadata := fact.metadata } with
    | .ok candidate => some candidate
    | .error _ => none

def parseFactExtractionResponse (library : JsonLibrary) (text : String) :
    MemcoreResult (List CandidateFact) :=
  match library.fromStr text with
  | .error failure =>
    .error (.providerError ("invalid fact extraction JSON from model: " ++ failure))
  | .ok parsed => .ok (parsed.facts.filterMap (·.candidate?))

/-! ## Requests -/

/-- The client and what it is asked for: a text that follows a schema, or any text. -/
structure OpenAiClient where
  requestJson : (instructions : String) → (input : Value) → (schemaName : String) →
    (schema : JsonSchema) → MemcoreResult String
  requestPlainText : (instructions : String) → (input : Value) → MemcoreResult String

def TenantContext.toJson (tenant : TenantContext) : Value :=
  .object [("org_id", .string tenant.orgId), ("user_id", .string tenant.userId)]

def MessageRole.label : MessageRole → String
  | user => "user"
  | assistant => "assistant"
  | system => "system"

def messagesToInput (messages : List MemoryMessage) : Value :=
  .array (messages.map fun message =>
    .object [("content", .string message.content), ("role", .string message.role.label)])

structure FactExtractionInput where
  tenant : TenantContext
  messages : List MemoryMessage
  metadata : Value

def extractFacts (client : OpenAiClient) (library : JsonLibrary) (input : FactExtractionInput) :
    MemcoreResult (List CandidateFact) := do
  let payload : Value := .object [("messages", messagesToInput input.messages),
    ("metadata", input.metadata), ("tenant", input.tenant.toJson)]
  let text ← client.requestJson factExtractionInstructions payload "memcore_fact_extraction"
    factExtractionJsonSchema
  parseFactExtractionResponse library text

/-! ## Summaries -/

def summarizationInstructions : String :=
  "You summarize memory facts into concise plain text for downstream context.\n" ++
  "Keep the summary short and factual.\n" ++
  "Do not use markdown unless it materially improves clarity."

structure SummarizationInput where
  tenant : TenantContext
  facts : List Fact
  maxTokens : Option ℕ

/-- The largest size. -/
def usizeMax : ℕ := 2 ^ 64 - 1

def usizeSaturatingMul (left right : ℕ) : ℕ := min (left * right) usizeMax

def SummarizationInput.payload (input : SummarizationInput) : Value :=
  .object [
    ("facts", .array (input.facts.map fun fact =>
      .object [("content", .string fact.content), ("importance", .float fact.importance),
        ("memory_type", .string fact.memoryType.snakeCase)])),
    ("max_tokens", match input.maxTokens with
      | some maxTokens => .integer maxTokens
      | none => .null),
    ("tenant", input.tenant.toJson)]

/-- The beginning of a summary, cut at a byte. -/
def cutSummary (summary : String) (maxTokens : Option ℕ) : Run String :=
  match maxTokens with
  | none => .ok summary
  | some maxTokens =>
    let maxChars := usizeSaturatingMul maxTokens 4
    if maxChars < byteLength summary.toList then
      (sliceTo maxChars summary.toList).map String.ofList
    else .ok summary

/-- A summary of facts. The program panics if the text is cut inside a character. -/
def summarizeMemory (client : OpenAiClient) (input : SummarizationInput) :
    Run (MemcoreResult String) :=
  match client.requestPlainText summarizationInstructions input.payload with
  | .error failure => .ok (.error failure)
  | .ok summary => (cutSummary summary input.maxTokens).map .ok

end Memcore
