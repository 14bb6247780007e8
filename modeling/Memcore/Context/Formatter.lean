import Memcore.Context.Options
import Memcore.Domain.Json

/-!
# Formatting of contexts

Ranked memories are rendered as plain text, as Markdown or as a JSON document,
optionally in one section for each memory type.
-/
namespace Memcore

/-- A memory prepared for formatting: the search result under another name. -/
abbrev ContextMemoryItem := MemorySearchResult

/-- The order of the sections. -/
def sectionOrder : List MemoryType :=
  [.profile, .preference, .project, .skill, .task, .entity, .conversation, .system]

def sectionTitle : MemoryType → String
  | .profile => "Profile"
  | .preference => "Preferences"
  | .project => "Projects"
  | .skill => "Skills"
  | .task => "Tasks"
  | .entity => "Entities"
  | .conversation => "Conversation"
  | .system => "System"

def memoryTypeLabel : MemoryType → String
  | .profile => "Profile"
  | .preference => "Preference"
  | .project => "Project"
  | .skill => "Skill"
  | .task => "Task"
  | .entity => "Entity"
  | .conversation => "Conversation"
  | .system => "System"

namespace ContextFormatter

variable (platform : Platform)

/-- Metadata worth showing: neither null nor an empty object. -/
def hasMetadata (memory : ContextMemoryItem) : Bool :=
  !memory.metadata.same .null && !memory.metadata.same (.object [])

/-- The requested details of a memory, each as a short text. -/
def metadataParts (memory : ContextMemoryItem) (options : ContextFormatOptions) : List String :=
  (if options.includeMemoryIds then ["id=" ++ Uuid.toText memory.factId] else []) ++
  (if options.includeMemoryTypes then ["type=" ++ memoryTypeLabel memory.memoryType] else []) ++
  (if options.includeScores then ["score=" ++ Texts.twoDecimals memory.score] else []) ++
  (if options.includeTimestamps then
    memory.validAt.toList.map fun timestamp => "valid_at=" ++ platform.toRfc3339 timestamp
    else []) ++
  (if options.includeConfidence then ["confidence=" ++ Texts.twoDecimals memory.confidence]
    else []) ++
  (if options.includeImportance then ["importance=" ++ Texts.twoDecimals memory.importance]
    else [])

/-- A memory with its metadata, before the requested details. -/
def contentLine (memory : ContextMemoryItem) (legacyIncludeFactMetadata : Bool) : String :=
  "- " ++ memory.content ++
    (if legacyIncludeFactMetadata && hasMetadata memory then
      " (metadata: " ++ memory.metadata.print platform.formatFloat ++ ")" else "")

def formatPlainLine (options : ContextFormatOptions) (legacyIncludeFactMetadata : Bool)
    (memory : ContextMemoryItem) : String :=
  let parts := metadataParts platform memory options
  contentLine platform memory legacyIncludeFactMetadata ++
    (if parts.isEmpty then "" else " [" ++ Texts.join " " parts ++ "]")

def formatMarkdownLine (options : ContextFormatOptions) (legacyIncludeFactMetadata : Bool)
    (memory : ContextMemoryItem) : String :=
  let parts := metadataParts platform memory options
  contentLine platform memory legacyIncludeFactMetadata ++
    (if parts.isEmpty then "" else " _(" ++ Texts.join ", " parts ++ ")_")

/-- The memory types that occur, in the order of sections, with their memories. -/
def sections (memories : List ContextMemoryItem) :
    List (MemoryType × List ContextMemoryItem) :=
  (sectionOrder.map fun memoryType =>
    (memoryType, memories.filter fun memory => decide (memory.memoryType = memoryType))).filter
      fun entry => !entry.2.isEmpty

/-- Sections of lines under headings, a blank line between them. -/
def formatSections (heading : MemoryType → String) (line : ContextMemoryItem → String)
    (memories : List ContextMemoryItem) : String :=
  Texts.join "\n\n" ((sections memories).map fun entry =>
    Texts.join "\n" (heading entry.1 :: entry.2.map line))

def formatPlain (memories : List ContextMemoryItem) (options : ContextFormatOptions)
    (legacyIncludeFactMetadata : Bool) : String :=
  if options.isLegacyPlain && !legacyIncludeFactMetadata then
    Texts.join "\n" ("Relevant long-term memories:" ::
      memories.map fun memory => "- " ++ memory.content)
  else if options.sectionByMemoryType then
    formatSections (fun memoryType => sectionTitle memoryType ++ ":")
      (formatPlainLine platform options legacyIncludeFactMetadata) memories
  else
    let lines := memories.map (formatPlainLine platform options legacyIncludeFactMetadata)
    if options.isLegacyPlain && legacyIncludeFactMetadata then
      Texts.join "\n" ("Relevant long-term memories:" :: lines)
    else Texts.join "\n" lines

def formatMarkdown (memories : List ContextMemoryItem) (options : ContextFormatOptions)
    (legacyIncludeFactMetadata : Bool) : String :=
  if options.sectionByMemoryType then
    formatSections (fun memoryType => "## " ++ sectionTitle memoryType)
      (formatMarkdownLine platform options legacyIncludeFactMetadata) memories
  else Texts.join "\n" (memories.map (formatMarkdownLine platform options legacyIncludeFactMetadata))

/-- A memory as an object, whose members come in the order of their keys. -/
def memoryJsonObject (options : ContextFormatOptions) (legacyIncludeFactMetadata : Bool)
    (memory : ContextMemoryItem) : Value :=
  .object (
    (if options.includeConfidence then [("confidence", Value.float memory.confidence)] else []) ++
    [("content", Value.string memory.content)] ++
    (if options.includeImportance then [("importance", Value.float memory.importance)] else []) ++
    (if options.includeMemoryIds then [("memory_id", Value.string (Uuid.toText memory.factId))]
      else []) ++
    (if options.includeMemoryTypes then
      [("memory_type", Value.string (memoryTypeLabel memory.memoryType))] else []) ++
    (if legacyIncludeFactMetadata && hasMetadata memory then [("metadata", memory.metadata)]
      else []) ++
    (if options.includeScores then [("score", Value.float memory.score)] else []) ++
    (if options.includeTimestamps then
      memory.validAt.toList.map fun timestamp =>
        ("valid_at", Value.string (platform.toRfc3339 timestamp))
      else []))

/-- The only member of the JSON document: memories, or sections of memories. -/
def payloadMember (memories : List ContextMemoryItem) (options : ContextFormatOptions)
    (legacyIncludeFactMetadata : Bool) : String × Value :=
  let toObject := memoryJsonObject platform options legacyIncludeFactMetadata
  if options.sectionByMemoryType then
    ("sections", .array ((sections memories).map fun entry => .object [
      ("memories", .array (entry.2.map toObject)),
      ("type", .string (sectionTitle entry.1))]))
  else ("memories", .array (memories.map toObject))

def formatJson (memories : List ContextMemoryItem) (options : ContextFormatOptions)
    (legacyIncludeFactMetadata : Bool) : String :=
  (Value.object [payloadMember platform memories options legacyIncludeFactMetadata]).print
    platform.formatFloat

/-- Render memories in the requested format. -/
def format (memories : List ContextMemoryItem) (options : ContextFormatOptions)
    (legacyIncludeFactMetadata : Bool) : String :=
  if memories.isEmpty then emptyContextMessage
  else match options.format with
    | .plainText => formatPlain platform memories options legacyIncludeFactMetadata
    | .markdown => formatMarkdown platform memories options legacyIncludeFactMetadata
    | .json => formatJson platform memories options legacyIncludeFactMetadata

end ContextFormatter

end Memcore
