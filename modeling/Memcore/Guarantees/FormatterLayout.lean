import Memcore.Context.Formatter
import Memcore.Foundations.Layouts

/-!
# The layout of formatted contexts

Three renderers group the memories, each on its own: as plain lines, as Markdown and as a
JSON document. Whatever the format, a rendering is laid out of one entry for each memory,
of section titles, and of a few fixed marks. With sections, the entries of a section are
together at its title; in the JSON document the title follows them.
-/
namespace Memcore

open Layouts

/-- The parts of a context. -/
abbrev ContextPiece := Piece MemoryType ContextMemoryItem

/-- What stands in a rendering beside entries and titles. -/
def fixedMarks : List String :=
  [emptyContextMessage, "Relevant long-term memories:", "\n", "\n\n", "\x7b\"memories\":[", ",",
    "]\x7d", "\x7b\"sections\":[", "],\"type\":", "\x7d"]

/-- How a section title is written. -/
def titleText (format : ContextFormat) (memoryType : MemoryType) : String :=
  match format with
  | .plainText => sectionTitle memoryType ++ ":"
  | .markdown => "## " ++ sectionTitle memoryType
  | .json => Value.printText (sectionTitle memoryType)

/-- How a memory is written. -/
def entryText (platform : Platform) (options : ContextFormatOptions)
    (legacyIncludeFactMetadata : Bool) (memory : ContextMemoryItem) : String :=
  match options.format with
  | .plainText => ContextFormatter.formatPlainLine platform options legacyIncludeFactMetadata memory
  | .markdown =>
      ContextFormatter.formatMarkdownLine platform options legacyIncludeFactMetadata memory
  | .json => (ContextFormatter.memoryJsonObject platform options legacyIncludeFactMetadata
      memory).print platform.formatFloat

/-- One section: its title with its memories, and behind them in a JSON document. -/
def sectionBlock (format : ContextFormat) (group : MemoryType × List ContextMemoryItem) :
    List ContextPiece :=
  if format = .json then group.2.map .entry ++ [.heading group.1]
  else .heading group.1 :: group.2.map .entry

/-- The titles and entries of a context in their order. -/
def outline (options : ContextFormatOptions) (memories : List ContextMemoryItem) :
    List ContextPiece :=
  if options.sectionByMemoryType then
    (ContextFormatter.sections memories).flatMap (sectionBlock options.format)
  else memories.map .entry

theorem solid_sectionBlock (format : ContextFormat)
    (group : MemoryType × List ContextMemoryItem) :
    solid (sectionBlock format group) = sectionBlock format group := by
  have memories : solid (group.2.map (Piece.entry (η := MemoryType))) = group.2.map .entry := by
    induction group.2 with
    | nil => rfl
    | cons memory memories inductionHypothesis =>
      rw [List.map_cons, solid_entry, inductionHypothesis]
  rw [sectionBlock]
  split_ifs
  · rw [solid_append, memories, solid_heading, solid_nil]
  · rw [solid_heading, memories]

section Renderers

variable (platform : Platform) (options : ContextFormatOptions) (legacyIncludeFactMetadata : Bool)

/-- What a rendering is laid out of. -/
abbrev ContextLaidOut (text : String) (outline : List ContextPiece) : Prop :=
  LaidOut (titleText options.format) (entryText platform options legacyIncludeFactMetadata)
    fixedMarks text outline

variable {platform options legacyIncludeFactMetadata}

theorem lines_laidOut {separator : String} (isFixed : separator ∈ fixedMarks)
    (memories : List ContextMemoryItem) :
    ContextLaidOut platform options legacyIncludeFactMetadata
      (Texts.join separator (memories.map (entryText platform options legacyIncludeFactMetadata)))
      (memories.map .entry) := by
  have laidOut : ContextLaidOut platform options legacyIncludeFactMetadata _ _ :=
    LaidOut.lines isFixed (show solid (memories.map (Piece.entry (η := MemoryType))) = _ by
      rw [solid, List.filter_eq_self]
      intro piece member
      obtain ⟨memory, _, rfl⟩ := List.mem_map.mp member
      rfl)
  rwa [List.map_map] at laidOut

/-- The heading of callers that ask for no formatting, and lines below it. -/
theorem headed_laidOut {memories : List ContextMemoryItem} (some : memories ≠ []) :
    ContextLaidOut platform options legacyIncludeFactMetadata
      (Texts.join "\n" ("Relevant long-term memories:" ::
        memories.map (entryText platform options legacyIncludeFactMetadata)))
      (memories.map .entry) := by
  have headed (line : String) (lines : List String) : Texts.join "\n"
      ("Relevant long-term memories:" :: line :: lines) =
        "Relevant long-term memories:" ++ "\n" ++ Texts.join "\n" (line :: lines) := rfl
  obtain ⟨memory, rest, rfl⟩ := List.exists_cons_of_ne_nil some
  rw [List.map_cons, headed, ← List.map_cons]
  have title : ContextLaidOut platform options legacyIncludeFactMetadata
      ("Relevant long-term memories:" ++ "\n") [] :=
    (LaidOut.mark (by decide)).append (LaidOut.mark (by decide))
  exact title.append (lines_laidOut (by decide) (memory :: rest))

/-- Sections of lines under their titles. -/
theorem formatSections_laidOut (text : options.format ≠ .json) (memories : List ContextMemoryItem) :
    ContextLaidOut platform options legacyIncludeFactMetadata
      (ContextFormatter.formatSections (titleText options.format)
        (entryText platform options legacyIncludeFactMetadata) memories)
      ((ContextFormatter.sections memories).flatMap (sectionBlock options.format)) := by
  rw [ContextFormatter.formatSections]
  apply LaidOut.join (show "\n\n" ∈ fixedMarks by decide)
  intro group
  have block : sectionBlock options.format group = .heading group.1 :: group.2.map .entry :=
    if_neg text
  have laidOut : ContextLaidOut platform options legacyIncludeFactMetadata _ _ :=
    LaidOut.lines (show "\n" ∈ fixedMarks by decide)
      (solid_sectionBlock options.format group)
  rw [block] at laidOut ⊢
  rwa [List.map_cons, List.map_map] at laidOut

theorem formatPlain_laidOut (plain : options.format = .plainText)
    {memories : List ContextMemoryItem} (some : memories ≠ []) :
    ContextLaidOut platform options legacyIncludeFactMetadata
      (ContextFormatter.formatPlain platform memories options legacyIncludeFactMetadata)
      (outline options memories) := by
  have line : entryText platform options legacyIncludeFactMetadata =
      ContextFormatter.formatPlainLine platform options legacyIncludeFactMetadata := by
    funext memory
    rw [entryText, plain]
  have legacy (isLegacy : options.isLegacyPlain = true) : options.sectionByMemoryType = false := by
    rw [of_decide_eq_true isLegacy]
    rfl
  rw [ContextFormatter.formatPlain]
  split_ifs with bare sectioned headed
  · obtain ⟨isLegacy, noMetadata⟩ := Bool.and_eq_true_iff.mp bare
    rw [Bool.not_eq_true'] at noMetadata
    have contents : (fun memory : ContextMemoryItem => "- " ++ memory.content) =
        entryText platform options legacyIncludeFactMetadata := by
      funext memory
      rw [line, noMetadata, of_decide_eq_true isLegacy]
      simp [ContextFormatter.formatPlainLine, ContextFormatter.contentLine,
        ContextFormatter.metadataParts, ContextFormatOptions.default]
    rw [contents, outline, if_neg (by simp [legacy isLegacy])]
    exact headed_laidOut some
  · have laidOut := @formatSections_laidOut platform options legacyIncludeFactMetadata
      (by rw [plain]; decide) memories
    rw [line] at laidOut
    rw [outline, if_pos sectioned]
    have titles : titleText options.format = fun memoryType => sectionTitle memoryType ++ ":" := by
      rw [plain]
      rfl
    rwa [titles] at laidOut
  · rw [outline, if_neg sectioned, ← line]
    exact headed_laidOut some
  · rw [outline, if_neg sectioned, ← line]
    exact lines_laidOut (by decide) memories

theorem formatMarkdown_laidOut (markdown : options.format = .markdown)
    (memories : List ContextMemoryItem) :
    ContextLaidOut platform options legacyIncludeFactMetadata
      (ContextFormatter.formatMarkdown platform memories options legacyIncludeFactMetadata)
      (outline options memories) := by
  have line : entryText platform options legacyIncludeFactMetadata =
      ContextFormatter.formatMarkdownLine platform options legacyIncludeFactMetadata := by
    funext memory
    rw [entryText, markdown]
  rw [ContextFormatter.formatMarkdown, ← line]
  split_ifs with sectioned
  · have laidOut := @formatSections_laidOut platform options legacyIncludeFactMetadata
      (by rw [markdown]; decide) memories
    rw [outline, if_pos sectioned]
    have titles : titleText options.format = fun memoryType => "## " ++ sectionTitle memoryType := by
      rw [markdown]
      rfl
    rwa [titles] at laidOut
  · rw [outline, if_neg sectioned]
    exact lines_laidOut (by decide) memories

/-! ## The JSON document -/

theorem print_memoryJsonObject (json : options.format = .json) :
    (fun memory => (ContextFormatter.memoryJsonObject platform options legacyIncludeFactMetadata
      memory).print platform.formatFloat) =
        entryText platform options legacyIncludeFactMetadata := by
  funext memory
  rw [entryText, json]

/-- A document with one array, of values made of some parts. -/
theorem print_document (formatFloat : ℚ → String) (key opening : String)
    (opens : "\x7b" ++ (Value.printText key ++ ":" ++ "[") = opening) {α : Type} (parts : List α)
    (value : α → Value) :
    (Value.object [(key, .array (parts.map value))]).print formatFloat = opening ++
      Texts.join "," (parts.map fun part => (value part).print formatFloat) ++ "]\x7d" := by
  have closing : "]\x7d" = "]" ++ "\x7d" := by decide
  rw [Value.print, Value.printMembers, Value.printMembers, Value.print, Value.printItems_eq_map,
    List.map_map, ← opens, closing]
  simp only [Texts.join, String.append_assoc, Function.comp_def]

/-- One section of the document. -/
theorem section_laidOut (json : options.format = .json)
    (group : MemoryType × List ContextMemoryItem) :
    ContextLaidOut platform options legacyIncludeFactMetadata
      ((Value.object [("memories", .array (group.2.map (ContextFormatter.memoryJsonObject platform
        options legacyIncludeFactMetadata))), ("type", .string (sectionTitle group.1))]).print
          platform.formatFloat)
      (sectionBlock options.format group) := by
  have text : (Value.object [("memories", .array (group.2.map (ContextFormatter.memoryJsonObject
      platform options legacyIncludeFactMetadata))), ("type", .string (sectionTitle group.1))]).print
        platform.formatFloat = "\x7b\"memories\":[" ++ Texts.join "," (group.2.map (entryText platform
          options legacyIncludeFactMetadata)) ++ "],\"type\":" ++
            titleText options.format group.1 ++ "\x7d" := by
    have opening : "\x7b\"memories\":[" = "\x7b" ++ (Value.printText "memories" ++ ":" ++ "[") := by
      decide
    have middle : "],\"type\":" = "]" ++ "," ++ (Value.printText "type" ++ ":") := by decide
    rw [opening, middle, json, ← print_memoryJsonObject json]
    simp only [Value.print, Value.printMembers, Value.printItems_eq_map, List.map_map, Texts.join,
      String.append_assoc, titleText, Function.comp_def]
  rw [text, sectionBlock, if_pos json]
  have opening : ContextLaidOut platform options legacyIncludeFactMetadata
      "\x7b\"memories\":[" [] := LaidOut.mark (by decide)
  have objects := @lines_laidOut platform options legacyIncludeFactMetadata "," (by decide) group.2
  have middle : ContextLaidOut platform options legacyIncludeFactMetadata "],\"type\":" [] :=
    LaidOut.mark (by decide)
  have title := @LaidOut.heading _ _ (titleText options.format)
    (entryText platform options legacyIncludeFactMetadata) fixedMarks group.1
  have closing : ContextLaidOut platform options legacyIncludeFactMetadata "\x7d" [] :=
    LaidOut.mark (by decide)
  simpa using (((opening.append objects).append middle).append title).append closing

theorem formatJson_laidOut (json : options.format = .json) (memories : List ContextMemoryItem) :
    ContextLaidOut platform options legacyIncludeFactMetadata
      (ContextFormatter.formatJson platform memories options legacyIncludeFactMetadata)
      (outline options memories) := by
  have closing : ContextLaidOut platform options legacyIncludeFactMetadata "]\x7d" [] :=
    LaidOut.mark (by decide)
  rw [ContextFormatter.formatJson, ContextFormatter.payloadMember, outline]
  split_ifs with sectioned
  · have text := print_document platform.formatFloat "sections" "\x7b\"sections\":[" (by decide)
      (ContextFormatter.sections memories) fun group => .object [("memories",
        .array (group.2.map (ContextFormatter.memoryJsonObject platform options
          legacyIncludeFactMetadata))), ("type", .string (sectionTitle group.1))]
    have opening : ContextLaidOut platform options legacyIncludeFactMetadata
        "\x7b\"sections\":[" [] := LaidOut.mark (by decide)
    have groups := LaidOut.join (show "," ∈ fixedMarks by decide)
      (ContextFormatter.sections memories) (@section_laidOut platform options
        legacyIncludeFactMetadata json)
    rw [text]
    simpa using (opening.append groups).append closing
  · have text := print_document platform.formatFloat "memories" "\x7b\"memories\":[" (by decide)
      memories (ContextFormatter.memoryJsonObject platform options
        legacyIncludeFactMetadata)
    have opening : ContextLaidOut platform options legacyIncludeFactMetadata
        "\x7b\"memories\":[" [] := LaidOut.mark (by decide)
    have objects := @lines_laidOut platform options legacyIncludeFactMetadata "," (by decide) memories
    rw [text, print_memoryJsonObject json]
    simpa using (opening.append objects).append closing

end Renderers

/-! ## The sections -/

theorem sections_types (memories : List ContextMemoryItem) :
    ((ContextFormatter.sections memories).map Prod.fst).Sublist sectionOrder := by
  have types : (sectionOrder.map fun memoryType => (memoryType, memories.filter fun memory =>
      decide (memory.memoryType = memoryType))).map Prod.fst = sectionOrder := rfl
  have kept := (List.filter_sublist (p := fun entry => !entry.2.isEmpty) (l := sectionOrder.map
    fun memoryType => (memoryType, memories.filter fun memory =>
      decide (memory.memoryType = memoryType)))).map Prod.fst
  rwa [types] at kept

/-- A section has memories, all of its type. -/
theorem sections_own {memories : List ContextMemoryItem}
    {group : MemoryType × List ContextMemoryItem}
    (member : group ∈ ContextFormatter.sections memories) :
    group.2 ≠ [] ∧ ∀ memory ∈ group.2, memory.memoryType = group.1 := by
  obtain ⟨inSections, present⟩ := List.mem_filter.mp member
  obtain ⟨memoryType, _, rfl⟩ := List.mem_map.mp inSections
  constructor
  · simpa using present
  · intro memory inSection
    simpa using (List.mem_filter.mp inSection).2

/-- The sections without memories are left out, and nothing else. -/
theorem flatMap_sections (memories : List ContextMemoryItem) :
    (ContextFormatter.sections memories).flatMap Prod.snd =
      sectionOrder.flatMap (sectionOf MemorySearchResult.memoryType memories) := by
  have present (groups : List (MemoryType × List ContextMemoryItem)) :
      (groups.filter fun group => !group.2.isEmpty).flatMap Prod.snd = groups.flatMap Prod.snd := by
    induction groups with
    | nil => rfl
    | cons group groups inductionHypothesis =>
      obtain ⟨memoryType, inSection⟩ := group
      cases inSection with
      | nil => simpa using inductionHypothesis
      | cons memory rest => simpa using inductionHypothesis
  rw [ContextFormatter.sections, present, List.flatMap_map]
  rfl

theorem sectionOrder_complete (memoryType : MemoryType) : memoryType ∈ sectionOrder := by
  cases memoryType <;> decide

theorem entries_outline (options : ContextFormatOptions) (memories : List ContextMemoryItem) :
    entries (outline options memories) =
      if options.sectionByMemoryType then
        sectionOrder.flatMap (sectionOf MemorySearchResult.memoryType memories)
      else memories := by
  have block (group : MemoryType × List ContextMemoryItem) :
      entries (sectionBlock options.format group) = group.2 := by
    have memories := entries_map_entry (η := MemoryType) group.2
    rw [sectionBlock]
    split_ifs
    · rw [entries_append, memories]
      exact List.append_nil _
    · exact memories
  rw [outline]
  split_ifs
  · rw [entries_flatMap, ← flatMap_sections]
    exact List.flatMap_congr fun group _ => block group
  · exact entries_map_entry memories

/-- Every rendering is laid out of its outline. -/
theorem format_laidOut (platform : Platform) (memories : List ContextMemoryItem)
    (options : ContextFormatOptions) (legacyIncludeFactMetadata : Bool) :
    ContextLaidOut platform options legacyIncludeFactMetadata
      (ContextFormatter.format platform memories options legacyIncludeFactMetadata)
      (outline options memories) := by
  cases memories with
  | nil =>
    have empty : outline options [] = [] := by
      rw [outline]
      split_ifs
      · rfl
      · rfl
    rw [empty]
    exact LaidOut.mark (show emptyContextMessage ∈ fixedMarks by decide)
  | cons memory rest =>
    rw [ContextFormatter.format, if_neg (by simp)]
    cases format : options.format with
    | plainText => exact formatPlain_laidOut format (List.cons_ne_nil memory rest)
    | markdown => exact formatMarkdown_laidOut format (memory :: rest)
    | json => exact formatJson_laidOut format (memory :: rest)

end Memcore
