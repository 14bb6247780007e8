import Memcore.Domain.JsonReader
import Memcore.Guarantees.ContextBudget
import Memcore.Guarantees.FormatterLayout
import Memcore.Guarantees.SummarySelection

/-!
# JSON contexts

A context in JSON is made in three ways: the formatter prints a document of the included
memories, a summary without memories is printed as a document of its own, and a summary
beside memories is entered into their document, which is read back for that. Without either
the fixed message stands for the context, in JSON as in the other formats.

The reader is a parameter. It reads back what the printer prints, except that it refuses a
text that nests too deeply. A document that it refuses is replaced by one without memories.
-/
namespace Memcore

open Layouts Ports Programs

/-! ## What a reader finds in a document -/

namespace ContextDocument

def member (key : String) (value : Value) : Option Value := value.asObject.bind (Value.lookup key)

def itemsOf : Option Value → List Value
  | some (.array items) => items
  | _ => []

def textOf : Value → Option String
  | .string text => some text
  | _ => none

/-- The memories of a document, in sections or not. -/
def memories (document : Value) : List Value :=
  itemsOf (member "memories" document) ++
    (itemsOf (member "sections" document)).flatMap fun group => itemsOf (member "memories" group)

/-- The contents of the memories. -/
def contents (document : Value) : List (Option String) :=
  (memories document).map fun memory => (member "content" memory).bind textOf

/-- The bullets of the summary, which is a member of the document or the document itself. -/
def bullets (document : Value) : List (Option String) :=
  (itemsOf (member "summary" ((member "compressed_summary" document).getD document))).map textOf

variable (change : ℚ → ℚ)

attribute [grind =] member itemsOf textOf memories contents bullets

theorem member_mapFloats (key : String) (value : Value) :
    member key (value.mapFloats change) = (member key value).map (Value.mapFloats change) := by
  cases value with
  | object members =>
    rw [Value.mapFloats]
    exact Value.lookup_mapMembers change key members
  | _ => simp [Value.mapFloats, member, Value.asObject]

theorem itemsOf_mapFloats (value : Option Value) :
    itemsOf (value.map (Value.mapFloats change)) = (itemsOf value).map (Value.mapFloats change) := by
  cases value with
  | none => rfl
  | some value =>
    cases value with
    | array items =>
      rw [Option.map_some, Value.mapFloats, Value.mapItems_eq_map]
      rfl
    | _ => simp [Value.mapFloats, itemsOf]

@[simp] theorem textOf_mapFloats (value : Value) : textOf (value.mapFloats change) = textOf value := by
  cases value with
  | _ => simp [Value.mapFloats, textOf]

theorem contents_mapFloats (document : Value) :
    contents (document.mapFloats change) = contents document := by
  have read (found : Option Value) :
      (found.map (Value.mapFloats change)).bind textOf = found.bind textOf := by
    cases found with
    | none => rfl
    | some value => exact textOf_mapFloats change value
  simp only [contents, memories, member_mapFloats, itemsOf_mapFloats, List.map_append,
    List.flatMap_map, List.map_flatMap, List.map_map, Function.comp_def, read]

theorem bullets_mapFloats (document : Value) :
    bullets (document.mapFloats change) = bullets document := by
  have own : (member "compressed_summary" (document.mapFloats change)).getD
      (document.mapFloats change) =
        ((member "compressed_summary" document).getD document).mapFloats change := by
    rw [member_mapFloats]
    cases member "compressed_summary" document with
    | none => rfl
    | some summary => rfl
  rw [bullets, own, member_mapFloats, itemsOf_mapFloats, List.map_map, bullets]
  exact List.map_congr_left fun item _ => textOf_mapFloats change item

end ContextDocument

open ContextDocument

/-! ## The documents -/

/-- The document of the included memories. -/
def mainDocument (platform : Platform) (options : ContextFormatOptions)
    (legacyIncludeFactMetadata : Bool) (memories : List ContextMemoryItem) : Value :=
  .object [ContextFormatter.payloadMember platform memories options legacyIncludeFactMetadata]

/-- The nesting beyond which the reader refuses a text. -/
def recursionLimit : ℕ := 127

/-- The JSON reader of the platform reads back what is printed, up to its fractions, unless it
nests too deeply. -/
def ReadsBack (platform : Platform) (change : ℚ → ℚ) : Prop :=
  ∀ value : Value, platform.parseJson (value.print platform.formatFloat) =
    if value.nesting ≤ recursionLimit then some (value.mapFloats change) else none

section Documents

variable {platform : Platform} {options : ContextFormatOptions} {legacyIncludeFactMetadata : Bool}
  {change : ℚ → ℚ}

theorem content_memoryJsonObject (memory : ContextMemoryItem) :
    (member "content" (ContextFormatter.memoryJsonObject platform options legacyIncludeFactMetadata
      memory)).bind textOf = some memory.content := by
  rw [ContextFormatter.memoryJsonObject]
  cases options.includeConfidence with
  | false => rfl
  | true => rfl

/-- The contents of a document are those of its memories, in the order of the outline. -/
theorem contents_mainDocument (memories : List ContextMemoryItem) :
    contents (mainDocument platform options legacyIncludeFactMetadata memories) =
      (entries (outline options memories)).map fun memory => some memory.content := by
  have object (items : List ContextMemoryItem) : (items.map (ContextFormatter.memoryJsonObject
      platform options legacyIncludeFactMetadata)).map (fun memory =>
        (member "content" memory).bind textOf) = items.map fun memory => some memory.content := by
    rw [List.map_map]
    exact List.map_congr_left fun memory _ => content_memoryJsonObject memory
  rw [entries_outline, mainDocument, ContextFormatter.payloadMember]
  split_ifs
  · rw [← flatMap_sections, List.map_flatMap]
    show (((ContextFormatter.sections memories).map _).flatMap _).map _ = _
    rw [List.flatMap_map, List.map_flatMap]
    exact List.flatMap_congr fun group _ => object group.2
  · show (memories.map _ ++ []).map _ = _
    rw [List.append_nil]
    exact object memories

theorem bullets_mainDocument (memories : List ContextMemoryItem) :
    bullets (mainDocument platform options legacyIncludeFactMetadata memories) = [] := by
  rw [mainDocument, ContextFormatter.payloadMember]
  split_ifs
  · rfl
  · rfl

theorem bullets_summaryObject (texts : List String) :
    bullets (summaryObject texts) = texts.map some := by
  show (texts.map Value.string).map textOf = _
  rw [List.map_map]
  rfl

theorem contents_summaryObject (texts : List String) : contents (summaryObject texts) = [] := rfl

theorem nesting_summaryObject (texts : List String) : (summaryObject texts).nesting = 2 := by
  have flat : Value.nestingItems (texts.map Value.string) = 0 := by
    induction texts with
    | nil => rfl
    | cons text texts inductionHypothesis =>
      rw [List.map_cons, Value.nestingItems, inductionHypothesis]
      rfl
  rw [summaryObject, Value.nesting, Value.nestingMembers, Value.nesting, flat]
  rfl

/-- A document that is read back, and the bullets entered into it. -/
def withSummary (change : ℚ → ℚ) (platform : Platform) (options : ContextFormatOptions)
    (legacyIncludeFactMetadata : Bool) (memories : List ContextMemoryItem) (texts : List String) :
    Value :=
  let payload := ContextFormatter.payloadMember platform memories options legacyIncludeFactMetadata
  .object [("compressed_summary", summaryObject texts), (payload.1, payload.2.mapFloats change)]

theorem contents_withSummary (memories : List ContextMemoryItem) (texts : List String) :
    contents (withSummary change platform options legacyIncludeFactMetadata memories texts) =
      (entries (outline options memories)).map fun memory => some memory.content := by
  have main := @contents_mainDocument platform options legacyIncludeFactMetadata memories
  rw [← contents_mapFloats change, mainDocument, Value.mapFloats] at main
  rw [← main, withSummary]
  unfold ContextFormatter.payloadMember
  split_ifs
  · rfl
  · rfl

theorem bullets_withSummary (memories : List ContextMemoryItem) (texts : List String) :
    bullets (withSummary change platform options legacyIncludeFactMetadata memories texts) =
      texts.map some :=
  bullets_summaryObject texts

theorem nesting_withSummary {memories : List ContextMemoryItem} (texts : List String)
    (shallow : (mainDocument platform options legacyIncludeFactMetadata memories).nesting ≤
      recursionLimit) :
    (withSummary change platform options legacyIncludeFactMetadata memories texts).nesting ≤
      recursionLimit := by
  rw [mainDocument, Value.nesting, Value.nestingMembers, Value.nestingMembers, recursionLimit]
    at shallow
  rw [withSummary, Value.nesting, Value.nestingMembers, Value.nestingMembers, Value.nestingMembers,
    nesting_summaryObject, Value.nesting_mapFloats, recursionLimit]
  omega

/-- The reader only reads documents of one key back as such. -/
theorem ReadsBack.readsDocuments (reads : ReadsBack platform change) : ReadsDocuments platform := by
  intro memories options legacyIncludeFactMetadata parsed read
  rw [ContextFormatter.formatJson, reads] at read
  split_ifs at read
  rw [Value.mapFloats] at read
  exact ⟨_, (Option.some.inj read).symm⟩

/-- The summary is entered into the document that is read back. -/
theorem mergeJsonContext_eq (reads : ReadsBack platform change)
    {memories : List ContextMemoryItem} (compressed : CompressedContext)
    (shallow : (mainDocument platform options legacyIncludeFactMetadata memories).nesting ≤
      recursionLimit) :
    mergeJsonContext platform ((mainDocument platform options legacyIncludeFactMetadata
      memories).print platform.formatFloat) compressed =
        (withSummary change platform options legacyIncludeFactMetadata memories
          compressed.bullets).print platform.formatFloat := by
  have first : "compressed_summary" <
      (ContextFormatter.payloadMember platform memories options legacyIncludeFactMetadata).1 := by
    rw [ContextFormatter.payloadMember]
    split_ifs
    · exact show "compressed_summary" < "sections" by decide
    · exact show "compressed_summary" < "memories" by decide
  rw [mergeJsonContext, reparsed, reads, if_pos shallow, mainDocument, Value.mapFloats,
    Value.mapMembers, Value.mapMembers]
  dsimp only [Option.getD_some]
  rw [Value.insertMember, if_pos first]
  rfl

/-- A document that nests too deeply loses its memories when a summary is entered into it. -/
theorem contents_mergeJsonContext (reads : ReadsBack platform change)
    {memories : List ContextMemoryItem} (compressed : CompressedContext)
    (deep : recursionLimit <
      (mainDocument platform options legacyIncludeFactMetadata memories).nesting) :
    (platform.parseJson (mergeJsonContext platform ((mainDocument platform options
      legacyIncludeFactMetadata memories).print platform.formatFloat) compressed)).map contents =
        some [] := by
  have first : "compressed_summary" < "memories" := by decide
  have small : (Value.object [("compressed_summary", summaryObject compressed.bullets),
      ("memories", .array [])]).nesting ≤ recursionLimit := by
    rw [Value.nesting, Value.nestingMembers, nesting_summaryObject]
    decide
  rw [mergeJsonContext, reparsed, reads, if_neg (not_le.mpr deep)]
  dsimp only [Option.getD_none]
  rw [Value.insertMember, if_pos first, reads, if_pos small, Option.map_some, contents_mapFloats]
  rfl

end Documents

/-! ## The context of a run -/

section Contexts

variable {platform : Platform} {input : BuildContextInput} {results : List MemorySearchResult}
  {change : ℚ → ℚ}

/-- The bullets that a summary shows. A reply of the provider without parts has none, and is
one bullet itself where the summary stands alone. -/
def shownBullets (alone : Bool) (reply : Option String) : Option CompressedContext → List String
  | none => []
  | some compressed =>
      if alone && compressed.bullets.isEmpty then reply.toList else compressed.bullets

theorem selectedText_empty_iff :
    selectedText platform input results = "" ↔ (selection platform input results).1 = [] := by
  constructor
  · intro empty
    by_contra present
    have opens := ContextFormatter.format_opens platform (selection platform input results).1
      input.formatOptions input.includeMetadata present
    rw [selectedText, if_neg (by simpa using present)] at empty
    exact opens.ne_empty empty
  · intro none
    rw [selectedText, none]
    rfl

theorem selectedText_json (json : input.formatOptions.format = .json)
    (present : (selection platform input results).1 ≠ []) :
    selectedText platform input results = (mainDocument platform input.formatOptions
      input.includeMetadata (selection platform input results).1).print platform.formatFloat := by
  have some : (selection platform input results).1.isEmpty = false :=
    List.isEmpty_eq_false_iff.mpr present
  rw [selectedText, some, if_neg (by decide), ContextFormatter.format, some, if_neg (by decide), json]
  rfl

/-- The text of a summary is a document of the bullets that it shows alone. -/
theorem summaryOf_json (json : input.formatOptions.format = .json) {reply : Option String}
    {compressed : CompressedContext}
    (made : summaryOf platform input results reply = some compressed) :
    compressed.text =
      (summaryObject (shownBullets true reply (some compressed))).print platform.formatFloat := by
  have text (bullets : List String) (present : bullets ≠ []) (includeSummarySection : Bool) :
      formatSummaryText platform bullets input.formatOptions.format includeSummarySection =
        (summaryObject bullets).print platform.formatFloat := by
    rw [formatSummaryText, List.isEmpty_eq_false_iff.mpr present, if_neg (by decide), json]
  have shown {bullets : List String} (present : bullets ≠ []) (text : String)
      (summarized tokens : ℕ) :
      shownBullets true reply (some ⟨text, summarized, tokens, bullets⟩) = bullets := by
    rw [shownBullets, Bool.true_and, if_neg (by simpa using present)]
  have nonempty := summaryOf_text made
  unfold summaryOf at made
  simp only [Option.ite_none_left_eq_some, Option.some.injEq] at made
  obtain ⟨_, rfl⟩ := made
  revert nonempty
  split
  · next providerText _ _ =>
    have alone {bullets : List String} (noParts : bullets.isEmpty = true) (text : String)
        (summarized tokens : ℕ) :
        shownBullets true (some providerText) (some ⟨text, summarized, tokens, bullets⟩) =
          [providerText] := by
      rw [shownBullets, noParts]
      rfl
    intro _
    rw [wrapProviderSummary]
    split_ifs with noParts
    · rw [alone noParts]
      exact text [providerText] (List.cons_ne_nil _ _) _
    · have present := List.isEmpty_eq_false_iff.mp (Bool.not_eq_true _ ▸ noParts)
      rw [shown present]
      exact text _ present _
  · rw [compress_eq]
    intro nonempty
    have present : collectBullets platform (summaryTokens platform input results)
        input.formatOptions.format input.compressionOptions.includeSummarySection []
        (selection platform input results).2 ≠ [] := by
      intro none
      rw [none] at nonempty
      exact nonempty rfl
    rw [shown present]
    exact text _ present _

/-- The joined text of a JSON context: the fixed message, or a document that is read back with
the contents of the included memories and the bullets of the summary. -/
theorem joinedText_json (reads : ReadsBack platform change)
    (json : input.formatOptions.format = .json) (reply : Option String)
    (shallow : (mainDocument platform input.formatOptions input.includeMetadata
      (selection platform input results).1).nesting ≤ recursionLimit) :
    let included := (selection platform input results).1
    let summary := summaryOf platform input results reply
    if included = [] ∧ summary = none then
      joinedText platform input results summary = emptyContextMessage
    else ∃ document, platform.parseJson (joinedText platform input results summary) = some document ∧
      contents document = (entries (outline input.formatOptions included)).map
        (fun memory => some memory.content) ∧
      bullets document = (shownBullets included.isEmpty reply summary).map some := by
  intro included summary
  have read {value : Value} (within : value.nesting ≤ recursionLimit) :
      platform.parseJson (value.print platform.formatFloat) = some (value.mapFloats change) := by
    rw [reads, if_pos within]
  cases made : summaryOf platform input results reply with
  | none =>
    have noSummary : summary = none := made
    rw [noSummary, joinedText]
    by_cases none : included = []
    · rw [if_pos ⟨none, rfl⟩, if_pos (selectedText_empty_iff.mpr none)]
    · rw [if_neg fun both => none both.1, if_neg fun empty => none (selectedText_empty_iff.mp empty)]
      rw [selectedText_json json none]
      refine ⟨_, read shallow, ?_, ?_⟩
      · rw [contents_mapFloats, contents_mainDocument]
      · rw [bullets_mapFloats, bullets_mainDocument]
        rfl
  | some compressed =>
    have isSummary : summary = some compressed := made
    have present : compressed.text ≠ "" := summaryOf_text made
    rw [isSummary, if_neg fun both => Option.some_ne_none _ both.2]
    by_cases none : included = []
    · have small (texts : List String) : (summaryObject texts).nesting ≤ recursionLimit := by
        rw [nesting_summaryObject]
        decide
      have joined : joinedText platform input results (some compressed) = compressed.text :=
        if_pos (selectedText_empty_iff.mpr none)
      rw [joined, summaryOf_json json made]
      refine ⟨_, read (small _), ?_, ?_⟩
      · rw [contents_mapFloats, contents_summaryObject, none, entries_outline]
        split_ifs
        · rfl
        · rfl
      · rw [bullets_mapFloats, bullets_summaryObject, none]
        rfl
    · have notEmpty : selectedText platform input results ≠ "" :=
        fun empty => none (selectedText_empty_iff.mp empty)
      have joined : joinedText platform input results (some compressed) =
          mergeContextWithSummary platform (selectedText platform input results)
            .json compressed := json ▸ if_neg notEmpty
      rw [joined, mergeContextWithSummary, if_neg present, selectedText_json json none,
        mergeJsonContext_eq reads compressed shallow]
      refine ⟨_, read (nesting_withSummary _ shallow), ?_, ?_⟩
      · rw [contents_mapFloats, contents_withSummary]
      · rw [bullets_mapFloats, bullets_withSummary, shownBullets,
          List.isEmpty_eq_false_iff.mpr none]
        rfl

end Contexts

/-- A context in JSON is the fixed message when no memory is included and no summary is made.
Otherwise it is read as one document, if the document of the included memories is not nested
too deeply; this has each included memory once, with its content, and the bullets of the
summary in their order. -/
theorem json_contexts (engine : MemoryEngine) (input : BuildContextInput)
    (results : List MemorySearchResult) (json : input.formatOptions.format = .json)
    (change : ℚ → ℚ) (reads : ReadsBack engine.platform change) (world final : World)
    (trace : List EngineEvent) (output : BuildContextOutput)
    (run : Runs (engineServer engine.platform) anyChoice
      (contextFromResults engine input results) world trace (.ok output) final)
    (shallow : (mainDocument engine.platform input.formatOptions input.includeMetadata
      output.memories).nesting ≤ recursionLimit) :
    let reply := providerReply trace
    let summary := summaryOf engine.platform input results reply
    if output.memories = [] ∧ summary = none then output.context = emptyContextMessage
    else ∃ document, engine.platform.parseJson output.context = some document ∧
      (∃ ordered : List ContextMemoryItem, ordered.Perm output.memories ∧
        contents document = ordered.map fun memory => some memory.content) ∧
      bullets document = (shownBullets output.memories.isEmpty reply summary).map some := by
  have conforms := contextFromResults_reply engine input results
  obtain ⟨same, _⟩ := run.follows replyProtocol (fun _ _ => True)
    (fun _ _ _ _ _ _ _ _ => trivial) conforms trivial
  obtain rfl : output = contextWithReply engine input results (providerReply trace) :=
    Except.ok.inj same
  rw [contextWithReply_memories] at shallow ⊢
  rw [contextWithReply_context reads.readsDocuments]
  have joined := joinedText_json reads json (providerReply trace) shallow
  dsimp only at joined ⊢
  split_ifs at joined ⊢
  · exact joined
  · obtain ⟨document, read, hasContents, hasBullets⟩ := joined
    have distinct : sectionOrder.Nodup := by decide
    have perm : (entries (outline input.formatOptions
        (selection engine.platform input results).1)).Perm
          (selection engine.platform input results).1 := by
      rw [entries_outline]
      split_ifs
      · exact perm_flatMap_sectionOf _ distinct _ fun memory _ =>
          sectionOrder_complete memory.memoryType
      · rfl
    exact ⟨document, read, ⟨_, perm, hasContents⟩, hasBullets⟩

/-- The sample platform with the reader that reads back what is printed. -/
def Platform.parsing : Platform :=
  { Platform.sample with
    parseJson := fun text => (Value.read (fun _ => some 1) text).filter fun value =>
      decide (value.nesting ≤ recursionLimit) }

theorem Platform.parsing_reads : ReadsBack .parsing fun _ => 1 := by
  have floats : Value.FloatTexts (fun _ => "1.0") (fun _ => some 1) fun _ => 1 :=
    ⟨fun _ => by decide, fun _ => by decide, fun _ => by decide, fun _ => rfl⟩
  intro value
  show (Value.read _ (value.print fun _ => "1.0")).filter _ = _
  rw [Value.read_print floats, Option.filter_some, Value.nesting_mapFloats]
  simp only [decide_eq_true_eq]

theorem json_contexts_sample : ∃ trace output final,
    Runs (engineServer .parsing) anyChoice
      (contextFromResults (.new .parsing) sampleJsonContext sampleResults) (World.empty 1000)
      trace (.ok output) final ∧
    ∃ document, Platform.parsing.parseJson output.context = some document ∧
      (∃ ordered : List ContextMemoryItem, ordered.Perm output.memories ∧
        contents document = ordered.map fun memory => some memory.content) ∧
      bullets document = [some "likes coffee"] := by
  obtain ⟨trace, output, final, run, replied, present, shallow⟩ := exists_output_of_replay
    (engineServer .parsing) anyChoice (List.replicate 2 { summary := "likes coffee" })
    (contextFromResults (.new .parsing) sampleJsonContext sampleResults) (World.empty 1000)
    (fun trace output => providerReply trace = some "likes coffee" ∧ output.memories ≠ [] ∧
      (mainDocument .parsing sampleJsonContext.formatOptions sampleJsonContext.includeMetadata
        output.memories).nesting ≤ recursionLimit) (by decide +kernel)
  have whole := json_contexts (.new .parsing) sampleJsonContext sampleResults rfl _
    Platform.parsing_reads (World.empty 1000) final trace output run shallow
  dsimp only at whole
  rw [if_neg fun both => present both.1, replied] at whole
  obtain ⟨document, read, hasContents, hasBullets⟩ := whole
  refine ⟨trace, output, final, run, document, read, hasContents, hasBullets.trans ?_⟩
  rw [List.isEmpty_eq_false_iff.mpr present]
  decide +kernel

/-- Metadata of as many lists in each other. -/
def nestedMetadata : ℕ → Value
  | 0 => .array []
  | depth + 1 => .array [nestedMetadata depth]

/-- A preference with metadata that nests as deeply as an import accepts. -/
def deepMemory : ContextMemoryItem :=
  ⟨1, "tea", .preference, 1, 1, 1, none, .object [("a", nestedMetadata 122)]⟩

/-- Options for a document in sections. -/
def sampleSections : ContextFormatOptions :=
  { ContextFormatOptions.default with format := .json, sectionByMemoryType := true }

theorem nesting_nestedMetadata (depth : ℕ) : (nestedMetadata depth).nesting = depth + 1 := by
  induction depth with
  | zero => rfl
  | succ depth inductionHypothesis =>
    simp [nestedMetadata, Value.nesting, Value.nestingItems, inductionHypothesis]

theorem nesting_deepDocument :
    (mainDocument .parsing sampleSections true [deepMemory]).nesting = 129 := by
  have sectioned : ContextFormatter.sections [deepMemory] = [(.preference, [deepMemory])] := by rfl
  have object : ContextFormatter.memoryJsonObject .parsing sampleSections true deepMemory =
      .object [("content", .string "tea"), ("metadata", .object [("a", nestedMetadata 122)])] := by
    rfl
  have single : ContextFormatter.payloadMember .parsing [deepMemory] sampleSections true =
      ("sections", .array [.object [
        ("memories", .array [
          ContextFormatter.memoryJsonObject .parsing sampleSections true deepMemory]),
        ("type", .string (sectionTitle .preference))]]) := by
    rw [ContextFormatter.payloadMember,
      if_pos (show sampleSections.sectionByMemoryType = true from rfl), sectioned]
    rfl
  rw [mainDocument, single, object]
  simp [Value.nesting, Value.nestingMembers, Value.nestingItems, nesting_nestedMetadata]

theorem deep_document_loses_memories :
    (Platform.parsing.parseJson (mergeContextWithSummary .parsing
      (ContextFormatter.format .parsing [deepMemory] sampleSections true) .json
      ⟨"likes coffee", 1, 3, ["likes coffee"]⟩)).map contents = some [] := by
  have document : ContextFormatter.format .parsing [deepMemory] sampleSections true =
      (mainDocument .parsing sampleSections true [deepMemory]).print
        Platform.parsing.formatFloat := rfl
  have present : ("likes coffee" : String) ≠ "" := by decide
  rw [mergeContextWithSummary, if_neg present, document]
  exact contents_mergeJsonContext Platform.parsing_reads _ (by rw [nesting_deepDocument]; decide)

/-- A context without memories, and one of a reply without parts. -/
theorem replayed_departures :
    (∃ trace output final,
      Runs (engineServer .parsing) anyChoice (buildContext (.new .parsing) sampleJsonContext)
        (World.empty 1000) trace (.ok output) final ∧
      Platform.parsing.parseJson output.context = none) ∧
    ∃ trace output final,
      Runs (engineServer .parsing) anyChoice
        (contextFromResults (.new .parsing) sampleJsonContext (sampleResults.drop 1))
        (World.empty 1000) trace (.ok output) final ∧
      (summaryOf .parsing sampleJsonContext (sampleResults.drop 1) (providerReply trace)).map
        CompressedContext.bullets = some [] ∧
      (Platform.parsing.parseJson output.context).map bullets = some [some ";"] := by
  constructor
  · exact exists_output_of_replay (engineServer .parsing) anyChoice
      (List.replicate 6 { embedding := [1] }) _ _ _ (by decide +kernel)
  · exact exists_output_of_replay (engineServer .parsing) anyChoice
      (List.replicate 2 { summary := ";" }) _ _ _ (by decide +kernel)

theorem empty_context_unread : ∃ trace output final,
    Runs (engineServer .parsing) anyChoice (buildContext (.new .parsing) sampleJsonContext)
      (World.empty 1000) trace (.ok output) final ∧
    Platform.parsing.parseJson output.context = none :=
  replayed_departures.1

theorem partless_reply_is_shown : ∃ trace output final,
    Runs (engineServer .parsing) anyChoice
      (contextFromResults (.new .parsing) sampleJsonContext (sampleResults.drop 1))
      (World.empty 1000) trace (.ok output) final ∧
    (summaryOf .parsing sampleJsonContext (sampleResults.drop 1) (providerReply trace)).map
      CompressedContext.bullets = some [] ∧
    (Platform.parsing.parseJson output.context).map bullets = some [some ";"] :=
  replayed_departures.2

/-- The fixed message is no document. The memories of a document that nests too deeply are
lost when a summary is entered into it. A reply of the provider without parts has no bullets,
and is nevertheless shown as one when it stands alone. -/
theorem json_context_departures :
    (∃ trace output final,
      Runs (engineServer .parsing) anyChoice (buildContext (.new .parsing) sampleJsonContext)
        (World.empty 1000) trace (.ok output) final ∧
      Platform.parsing.parseJson output.context = none) ∧
    (Platform.parsing.parseJson (mergeContextWithSummary .parsing
      (ContextFormatter.format .parsing [deepMemory] sampleSections true) .json
      ⟨"likes coffee", 1, 3, ["likes coffee"]⟩)).map contents = some [] ∧
    ∃ trace output final,
      Runs (engineServer .parsing) anyChoice
        (contextFromResults (.new .parsing) sampleJsonContext (sampleResults.drop 1))
        (World.empty 1000) trace (.ok output) final ∧
      (summaryOf .parsing sampleJsonContext (sampleResults.drop 1) (providerReply trace)).map
        CompressedContext.bullets = some [] ∧
      (Platform.parsing.parseJson output.context).map bullets = some [some ";"] :=
  ⟨empty_context_unread, deep_document_loses_memories, partless_reply_is_shown⟩

end Memcore
