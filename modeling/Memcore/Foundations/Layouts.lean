import Memcore.Foundations.Texts
import Mathlib.Data.List.Nodup
import Mathlib.Data.List.Perm.Basic

/-!
# Texts laid out of entries

A document is laid out of pieces: entries, headings, and marks that stand for themselves.
What a reader of the document finds is told by its pieces: which entries there are, in which
order, and between which headings. How entries and headings are written is a parameter.

Items are put into sections by a label, in the order of a list of labels. No item is lost
when each label is in the list, and none is repeated when no label is there twice.
-/
namespace Layouts

variable {η ε : Type}

/-- A part of a document. -/
inductive Piece (η ε : Type) where
  | mark (text : String)
  | heading (title : η)
  | entry (item : ε)

namespace Piece

def text (headingText : η → String) (entryText : ε → String) : Piece η ε → String
  | mark text => text
  | heading title => headingText title
  | entry item => entryText item

def mark? : Piece η ε → Option String
  | mark text => some text
  | _ => none

def entry? : Piece η ε → Option ε
  | entry item => some item
  | _ => none

end Piece

/-- The document. -/
def render (headingText : η → String) (entryText : ε → String) (pieces : List (Piece η ε)) :
    String :=
  Texts.join "" (pieces.map (Piece.text headingText entryText))

/-- The marks of a document. -/
def marks (pieces : List (Piece η ε)) : List String := pieces.filterMap Piece.mark?

/-- The document without its marks. -/
def solid (pieces : List (Piece η ε)) : List (Piece η ε) :=
  pieces.filter fun piece => piece.mark?.isNone

/-- The entries of a document, in their order. -/
def entries (pieces : List (Piece η ε)) : List ε := pieces.filterMap Piece.entry?

/-- Blocks of pieces, a mark between neighbours. -/
def between (mark : String) : List (List (Piece η ε)) → List (Piece η ε)
  | [] => []
  | [block] => block
  | block :: blocks => block ++ .mark mark :: between mark blocks

section Render

variable (headingText : η → String) (entryText : ε → String)

@[simp] theorem render_nil : render headingText entryText [] = "" := rfl

@[simp] theorem render_cons (piece : Piece η ε) (pieces : List (Piece η ε)) :
    render headingText entryText (piece :: pieces) =
      piece.text headingText entryText ++ render headingText entryText pieces := by
  rw [render, render, List.map_cons]
  cases pieces with
  | nil => simp [Texts.join]
  | cons next pieces => simp [Texts.join]

@[simp] theorem render_append (front rest : List (Piece η ε)) :
    render headingText entryText (front ++ rest) =
      render headingText entryText front ++ render headingText entryText rest := by
  induction front with
  | nil => simp
  | cons piece front inductionHypothesis =>
    rw [List.cons_append, render_cons, inductionHypothesis, render_cons, String.append_assoc]

@[simp] theorem render_between (mark : String) (blocks : List (List (Piece η ε))) :
    render headingText entryText (between mark blocks) =
      Texts.join mark (blocks.map (render headingText entryText)) := by
  induction blocks with
  | nil => rfl
  | cons block blocks inductionHypothesis =>
    cases blocks with
    | nil => rfl
    | cons next blocks =>
      rw [between, render_append, render_cons, inductionHypothesis, ← String.append_assoc]
      · simp [Piece.text, Texts.join]
      · simp

end Render

section Readings

variable (front rest : List (Piece η ε)) (mark : String) (blocks : List (List (Piece η ε)))

@[simp] theorem solid_nil : solid ([] : List (Piece η ε)) = [] := rfl

@[simp] theorem solid_mark : solid (.mark mark :: rest) = solid rest := rfl

@[simp] theorem solid_heading (title : η) :
    solid (.heading title :: rest) = .heading title :: solid rest := rfl

@[simp] theorem solid_entry (item : ε) :
    solid (.entry item :: rest) = .entry item :: solid rest := rfl

@[simp] theorem solid_append : solid (front ++ rest) = solid front ++ solid rest :=
  List.filter_append ..

@[simp] theorem solid_between : solid (between mark blocks) = blocks.flatMap solid := by
  induction blocks with
  | nil => rfl
  | cons block blocks inductionHypothesis =>
    cases blocks with
    | nil => simp [between]
    | cons next blocks => simp [between, inductionHypothesis]

/-- Entries are no marks. -/
theorem entries_solid (pieces : List (Piece η ε)) : entries (solid pieces) = entries pieces := by
  induction pieces with
  | nil => rfl
  | cons piece pieces inductionHypothesis =>
    cases piece with
    | mark text => exact inductionHypothesis
    | heading title => exact inductionHypothesis
    | entry item => exact congrArg (item :: ·) inductionHypothesis

@[simp] theorem entries_append : entries (front ++ rest) = entries front ++ entries rest :=
  List.filterMap_append ..

theorem entries_flatMap {α : Type} (items : List α) (block : α → List (Piece η ε)) :
    entries (items.flatMap block) = items.flatMap fun item => entries (block item) := by
  induction items with
  | nil => rfl
  | cons item items inductionHypothesis =>
    rw [List.flatMap_cons, entries_append, inductionHypothesis, List.flatMap_cons]

@[simp] theorem entries_map_entry (items : List ε) :
    entries (items.map (Piece.entry (η := η))) = items := by
  rw [entries, List.filterMap_map]
  exact List.filterMap_some ..

@[simp] theorem marks_append : marks (front ++ rest) = marks front ++ marks rest :=
  List.filterMap_append ..

/-- The marks are those in the blocks and the one between them. -/
theorem marks_between_subset {allowed : List String} (isAllowed : mark ∈ allowed)
    (inBlocks : ∀ block ∈ blocks, marks block ⊆ allowed) :
    marks (between mark blocks) ⊆ allowed := by
  induction blocks with
  | nil => exact List.nil_subset _
  | cons block blocks inductionHypothesis =>
    have first := inBlocks block List.mem_cons_self
    cases blocks with
    | nil => exact first
    | cons next blocks =>
      have later := inductionHypothesis fun other member =>
        inBlocks other (List.mem_cons_of_mem _ member)
      rw [between, marks_append]
      · exact List.append_subset.mpr ⟨first, List.cons_subset.mpr ⟨isAllowed, later⟩⟩
      · simp

end Readings

/-! ## Laying out a text -/

/-- A text is laid out of titles and entries, with no marks between them but allowed ones. -/
def LaidOut (headingText : η → String) (entryText : ε → String) (allowed : List String)
    (text : String) (outline : List (Piece η ε)) : Prop :=
  ∃ pieces, text = render headingText entryText pieces ∧ marks pieces ⊆ allowed ∧
    solid pieces = outline

namespace LaidOut

variable {headingText : η → String} {entryText : ε → String} {allowed : List String}

theorem mark {text : String} (isAllowed : text ∈ allowed) :
    LaidOut headingText entryText allowed text [] := by
  refine ⟨[.mark text], ?_, ?_, rfl⟩
  · simp [Piece.text]
  · exact List.cons_subset.mpr ⟨isAllowed, List.nil_subset _⟩

theorem heading (title : η) :
    LaidOut headingText entryText allowed (headingText title) [.heading title] :=
  ⟨[.heading title], by simp [Piece.text], List.nil_subset _, rfl⟩

theorem entry (item : ε) :
    LaidOut headingText entryText allowed (entryText item) [.entry item] :=
  ⟨[.entry item], by simp [Piece.text], List.nil_subset _, rfl⟩

theorem append {front rest : String} {outline more : List (Piece η ε)}
    (first : LaidOut headingText entryText allowed front outline)
    (second : LaidOut headingText entryText allowed rest more) :
    LaidOut headingText entryText allowed (front ++ rest) (outline ++ more) := by
  obtain ⟨pieces, rfl, marked, rfl⟩ := first
  obtain ⟨others, rfl, otherMarked, rfl⟩ := second
  refine ⟨pieces ++ others, (render_append ..).symm, ?_, solid_append ..⟩
  rw [marks_append]
  exact List.append_subset.mpr ⟨marked, otherMarked⟩

/-- Titles and entries, joined by a mark. -/
theorem lines {separator : String} (isAllowed : separator ∈ allowed)
    {outline : List (Piece η ε)} (noMarks : solid outline = outline) :
    LaidOut headingText entryText allowed
      (Texts.join separator (outline.map (Piece.text headingText entryText))) outline := by
  have isSolid : ∀ piece ∈ outline, piece.mark?.isNone = true := List.filter_eq_self.mp noMarks
  refine ⟨between separator (outline.map fun piece => [piece]), ?_, ?_, ?_⟩
  · rw [render_between, List.map_map]
    rfl
  · apply marks_between_subset _ _ isAllowed
    intro block member
    obtain ⟨piece, isPiece, rfl⟩ := List.mem_map.mp member
    have noMark := Option.isNone_iff_eq_none.mp (isSolid piece isPiece)
    simp [marks, noMark]
  · rw [solid_between, List.flatMap_map]
    have alone : ∀ piece ∈ outline, solid [piece] = [piece] := fun piece isPiece =>
      List.filter_eq_self.mpr fun other isOther => by
        rw [List.mem_singleton.mp isOther]
        exact isSolid piece isPiece
    rw [List.flatMap_congr alone]
    exact List.flatMap_singleton' outline

/-- Parts that are laid out, joined by a mark. -/
theorem join {α : Type} {separator : String} (isAllowed : separator ∈ allowed) (parts : List α)
    {text : α → String} {outline : α → List (Piece η ε)}
    (each : ∀ part, LaidOut headingText entryText allowed (text part) (outline part)) :
    LaidOut headingText entryText allowed (Texts.join separator (parts.map text))
      (parts.flatMap outline) := by
  choose pieces written marked outlined using each
  refine ⟨between separator (parts.map pieces), ?_, ?_, ?_⟩
  · rw [render_between, List.map_map]
    congr 1
    exact List.map_congr_left fun part _ => written part
  · apply marks_between_subset _ _ isAllowed
    intro block member
    obtain ⟨part, _, rfl⟩ := List.mem_map.mp member
    exact marked part
  · rw [solid_between, List.flatMap_map]
    exact List.flatMap_congr fun part _ => outlined part

end LaidOut

/-! ## Sections -/

section Sections

variable {κ : Type} [DecidableEq κ] (label : ε → κ)

/-- The items of one section, in their order. -/
def sectionOf (items : List ε) (wanted : κ) : List ε :=
  items.filter fun item => decide (label item = wanted)

/-- A section has the items of its own label, and no others. -/
theorem filter_sectionOf (items : List ε) (wanted other : κ) :
    sectionOf label (sectionOf label items other) wanted =
      if wanted = other then sectionOf label items wanted else [] := by
  rw [sectionOf, sectionOf, List.filter_filter]
  split_ifs with same
  · rw [same]
    simp [sectionOf]
  · rw [List.filter_eq_nil_iff]
    intro item _ both
    simp only [Bool.and_eq_true, decide_eq_true_eq] at both
    exact same (both.1.symm.trans both.2)

/-- Each label has its items in one section, in their order. -/
theorem sectionOf_flatMap {labels : List κ} (distinct : labels.Nodup) (items : List ε)
    {wanted : κ} (listed : wanted ∈ labels) :
    sectionOf label (labels.flatMap (sectionOf label items)) wanted =
      sectionOf label items wanted := by
  have elsewhere (others : List κ) (absent : wanted ∉ others) :
      sectionOf label (others.flatMap (sectionOf label items)) wanted = [] := by
    rw [sectionOf, List.filter_eq_nil_iff]
    intro item member same
    obtain ⟨other, isOther, inSection⟩ := List.mem_flatMap.mp member
    have itsLabel := (List.mem_filter.mp inSection).2
    simp only [decide_eq_true_eq] at same itsLabel
    exact absent (same ▸ itsLabel ▸ isOther)
  induction labels with
  | nil => nomatch listed
  | cons first labels inductionHypothesis =>
    obtain ⟨fresh, distinct⟩ := List.nodup_cons.mp distinct
    rw [List.flatMap_cons, sectionOf, List.filter_append]
    change sectionOf label (sectionOf label items first) wanted ++
      sectionOf label (labels.flatMap (sectionOf label items)) wanted = _
    rw [filter_sectionOf]
    by_cases same : wanted = first
    · rw [if_pos same, elsewhere labels (same ▸ fresh), List.append_nil]
    · rw [if_neg same, List.nil_append]
      exact inductionHypothesis distinct ((List.mem_cons.mp listed).resolve_left same)

/-- No item is lost in the sections, and none is repeated. -/
theorem perm_flatMap_sectionOf {labels : List κ} (distinct : labels.Nodup) (items : List ε)
    (listed : ∀ item ∈ items, label item ∈ labels) :
    (labels.flatMap (sectionOf label items)).Perm items := by
  induction labels generalizing items with
  | nil =>
    cases items with
    | nil => rfl
    | cons item items => nomatch listed item List.mem_cons_self
  | cons first labels inductionHypothesis =>
    obtain ⟨fresh, distinct⟩ := List.nodup_cons.mp distinct
    let others := items.filter fun item => !decide (label item = first)
    have same : labels.flatMap (sectionOf label items) = labels.flatMap (sectionOf label others) := by
      apply List.flatMap_congr
      intro wanted isLabel
      rw [sectionOf, sectionOf, List.filter_filter]
      apply List.filter_congr
      intro item _
      by_cases own : label item = wanted
      · have different : label item ≠ first := fun isFirst => fresh (isFirst ▸ own ▸ isLabel)
        simp [own, own ▸ different]
      · simp [own]
    have rest : (labels.flatMap (sectionOf label others)).Perm others := by
      apply inductionHypothesis distinct
      intro item member
      obtain ⟨inItems, isOther⟩ := List.mem_filter.mp member
      have different : label item ≠ first := by simpa using isOther
      exact (List.mem_cons.mp (listed item inItems)).resolve_left different
    rw [List.flatMap_cons, same]
    exact (rest.append_left _).trans (List.filter_append_perm _ items)

end Sections

end Layouts
