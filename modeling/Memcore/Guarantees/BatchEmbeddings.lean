import Mathlib.Data.List.Nodup
import Memcore.Providers.Embeddings

/-!
# Batches of embeddings

A response is accepted when it is complete in itself: its items have the configured dimension, and
their indices are those of as many slots as there are items. How many texts were sent is not looked
at. A complete response of as many items as texts gives every text its own embedding, and one of any
other length is accepted although it fits no text list of the request.
-/
namespace Memcore

namespace OpenAiEmbeddingProvider

variable {α : Type}

/-- A response whose items fill as many slots as there are items. -/
structure Complete (dimensions : ℕ) (data : List (EmbeddingData α)) : Prop where
  nonempty : data ≠ []
  dimension : ∀ item ∈ data, item.embedding.length = dimensions
  inRange : ∀ item ∈ data, item.index < data.length
  covered : ∀ index < data.length, ∃ item ∈ data, item.index = index

/-- The items that belong to a text. -/
def itemsOf (data : List (EmbeddingData α)) (index : ℕ) : List (EmbeddingData α) :=
  data.filter fun item => decide (item.index = index)

/-- Each text gets the embedding of its item, and a response that does not give every text exactly
one is an error. -/
structure BelongToTexts (dimensions : ℕ) (texts : List String) (data : List (EmbeddingData α))
    (result : MemcoreResult (List (List α))) : Prop where
  onePerText : ∀ embeddings, result = .ok embeddings → embeddings.length = texts.length
  own : ∀ embeddings, result = .ok embeddings → ∀ index embedding,
    embeddings[index]? = some embedding → ∃ item ∈ data,
      item.index = index ∧ item.embedding = embedding
  dimension : ∀ embeddings, result = .ok embeddings → ∀ embedding ∈ embeddings,
    embedding.length = dimensions
  refused : ((∃ index < texts.length, (itemsOf data index).length ≠ 1) ∨
    ∃ item ∈ data, texts.length ≤ item.index) → ∃ error, result = .error error

theorem validateEmbeddingDimensions_ok (embedding : List α) (expected : ℕ) :
    validateEmbeddingDimensions embedding expected = .ok () ↔ embedding.length = expected := by
  unfold validateEmbeddingDimensions
  split <;> simp_all

/-- A loop of checks succeeds when each of them does. -/
theorem forM_ok {β : Type} (items : List β) (check : β → MemcoreResult Unit) :
    forM items check = .ok () ↔ ∀ item ∈ items, check item = .ok () := by
  induction items with
  | nil => simp [pure, Except.pure]
  | cons item rest inductionHypothesis =>
    rw [List.forM_cons, bind_ok, List.forall_mem_cons, inductionHypothesis]
    constructor
    · rintro ⟨_, valid, others⟩
      exact ⟨valid, others⟩
    · rintro ⟨valid, others⟩
      exact ⟨(), valid, others⟩

theorem validateNonEmptyText_ok (text : String) :
    validateNonEmptyText text = .ok () ↔ Texts.isBlank text = false := by
  unfold validateNonEmptyText
  split <;> simp_all

/-- The loop succeeds on items of the right dimension within the slots, and fills the slots. -/
theorem order_ok (expected : ℕ) (data : List (EmbeddingData α)) (ordered filled : List (List α)) :
    order expected ordered data = .ok filled ↔
      (∀ item ∈ data, item.embedding.length = expected ∧ item.index < ordered.length) ∧
        filled = Slots.fill ordered (data.map fun item => (item.index, item.embedding)) := by
  induction data generalizing ordered with
  | nil =>
    constructor
    · rintro ⟨⟩
      exact ⟨List.forall_mem_nil _, rfl⟩
    · rintro ⟨_, rfl⟩
      rfl
  | cons item rest inductionHypothesis =>
    rw [order, bind_ok, List.forall_mem_cons]
    constructor
    · rintro ⟨_, valid, placed⟩
      have dimension := (validateEmbeddingDimensions_ok _ _).mp valid
      split at placed
      · cases placed
      · rename_i within
        obtain ⟨others, same⟩ := (inductionHypothesis _).mp placed
        simp only [List.length_set] at others
        exact ⟨⟨⟨dimension, Nat.lt_of_not_le within⟩, others⟩, same⟩
    · rintro ⟨⟨⟨dimension, within⟩, others⟩, same⟩
      refine ⟨(), (validateEmbeddingDimensions_ok _ _).mpr dimension, ?_⟩
      rw [if_neg (Nat.not_le.mpr within)]
      refine (inductionHypothesis _).mpr ⟨?_, same⟩
      simp only [List.length_set]
      exact others

/-- The slots that the items of a response are written into. -/
def slotsOf (data : List (EmbeddingData α)) : List (List α) :=
  Slots.fill (List.replicate data.length [])
    (data.map fun item => (item.index, item.embedding))

@[simp] theorem length_slotsOf (data : List (EmbeddingData α)) :
    (slotsOf data).length = data.length := by
  rw [slotsOf, Slots.length_fill, List.length_replicate]

/-- A slot holds an item of its index, or nothing if there is none. -/
theorem getElem?_slotsOf (data : List (EmbeddingData α)) {index : ℕ}
    (inside : index < data.length) :
    (∃ item ∈ data, item.index = index ∧ (slotsOf data)[index]? = some item.embedding) ∨
      (∀ item ∈ data, item.index ≠ index) ∧ (slotsOf data)[index]? = some [] := by
  have held := Slots.getElem?_fill (List.replicate data.length ([] : List α))
    (data.map fun item => (item.index, item.embedding))
    (show index < (List.replicate data.length ([] : List α)).length by
      rwa [List.length_replicate])
  rw [List.forall_mem_map, List.getElem?_replicate_of_lt inside] at held
  simp only [List.mem_map, exists_exists_and_eq_and] at held
  exact held

/-- No slot stays empty when the items cover the slots. -/
theorem slots_filled_iff {dimensions : ℕ} (positive : 0 < dimensions)
    {data : List (EmbeddingData α)}
    (valid : ∀ item ∈ data, item.embedding.length = dimensions) :
    (slotsOf data).any List.isEmpty = false ↔
      ∀ index < data.length, ∃ item ∈ data, item.index = index := by
  rw [List.any_eq_false]
  constructor
  · intro filled index inside
    rcases getElem?_slotsOf data inside with ⟨item, member, own, _⟩ | ⟨_, vacant⟩
    · exact ⟨item, member, own⟩
    · exact absurd rfl (filled [] (List.mem_of_getElem? vacant))
  · intro covered embedding member
    obtain ⟨index, inside, here⟩ := List.mem_iff_getElem.mp member
    rw [length_slotsOf] at inside
    have held : (slotsOf data)[index]? = some embedding := by
      rw [List.getElem?_eq_some_iff]
      exact ⟨_, here⟩
    rcases getElem?_slotsOf data inside with ⟨item, stored, _, found⟩ | ⟨absent, _⟩
    · have same : embedding = item.embedding := Option.some.inj (held.symm.trans found)
      have long : 0 < embedding.length := by
        rw [same, valid item stored]
        exact positive
      rw [List.isEmpty_iff_length_eq_zero]
      omega
    · obtain ⟨item, stored, own⟩ := covered index inside
      exact absurd own (absent item stored)

/-- A response is accepted when it is complete, and then its items fill the slots. -/
theorem embedBatch_ok (provider : OpenAiEmbeddingProvider)
    (createEmbeddings : EmbeddingsCreateRequest → MemcoreResult (EmbeddingsCreateResponse α))
    {texts : List String} (nonempty : texts ≠ []) {response : EmbeddingsCreateResponse α}
    (answered : createEmbeddings (provider.request texts) = .ok response)
    (embeddings : List (List α)) :
    provider.embedBatch createEmbeddings texts = .ok embeddings ↔
      (∀ text ∈ texts, Texts.isBlank text = false) ∧
        Complete provider.dimensions response.data ∧ embeddings = slotsOf response.data := by
  have some_texts : ¬texts.isEmpty = true := by
    rwa [List.isEmpty_iff]
  simp only [embedBatch, if_neg some_texts, bind_ok, answered, Except.ok.injEq]
  constructor
  · rintro ⟨⟨⟩, checked, _, rfl, accepted⟩
    have solid : ∀ text ∈ texts, Texts.isBlank text = false := fun text member =>
      (validateNonEmptyText_ok text).mp ((forM_ok texts validateNonEmptyText).mp checked text member)
    refine ⟨solid, ?_⟩
    split at accepted
    · cases accepted
    · rename_i present
      obtain ⟨ordered, placed, ended⟩ := (bind_ok _ _ _).mp accepted
      obtain ⟨valid, rfl⟩ := (order_ok _ _ _ _).mp placed
      rw [List.length_replicate] at valid
      split at ended
      · cases ended
      · rename_i filled
        have dimension := fun item member => (valid item member).1
        have covered := (slots_filled_iff provider.positive dimension).mp
          (Bool.eq_false_iff.mpr filled)
        refine ⟨⟨?_, dimension, fun item member => (valid item member).2, covered⟩, ?_⟩
        · rwa [List.isEmpty_iff] at present
        · exact (Except.ok.inj ended).symm
  · rintro ⟨solid, complete, rfl⟩
    have checked := (forM_ok texts validateNonEmptyText).mpr fun text member =>
      (validateNonEmptyText_ok text).mpr (solid text member)
    refine ⟨(), checked, response, rfl, ?_⟩
    have present : ¬response.data.isEmpty = true := by
      rw [List.isEmpty_iff]
      exact complete.nonempty
    have filled := (slots_filled_iff provider.positive complete.dimension).mpr complete.covered
    rw [if_neg present, bind_ok]
    refine ⟨slotsOf response.data, (order_ok _ _ _ _).mpr ⟨fun item member => ?_, rfl⟩, ?_⟩
    · rw [List.length_replicate]
      exact ⟨complete.dimension item member, complete.inRange item member⟩
    · rw [if_neg (by rw [filled]; exact Bool.false_ne_true)]
      rfl

/-- In a complete response every slot has exactly one item. -/
theorem Complete.one_item {dimensions : ℕ} {data : List (EmbeddingData α)}
    (complete : Complete dimensions data) {index : ℕ} (inside : index < data.length) :
    (itemsOf data index).length = 1 := by
  have indices : (data.map (·.index)).length = data.length := List.length_map _
  have covered : ∀ wanted < (data.map (·.index)).length, wanted ∈ data.map (·.index) := by
    intro wanted below
    rw [indices] at below
    obtain ⟨item, member, own⟩ := complete.covered wanted below
    exact List.mem_map.mpr ⟨item, member, own⟩
  have permuted := Slots.perm_range_of_covered covered
  rw [indices] at permuted
  have once : (data.map (·.index)).count index = 1 := by
    rw [← permuted.count_eq]
    exact List.count_eq_one_of_mem List.nodup_range (List.mem_range.mpr inside)
  rw [List.count_eq_countP, List.countP_map, List.countP_eq_length_filter] at once
  rw [itemsOf, ← once]
  congr 1

/-- In a complete response every slot holds the embedding of an item of its index. -/
theorem Complete.own_slot {dimensions : ℕ} {data : List (EmbeddingData α)}
    (complete : Complete dimensions data) {index : ℕ} {embedding : List α}
    (held : (slotsOf data)[index]? = some embedding) :
    ∃ item ∈ data, item.index = index ∧ item.embedding = embedding := by
  have inside : index < data.length := by
    rw [← length_slotsOf]
    exact (List.getElem?_eq_some_iff.mp held).1
  rcases getElem?_slotsOf data inside with ⟨item, member, own, found⟩ | ⟨absent, _⟩
  · exact ⟨item, member, own, Option.some.inj (found.symm.trans held)⟩
  · obtain ⟨item, member, own⟩ := complete.covered index inside
    exact absurd own (absent item member)

/-- An error promises nothing. -/
theorem belong_of_error (dimensions : ℕ) (texts : List String) (data : List (EmbeddingData α))
    (failure : MemcoreError) : BelongToTexts dimensions texts data (.error failure) where
  onePerText := fun _ impossible => nomatch impossible
  own := fun _ impossible => nomatch impossible
  dimension := fun _ impossible => nomatch impossible
  refused := fun _ => ⟨failure, rfl⟩

/-- A complete response with one item for each text is what the texts were to get. -/
theorem belong_of_complete {dimensions : ℕ} {texts : List String} {data : List (EmbeddingData α)}
    (complete : Complete dimensions data) (oneEach : data.length = texts.length) :
    BelongToTexts dimensions texts data (.ok (slotsOf data)) where
  onePerText := by
    rintro _ ⟨⟩
    rw [length_slotsOf, oneEach]
  own := by
    rintro _ ⟨⟩ index embedding held
    exact complete.own_slot held
  dimension := by
    rintro _ ⟨⟩ embedding member
    obtain ⟨index, held⟩ := List.mem_iff_getElem?.mp member
    obtain ⟨item, stored, _, rfl⟩ := complete.own_slot held
    exact complete.dimension item stored
  refused := by
    rintro (⟨index, below, wrong⟩ | ⟨item, member, beyond⟩)
    · exact absurd (complete.one_item (oneEach ▸ below)) wrong
    · exact absurd (complete.inRange item member) (Nat.not_lt.mpr (oneEach ▸ beyond))

end OpenAiEmbeddingProvider

open OpenAiEmbeddingProvider in
/-- Embeddings belong to their texts exactly when the response has as many items as texts, or is
refused for a blank text or for not being complete. -/
theorem batch_embeddings_belong_iff {α : Type} (provider : OpenAiEmbeddingProvider)
    (createEmbeddings : EmbeddingsCreateRequest → MemcoreResult (EmbeddingsCreateResponse α))
    (texts : List String) (nonempty : texts ≠ []) (response : EmbeddingsCreateResponse α)
    (answered : createEmbeddings (provider.request texts) = .ok response) :
    BelongToTexts provider.dimensions texts response.data
        (provider.embedBatch createEmbeddings texts) ↔
      (∃ text ∈ texts, Texts.isBlank text = true) ∨ response.data.length = texts.length ∨
        ¬Complete provider.dimensions response.data := by
  have accepted := embedBatch_ok provider createEmbeddings nonempty answered
  cases result : provider.embedBatch createEmbeddings texts with
  | error failure =>
    refine iff_of_true (belong_of_error ..) ?_
    by_contra otherwise
    push Not at otherwise
    obtain ⟨solid, _, complete⟩ := otherwise
    have succeeded := (accepted _).mpr
      ⟨fun text member => Bool.eq_false_iff.mpr (solid text member), complete, rfl⟩
    rw [result] at succeeded
    cases succeeded
  | ok embeddings =>
    obtain ⟨solid, complete, rfl⟩ := (accepted embeddings).mp result
    constructor
    · intro belong
      have one := belong.onePerText _ rfl
      rw [length_slotsOf] at one
      exact .inr (.inl one)
    · rintro (⟨text, member, blank⟩ | oneEach | incomplete)
      · rw [solid text member] at blank
        cases blank
      · exact belong_of_complete complete oneEach
      · exact absurd complete incomplete

open OpenAiEmbeddingProvider in
/-- One text and one item. -/
theorem batch_embeddings_belong_iff_sample :
    BelongToTexts 1 ["a"] [⟨[true], 0⟩]
      (OpenAiEmbeddingProvider.embedBatch ⟨"m", 1, by decide⟩
        (fun _ => .ok ⟨[⟨[true], 0⟩]⟩) ["a"]) :=
  (batch_embeddings_belong_iff ⟨"m", 1, by decide⟩ (fun _ => .ok ⟨[⟨[true], 0⟩]⟩) ["a"]
    (by decide) ⟨[⟨[true], 0⟩]⟩ rfl).mpr (.inr (.inl rfl))

open OpenAiEmbeddingProvider in
/-- Two items for one text are accepted, and two embeddings are returned. -/
theorem surplus_embedding_is_returned :
    OpenAiEmbeddingProvider.embedBatch ⟨"m", 1, by decide⟩
        (fun _ => .ok ⟨[⟨[true], 0⟩, ⟨[false], 1⟩]⟩) ["a"] = .ok [[true], [false]] ∧
      ¬BelongToTexts 1 ["a"] [⟨[true], 0⟩, ⟨[false], 1⟩]
        (OpenAiEmbeddingProvider.embedBatch ⟨"m", 1, by decide⟩
          (fun _ => .ok ⟨[⟨[true], 0⟩, ⟨[false], 1⟩]⟩) ["a"]) := by
  have returned : OpenAiEmbeddingProvider.embedBatch ⟨"m", 1, by decide⟩
      (fun _ => .ok ⟨[⟨[true], 0⟩, ⟨[false], 1⟩]⟩) ["a"] = .ok [[true], [false]] := by rfl
  refine ⟨returned, fun belong => ?_⟩
  have one := belong.onePerText _ returned
  cases one

end Memcore
