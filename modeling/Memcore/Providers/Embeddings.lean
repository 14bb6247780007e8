import Memcore.Domain.Values
import Memcore.Foundations.Slots

/-!
# Embeddings from a server

All texts are sent in one request. The items of the response name the text they belong to by its
index, and are brought into order by it. An item whose index is left out has index zero.
-/
namespace Memcore

/-- The request for the embeddings of texts. -/
structure EmbeddingsCreateRequest where
  model : String
  input : List String
  dimensions : Option ℕ

/-- One embedding of a response. -/
structure EmbeddingData (α : Type) where
  embedding : List α
  index : ℕ
  deriving DecidableEq

/-- An item as it comes over the wire. -/
def EmbeddingData.deserialize {α : Type} (embedding : List α) (index : Option ℕ) :
    EmbeddingData α :=
  ⟨embedding, index.getD 0⟩

structure EmbeddingsCreateResponse (α : Type) where
  data : List (EmbeddingData α)

structure OpenAiEmbeddingProvider where
  model : String
  dimensions : ℕ
  positive : 0 < dimensions

namespace OpenAiEmbeddingProvider

variable {α : Type}

def new (model : String) (dimensions : ℕ) : MemcoreResult OpenAiEmbeddingProvider :=
  if positive : 0 < dimensions then .ok ⟨model, dimensions, positive⟩
  else .error (.validationError "embedding dimensions must be greater than 0")

def validateNonEmptyText (text : String) : MemcoreResult Unit :=
  if Texts.isBlank text then .error (.validationError "embedding text cannot be empty")
  else .ok ()

def validateEmbeddingDimensions (embedding : List α) (expected : ℕ) : MemcoreResult Unit :=
  if embedding.length ≠ expected then
    .error (.providerError ("OpenAI embedding dimension mismatch: expected " ++
      toString expected ++ ", got " ++ toString embedding.length))
  else .ok ()

/-- Check the items in turn and write each into its slot. -/
def order (expected : ℕ) (ordered : List (List α)) :
    List (EmbeddingData α) → MemcoreResult (List (List α))
  | [] => .ok ordered
  | item :: rest => do
    validateEmbeddingDimensions item.embedding expected
    if ordered.length ≤ item.index then
      .error (.providerError "OpenAI embeddings response index out of range")
    else order expected (ordered.set item.index item.embedding) rest

def request (provider : OpenAiEmbeddingProvider) (texts : List String) :
    EmbeddingsCreateRequest :=
  ⟨provider.model, texts, some provider.dimensions⟩

/-- The embeddings of a list of texts, where the client sends a request to the server. -/
def embedBatch (provider : OpenAiEmbeddingProvider)
    (createEmbeddings : EmbeddingsCreateRequest → MemcoreResult (EmbeddingsCreateResponse α))
    (texts : List String) : MemcoreResult (List (List α)) := do
  if texts.isEmpty then return []
  texts.forM validateNonEmptyText
  let response ← createEmbeddings (provider.request texts)
  if response.data.isEmpty then
    .error (.providerError "OpenAI embeddings response contained no data")
  else
    let ordered ← order provider.dimensions (List.replicate response.data.length []) response.data
    if ordered.any List.isEmpty then
      .error (.providerError "OpenAI embeddings response missing one or more indices")
    else return ordered

end OpenAiEmbeddingProvider

end Memcore
