import Memcore.Foundations.ByteTexts
import Memcore.Redaction.Sanitizer

/-!
# Byte offsets of the redactor

The passes of the redactor as loops over byte offsets. A pass searches a lowered copy of
the message from `idx` on, slices the message at the offset found and sets `idx` behind
the value. Offsets behind a marker are computed from a count of characters. Every slice
of the message may panic, and every loop is given a number of steps.

The scanners of `Redaction.Sanitizer` say what each pass makes of a message. That the
loops do the same is shown in `Redaction.PassLoops` and `Redaction.EmailBytes`.
-/
namespace Memcore.ByteOffsets

open Texts Scanners ByteTexts

/-- The offset at which a value ends that begins at `start`. -/
def valueEnd (stops : Char → Bool) (message : List Char) (start : ℕ) : Run ℕ := do
  let rest ← sliceFrom start message
  return ((findChar stops rest).map (start + ·)).getD (byteLength message)

/-- Whether a match at `start` is in the middle of a word. -/
def midWord (message : List Char) (start : ℕ) : Run Bool := do
  if 0 < start then
    let front ← slice 0 start message
    return front.getLast?.any isWordChar
  else return false

/-- `while let Some(rel) = lower[idx..].find(needle) { … }`, and what is left is pushed. The
body is given `idx` and `idx + rel`; it says what it pushes and where `idx` is set. -/
def whileFound (message needle : List Char) (body : ℕ → ℕ → Run (List Char × ℕ)) :
    ℕ → ℕ → List Char → Run (List Char)
  | 0, _, _ => throw .unfinished
  | steps + 1, idx, out => do
      let ahead ← sliceFrom idx (lowered message)
      match findText needle ahead with
      | none =>
          let left ← sliceFrom idx message
          return out ++ left
      | some rel =>
          let (written, next) ← body idx (idx + rel)
          whileFound message needle body steps next (out ++ written)

/-- The body of `redact_authorization_bearer`. -/
def authorizationBody (message : List Char) (idx start : ℕ) : Run (List Char × ℕ) := do
  let marker := "authorization:".toList
  let front ← slice idx start message
  let found ← slice start (start + byteLength marker) message
  let after := start + byteLength marker
  let behind ← sliceFrom after message
  let trimmed := (behind.takeWhile isWhitespace).length
  let valueStart := after + trimmed
  let between ← slice after valueStart message
  let rest ← sliceFrom valueStart message
  if "bearer ".toList.isPrefixOf (lowered rest) then
    let tokenStart := valueStart + byteLength "bearer ".toList
    let tokenEnd ← valueEnd endsValue message tokenStart
    return (front ++ found ++ between ++ "Bearer ".toList ++ redactedPlaceholder, tokenEnd)
  else
    let stop ← valueEnd endsValue message valueStart
    return (front ++ found ++ between ++ redactedPlaceholder, stop)

/-- The body of `redact_url_scheme`. -/
def urlSchemeBody (scheme message : List Char) (idx start : ℕ) : Run (List Char × ℕ) := do
  let front ← slice idx start message
  let after := start + byteLength scheme
  let stop ← valueEnd isWhitespace message after
  return (front ++ scheme ++ redactedPlaceholder, stop)

/-- The body of `redact_prefixed_token`. -/
def prefixedTokenBody (start message : List Char) (idx found : ℕ) : Run (List Char × ℕ) := do
  if ← midWord message found then
    let front ← slice idx (found + 1) message
    return (front, found + 1)
  else
    let front ← slice idx found message
    let taken ← slice found (found + byteLength start) message
    let valueStart := found + byteLength start
    let stop ← valueEnd endsValue message valueStart
    return (front ++ taken ++ redactedPlaceholder, stop)

/-- The body of `redact_after_pattern`. -/
def afterPatternBody (pattern message : List Char) (idx start : ℕ) : Run (List Char × ℕ) := do
  if ← midWord message start then
    let front ← slice idx (start + 1) message
    return (front, start + 1)
  else
    let valueStart := start + byteLength pattern
    let front ← slice idx valueStart message
    let behind ← sliceFrom valueStart message
    let trimmed := (behind.takeWhile precedesValue).length
    let tokenStart := valueStart + trimmed
    let between ← slice valueStart tokenStart message
    let tokenEnd ← valueEnd endsValue message tokenStart
    return (front ++ between ++ redactedPlaceholder, tokenEnd)

def redactAuthorizationBearer (message : List Char) : Run (List Char) :=
  whileFound message "authorization:".toList (authorizationBody message)
    (byteLength message + 1) 0 []

def redactUrlScheme (scheme message : List Char) : Run (List Char) :=
  whileFound message (lowered scheme) (urlSchemeBody scheme message) (byteLength message + 1) 0 []

def redactPrefixedToken (start message : List Char) : Run (List Char) :=
  whileFound message (lowered start) (prefixedTokenBody start message)
    (byteLength message + 1) 0 []

def redactAfterPattern (pattern message : List Char) : Run (List Char) :=
  whileFound message (lowered pattern) (afterPatternBody pattern message)
    (byteLength message + 1) 0 []

def redactKeyValue (key : String) : List (List Char → Run (List Char)) :=
  (keyPatterns key).map redactAfterPattern

/-- A byte as a character, which it is in ASCII. -/
def asChar (byte : UInt8) : Char := Char.ofNat byte.toNat

/-- From the @ back over the bytes of the local part. -/
def findEmailLocalStart (message : List UInt8) : ℕ → Run ℕ
  | 0 => .ok 0
  | i + 1 =>
      match message[i]? with
      | none => .error .panicked
      | some previous =>
          if isLocalChar (asChar previous) then findEmailLocalStart message i else .ok (i + 1)

/-- On over the bytes of a domain, and whether a dot was among them. -/
def domainLoop (message : List UInt8) : ℕ → ℕ → Bool → Run (ℕ × Bool)
  | 0, _, _ => .error .unfinished
  | steps + 1, i, sawDot =>
      if i < message.length then
        match message[i]? with
        | none => .error .panicked
        | some byte =>
            if (asChar byte).isAlphanum || asChar byte == '-' then
              domainLoop message steps (i + 1) sawDot
            else if asChar byte == '.' then domainLoop message steps (i + 1) true
            else .ok (i, sawDot)
      else .ok (i, sawDot)

def findEmailDomainEnd (message : List UInt8) (start : ℕ) : Run ℕ := do
  let (i, sawDot) ← domainLoop message (message.length + 1) start false
  return if sawDot then i else start

/-- The characters of a text with their offsets, from a first one on. -/
def charIndices : ℕ → List Char → List (ℕ × Char)
  | _, [] => []
  | idx, character :: rest => (idx, character) :: charIndices (idx + character.utf8Size) rest

/-- The loop of `redact_emails` over the characters that are left. -/
def emailLoop (message : List UInt8) : ℕ → List Char → List (ℕ × Char) → Run (List Char)
  | 0, _, _ => throw .unfinished
  | _ + 1, out, [] => return out
  | steps + 1, out, (idx, character) :: chars => do
      if character == '@' then
        let localStart ← findEmailLocalStart message idx
        let domainEnd ← findEmailDomainEnd message (idx + 1)
        if localStart < idx && idx + 1 < domainEnd then
          emailLoop message steps ((popTo localStart out.reverse).reverse ++ redactedPlaceholder)
            (chars.dropWhile fun next => next.1 < domainEnd)
        else emailLoop message steps (out ++ [character]) chars
      else emailLoop message steps (out ++ [character]) chars

def redactEmails (message : List Char) : Run (List Char) :=
  emailLoop (bytes message) (byteLength message + 1) [] (charIndices 0 message)

/-- The passes that a configuration asks for, in their order. -/
def redactionPasses (config : RedactionConfig) : List (List Char → Run (List Char)) :=
  (if config.redactBearerTokens then
    [redactAuthorizationBearer, redactPrefixedToken "Bearer ".toList,
      redactPrefixedToken "bearer ".toList]
  else []) ++
  (if config.redactDatabaseUrls then
    databaseUrlSchemes.map (redactUrlScheme ·.toList) ++ [redactUrlScheme "sqlite:".toList]
  else []) ++
  (if config.redactRedisUrls then redisUrlSchemes.map (redactUrlScheme ·.toList) else []) ++
  (if config.redactProviderKeys then
    providerKeyPrefixes.map (redactPrefixedToken ·.toList)
  else []) ++
  (if config.redactApiKeys then keyValueSecretKeys.flatMap redactKeyValue else [])

def redactStrWithConfig (config : RedactionConfig) (input : List Char) : Run (List Char) := do
  let out ← (redactionPasses config).foldlM (fun out pass => pass out) input
  if config.redactEmails then redactEmails out else return out

def redactStr (input : List Char) : Run (List Char) :=
  redactStrWithConfig defaultRedactionConfig input

end Memcore.ByteOffsets
