import Memcore.Foundations.Scanners
import Memcore.Foundations.Texts

/-!
# Sanitizer

The redactor takes secrets out of a message. Each of its passes searches the message from
the left for a pattern, without regard to case, writes a placeholder for the value behind
it and goes on where the value ends. Messages are lists of characters. A pass slices the
message by bytes; a slice that would cut a character makes the program panic.
-/
namespace Memcore

open Texts Scanners

/-- Replacement text used for redacted secret values. -/
def redactedPlaceholder : List Char := "[REDACTED]".toList

/-- Toggle flags for pattern-based redaction. -/
structure RedactionConfig where
  redactEmails : Bool
  redactBearerTokens : Bool
  redactApiKeys : Bool
  redactDatabaseUrls : Bool
  redactProviderKeys : Bool
  redactRedisUrls : Bool

def defaultRedactionConfig : RedactionConfig where
  redactEmails := false
  redactBearerTokens := true
  redactApiKeys := true
  redactDatabaseUrls := true
  redactProviderKeys := true
  redactRedisUrls := true

def databaseUrlSchemes : List String :=
  ["postgres://", "postgresql://", "mysql://", "mongodb://", "sqlite://"]

def redisUrlSchemes : List String := ["redis://", "rediss://"]

def keyValueSecretKeys : List String :=
  ["api_key", "apikey", "access_token", "refresh_token", "password", "secret", "token",
    "key_hash", "provider_secret", "openai_api_key", "memcore_dev_api_key",
    "memcore_api_key_pepper", "memcore_postgres_url", "memcore_redis_url"]

def providerKeyPrefixes : List String := ["sk-", "sk_live_", "sk_test_", "mc_live_"]

/-- Lowercase for the letters A to Z. -/
def lowered (text : List Char) : List Char :=
  text.map Char.toLower

/-- Whether a text begins with a pattern, without regard to case. -/
def begins (pattern text : List Char) : Bool :=
  lowered (text.take pattern.length) == lowered pattern

/-- ASCII letters, digits and the underscore. -/
def isWordChar (character : Char) : Bool :=
  character.isAlphanum || character == '_'

/-- Avoid matching mid-word. -/
def atBoundary (before : Option Char) : Bool :=
  !before.any isWordChar

/-- What ends a value in most passes. -/
def endsValue (character : Char) : Bool :=
  isWhitespace character || character == '"' || character == '\'' || character == ',' ||
    character == '}'

/-- What may stand between a key and its value. -/
def precedesValue (character : Char) : Bool :=
  isWhitespace character || character == '"' || character == '\''

/-- The characters in the first bytes of a text, unless the slice cuts one. -/
def sliceBytes : ℕ → List Char → Option (List Char)
  | 0, _ => some []
  | _ + 1, [] => none
  | bytes + 1, character :: rest =>
      if character.utf8Size ≤ bytes + 1 then
        (sliceBytes (bytes + 1 - character.utf8Size) rest).map (character :: ·)
      else none

/-- What is trimmed before a value: the characters are counted, and so many bytes are sliced. -/
def trimmedBefore (trims : Char → Bool) (text : List Char) : Option (List Char) :=
  sliceBytes (text.takeWhile trims).length text

/-- A value after `authorization:`, with or without a leading `bearer`. -/
def redactAuthorizationBearer : Rule Char where
  sees _ text :=
    let marker := "authorization:".toList
    if begins marker text then
      match trimmedBefore isWhitespace (text.drop marker.length) with
      | none => .fails
      | some trimmed =>
          let rest := (text.drop marker.length).drop trimmed.length
          if begins "bearer ".toList rest then
            .mark (text.take marker.length ++ trimmed ++ "Bearer ".toList ++ redactedPlaceholder)
              (marker.length + trimmed.length + "bearer ".toList.length)
          else
            .mark (text.take marker.length ++ trimmed ++ redactedPlaceholder)
              (marker.length + trimmed.length)
    else .nothing
  stops := endsValue

/-- What follows a URL scheme, up to whitespace. -/
def redactUrlScheme (scheme : List Char) : Rule Char where
  sees _ text :=
    if begins scheme text then .mark (scheme ++ redactedPlaceholder) scheme.length else .nothing
  stops := isWhitespace

/-- What follows the first characters of a token. -/
def redactPrefixedToken (start : List Char) : Rule Char where
  sees before text :=
    if begins start text && atBoundary before then
      .mark (text.take start.length ++ redactedPlaceholder) start.length
    else .nothing
  stops := endsValue

/-- A value after a key, a separator and what may stand between. -/
def redactAfterPattern (pattern : List Char) : Rule Char where
  sees before text :=
    if begins pattern text && atBoundary before then
      match trimmedBefore precedesValue (text.drop pattern.length) with
      | none => .fails
      | some trimmed =>
          .mark (text.take pattern.length ++ trimmed ++ redactedPlaceholder)
            (pattern.length + trimmed.length)
    else .nothing
  stops := endsValue

/-- The patterns of a key, in the order they are tried. -/
def keyPatterns (key : String) : List (List Char) :=
  let word := key.toList
  [word ++ ['='], word ++ [':'], '"' :: (word ++ ['"', ':']), '\'' :: (word ++ ['\'', ':'])]

def redactKeyValue (key : String) : List (Rule Char) :=
  (keyPatterns key).map redactAfterPattern

/-- Characters before the @ of an e-mail address. -/
def isLocalChar (character : Char) : Bool :=
  character.isAlphanum || character == '.' || character == '_' || character == '%' ||
    character == '+' || character == '-'

/-- Characters after it. -/
def isDomainChar (character : Char) : Bool :=
  character.isAlphanum || character == '-' || character == '.'

/-- Remove characters from the end of a reversed text until it has at most so many bytes. -/
def popTo (bytes : ℕ) : List Char → List Char
  | [] => []
  | character :: rest =>
      if bytes < ((character :: rest).map Char.utf8Size).sum then popTo bytes rest
      else character :: rest

/-- Read on, with what was read and what was written so far, both reversed. The first
argument counts the characters of an address that are still to be left out. -/
def redactEmailsFrom : ℕ → List Char → List Char → List Char → List Char
  | _, _, out, [] => out.reverse
  | skipped + 1, before, out, character :: rest =>
      redactEmailsFrom skipped (character :: before) out rest
  | 0, before, out, character :: rest =>
      let localPart := before.takeWhile isLocalChar
      let domain := rest.takeWhile isDomainChar
      if character == '@' && !localPart.isEmpty && domain.contains '.' then
        let localStart := (before.map Char.utf8Size).sum - localPart.length
        redactEmailsFrom domain.length (character :: before)
          (redactedPlaceholder.reverse ++ popTo localStart out) rest
      else redactEmailsFrom 0 (character :: before) (character :: out) rest

/-- E-mail addresses, which the default configuration leaves alone. -/
def redactEmails (message : List Char) : List Char :=
  redactEmailsFrom 0 [] [] message

/-- The passes that a configuration asks for, in their order. -/
def redactionRules (config : RedactionConfig) : List (Rule Char) :=
  (if config.redactBearerTokens then
    [redactAuthorizationBearer, redactPrefixedToken "Bearer ".toList,
      redactPrefixedToken "bearer ".toList]
  else []) ++
  (if config.redactDatabaseUrls then
    databaseUrlSchemes.map (redactUrlScheme ·.toList) ++ [redactUrlScheme "sqlite:".toList]
  else []) ++
  (if config.redactRedisUrls then redisUrlSchemes.map (redactUrlScheme ·.toList) else []) ++
  (if config.redactProviderKeys then
    providerKeyPrefixes.map (redactPrefixedToken ·.toList)
  else []) ++
  (if config.redactApiKeys then keyValueSecretKeys.flatMap redactKeyValue else [])

/-- A panic of one of the passes is `none`. -/
def redactStrWithConfig (config : RedactionConfig) (input : List Char) : Option (List Char) :=
  (passes (redactionRules config) input).map fun out =>
    if config.redactEmails then redactEmails out else out

def redactStr (input : List Char) : Option (List Char) :=
  redactStrWithConfig defaultRedactionConfig input

end Memcore
