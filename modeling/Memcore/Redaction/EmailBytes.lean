import Memcore.Redaction.PassLoops

/-!
# Addresses in bytes

The scanner for e-mail addresses looks at bytes. All characters of an address are single
bytes, and no byte of a longer character looks like one of them, so the ends it finds are
those of the characters. With this the program as a whole does what the scanners say.
-/
namespace Memcore.ByteOffsets

open Texts Scanners ByteTexts

/-- Characters that satisfy such a test are one byte each. -/
def OfAscii (test : Char → Bool) : Prop :=
  ∀ character, test character = true → character.toNat < 128

theorem narrow_of_ascii {test : Char → Bool} (ascii : OfAscii test) {character : Char}
    (tested : test character = true) : character.utf8Size = 1 := by
  by_contra wide
  have large := (wide_iff character).mp wide
  have small := ascii character tested
  omega

theorem alphanum_ascii : OfAscii Char.isAlphanum := by
  intro character tested
  unfold Char.isAlphanum Char.isAlpha Char.isUpper Char.isLower Char.isDigit at tested
  simp only [Bool.or_eq_true, Bool.and_eq_true, decide_eq_true_eq, ge_iff_le,
    UInt32.le_iff_toNat_le, Char.toNat_val] at tested
  simp at tested
  omega

theorem isLocalChar_ascii : OfAscii isLocalChar := by
  intro character tested
  simp only [isLocalChar, Bool.or_eq_true, beq_iff_eq] at tested
  obtain ((((tested | rfl) | rfl) | rfl) | rfl) | rfl := tested
  · exact alphanum_ascii character tested
  all_goals decide

theorem isDomainChar_ascii : OfAscii isDomainChar := by
  intro character tested
  simp only [isDomainChar, Bool.or_eq_true, beq_iff_eq] at tested
  obtain (tested | rfl) | rfl := tested
  · exact alphanum_ascii character tested
  all_goals decide

theorem asChar_of_toNat {byte : UInt8} {character : Char} (same : byte.toNat = character.toNat) :
    asChar byte = character := by
  rw [asChar, same, Char.ofNat_toNat]

/-- A byte of a wide character satisfies no such test. -/
theorem wide_byte {test : Char → Bool} (ascii : OfAscii test) {byte : UInt8}
    (high : 128 ≤ byte.toNat) : test (asChar byte) = false := by
  rw [Bool.eq_false_iff]
  intro tested
  have small := ascii _ tested
  have valid : byte.toNat.isValidChar := .inl (by have := byte.toNat_lt; omega)
  rw [asChar, Char.ofNat, dif_pos valid] at small
  have same : (Char.ofNatAux byte.toNat valid).toNat = byte.toNat := rfl
  omega

theorem bytes_at (front : List Char) (character : Char) (rest : List Char) {offset : ℕ}
    (within : offset < character.utf8Size) :
    (bytes (front ++ character :: rest))[byteLength front + offset]? =
      (String.utf8EncodeChar character)[offset]? := by
  rw [bytes_append, bytes_cons, ← byteLength_eq_length_bytes, List.getElem?_append_right (by omega),
    Nat.add_sub_cancel_left, List.getElem?_append_left (by simpa using within)]

/-- The byte of a character at an offset tests as the character does. -/
theorem byte_tested (front : List Char) (character : Char) (rest : List Char) {offset : ℕ}
    (within : offset < character.utf8Size) :
    ∃ byte, (bytes (front ++ character :: rest))[byteLength front + offset]? = some byte ∧
      ∀ test, OfAscii test → test (asChar byte) = test character := by
  rw [bytes_at front character rest within]
  by_cases narrow : character.utf8Size = 1
  · obtain ⟨byte, encoded, same⟩ := bytes_of_narrow narrow
    obtain rfl : offset = 0 := by omega
    exact ⟨byte, by rw [encoded]; rfl, fun test _ => by rw [asChar_of_toNat same]⟩
  · have inside : offset < (String.utf8EncodeChar character).length := by simpa using within
    have high := bytes_of_wide narrow _ (List.getElem_mem inside)
    refine ⟨_, List.getElem?_eq_getElem inside, fun test ascii => ?_⟩
    rw [wide_byte ascii high, eq_comm, Bool.eq_false_iff]
    exact fun tested => narrow (narrow_of_ascii ascii tested)

/-- From an @ the local part is what reads as one backwards. -/
theorem findEmailLocalStart_at (before rest : List Char) :
    findEmailLocalStart (bytes (before.reverse ++ rest)) (byteLength before) =
      .ok (byteLength before - (before.takeWhile isLocalChar).length) := by
  induction before generalizing rest with
  | nil => rfl
  | cons character before inductionHypothesis =>
    obtain ⟨last, size⟩ := Nat.exists_eq_succ_of_ne_zero character.utf8Size_pos.ne'
    obtain ⟨byte, read, tested⟩ := byte_tested before.reverse character rest
      (show last < character.utf8Size by omega)
    have tested := tested isLocalChar isLocalChar_ascii
    rw [byteLength_reverse] at read
    have place : byteLength (character :: before) = (byteLength before + last) + 1 := by
      rw [byteLength_cons, size]
      omega
    rw [List.reverse_cons, List.append_assoc, List.singleton_append, place, findEmailLocalStart, read]
    cases isLocal : isLocalChar character with
    | false =>
      rw [List.takeWhile_cons_of_neg (by simp [isLocal])]
      simp [tested, isLocal]
    | true =>
      have narrow := narrow_of_ascii isLocalChar_ascii isLocal
      obtain rfl : last = 0 := by omega
      have goesOn := inductionHypothesis (character :: rest)
      rw [List.takeWhile_cons_of_pos isLocal]
      simp only [tested, isLocal, if_true, Nat.add_zero, goesOn, List.length_cons]
      congr 1
      omega

theorem equals_ascii {other : Char} (ascii : other.toNat < 128) : OfAscii (· == other) := by
  intro character tested
  rw [beq_iff_eq] at tested
  rwa [tested]

/-- One step of the loop over a domain. -/
theorem domainLoop_step {message : List UInt8} {i : ℕ} {byte : UInt8} (steps : ℕ) (sawDot : Bool)
    (read : message[i]? = some byte) :
    domainLoop message (steps + 1) i sawDot =
      if isDomainChar (asChar byte) then
        domainLoop message steps (i + 1) (sawDot || asChar byte == '.')
      else .ok (i, sawDot) := by
  obtain ⟨inside, _⟩ := List.getElem?_eq_some_iff.mp read
  rw [domainLoop, if_pos inside, read]
  by_cases dot : asChar byte = '.'
  · simp [dot, isDomainChar]
  · have noDot : (asChar byte == '.') = false := beq_eq_false_iff_ne.mpr dot
    simp [noDot, isDomainChar]

/-- Behind it the domain is what reads as one. -/
theorem domainLoop_at (front rest : List Char) (steps : ℕ) (sawDot : Bool)
    (enough : byteLength rest < steps) :
    domainLoop (bytes (front ++ rest)) steps (byteLength front) sawDot =
      .ok (byteLength front + (rest.takeWhile isDomainChar).length,
        sawDot || (rest.takeWhile isDomainChar).contains '.') := by
  induction rest generalizing front steps sawDot with
  | nil =>
    cases steps with
    | zero => nomatch enough
    | succ steps => simp [domainLoop, byteLength_eq_length_bytes]
  | cons character rest inductionHypothesis =>
    cases steps with
    | zero => nomatch enough
    | succ steps =>
      obtain ⟨byte, read, tested⟩ := byte_tested front character rest character.utf8Size_pos
      rw [Nat.add_zero] at read
      have isDomain := tested isDomainChar isDomainChar_ascii
      have isDot := tested (· == '.') (equals_ascii (by decide))
      rw [domainLoop_step steps sawDot read, isDomain, isDot]
      cases inDomain : isDomainChar character with
      | false => simp [List.takeWhile_cons_of_neg, inDomain]
      | true =>
        have narrow := narrow_of_ascii isDomainChar_ascii inDomain
        have goesOn := inductionHypothesis (front ++ [character]) steps (sawDot || character == '.')
          (by rw [byteLength_cons] at enough; omega)
        rw [List.append_assoc, List.singleton_append, byteLength_append, byteLength_cons, narrow,
          byteLength_nil] at goesOn
        rw [if_pos rfl, goesOn, List.takeWhile_cons_of_pos inDomain, List.length_cons,
          List.contains_cons, Bool.or_assoc, Nat.add_assoc, Nat.add_comm 1, BEq.comm]

/-- The domain of an address ends behind its characters, if there is a dot among them. -/
theorem findEmailDomainEnd_at (front rest : List Char) :
    findEmailDomainEnd (bytes (front ++ rest)) (byteLength front) =
      .ok (if (rest.takeWhile isDomainChar).contains '.' then
        byteLength front + (rest.takeWhile isDomainChar).length else byteLength front) := by
  have looped := domainLoop_at front rest ((bytes (front ++ rest)).length + 1) false
    (by rw [byteLength_eq_length_bytes, byteLength_append]; omega)
  rw [findEmailDomainEnd, looped]
  rfl

/-- The characters of an address that are left out. -/
theorem redactEmailsFrom_skips (domain before out rest : List Char) :
    redactEmailsFrom domain.length before out (domain ++ rest) =
      redactEmailsFrom 0 (domain.reverse ++ before) out rest := by
  induction domain generalizing before with
  | nil => rfl
  | cons character domain inductionHypothesis =>
    rw [List.length_cons, List.cons_append, redactEmailsFrom, inductionHypothesis, List.reverse_cons,
      List.append_assoc, List.singleton_append]

/-- The iterator is advanced past the characters of the domain. -/
theorem charIndices_dropWhile {domain : List Char} (rest : List Char) (idx : ℕ)
    (narrow : ∀ character ∈ domain, character.utf8Size = 1) :
    (charIndices idx (domain ++ rest)).dropWhile (fun next => next.1 < idx + domain.length) =
      charIndices (idx + domain.length) rest := by
  induction domain generalizing idx with
  | nil => cases rest <;> simp [charIndices]
  | cons character domain inductionHypothesis =>
    have one := narrow character List.mem_cons_self
    have later := inductionHypothesis (idx + 1)
      fun other member => narrow other (List.mem_cons_of_mem _ member)
    rw [List.cons_append, charIndices, List.dropWhile_cons_of_pos (by simp), one, List.length_cons,
      Nat.add_comm domain.length, ← Nat.add_assoc, later]

/-- One step of the loop over e-mail addresses. -/
theorem emailLoop_step (message : List UInt8) (steps : ℕ) (out : List Char) (idx : ℕ)
    (character : Char) (chars : List (ℕ × Char)) (other : (character == '@') = false) :
    emailLoop message (steps + 1) out ((idx, character) :: chars) =
      emailLoop message steps (out ++ [character]) chars := by
  rw [emailLoop, other]
  rfl

/-- The offsets of both ends tell whether there is an address. -/
theorem address_ends (before rest : List Char) :
    (decide (byteLength before - (before.takeWhile isLocalChar).length < byteLength before) &&
      decide (byteLength before + 1 < if (rest.takeWhile isDomainChar).contains '.' then
        byteLength before + 1 + (rest.takeWhile isDomainChar).length else byteLength before + 1)) =
      (!(before.takeWhile isLocalChar).isEmpty && (rest.takeWhile isDomainChar).contains '.') := by
  have short := (List.takeWhile_prefix isLocalChar (l := before)).length_le
  have bounded := length_le_byteLength before
  cases dotted : (rest.takeWhile isDomainChar).contains '.' with
  | false => simp
  | true =>
    have some : 0 < (rest.takeWhile isDomainChar).length :=
      List.length_pos_of_mem (List.contains_iff_mem.mp dotted)
    have far : byteLength before + 1 <
        byteLength before + 1 + (rest.takeWhile isDomainChar).length := by omega
    rw [if_pos rfl, decide_eq_true far, Bool.and_true, Bool.and_true]
    cases shape : before.takeWhile isLocalChar with
    | nil => simp
    | cons first others =>
      rw [shape, List.length_cons] at short
      have begun : byteLength before - (others.length + 1) < byteLength before := by omega
      rw [List.length_cons, decide_eq_true begun]
      rfl

/-- The loop over e-mail addresses finishes, with what the scanner of characters writes. -/
theorem emailLoop_follows (steps : ℕ) (before out rest : List Char) (enough : rest.length < steps) :
    emailLoop (bytes (before.reverse ++ rest)) steps out.reverse
        (charIndices (byteLength before) rest) =
      .ok (redactEmailsFrom 0 before out rest) := by
  induction steps generalizing before out rest with
  | zero => nomatch enough
  | succ steps inductionHypothesis =>
    cases rest with
    | nil => rfl
    | cons character rest =>
      rw [List.length_cons] at enough
      have goesOn := inductionHypothesis (character :: before) (character :: out) rest (by omega)
      rw [List.reverse_cons, List.append_assoc, List.singleton_append, List.reverse_cons,
        byteLength_cons, Nat.add_comm character.utf8Size] at goesOn
      rw [charIndices]
      cases isAt : character == '@' with
      | false =>
        rw [emailLoop_step _ _ _ _ _ _ isAt, goesOn, redactEmailsFrom]
        simp [isAt]
      | true =>
        obtain rfl : character = '@' := beq_iff_eq.mp isAt
        have localStart := findEmailLocalStart_at before ('@' :: rest)
        have domainEnd := findEmailDomainEnd_at (before.reverse ++ ['@']) rest
        have narrow : '@'.utf8Size = 1 := by decide
        have place : byteLength (before.reverse ++ ['@']) = byteLength before + 1 := by
          simp [narrow]
        rw [List.append_assoc, List.singleton_append, place] at domainEnd
        rw [emailLoop, if_pos isAt, localStart, ok_bind, domainEnd, ok_bind, address_ends,
          redactEmailsFrom, isAt, Bool.true_and]
        cases address : !(before.takeWhile isLocalChar).isEmpty &&
            (rest.takeWhile isDomainChar).contains '.' with
        | false => simpa [narrow] using goesOn
        | true =>
          obtain ⟨domain, left, rfl, inDomain, same⟩ : ∃ domain left, rest = domain ++ left ∧
              (∀ other ∈ domain, isDomainChar other = true) ∧ rest.takeWhile isDomainChar = domain :=
            ⟨_, _, List.takeWhile_append_dropWhile.symm, fun _ => List.mem_takeWhile_imp, rfl⟩
          rw [same] at address ⊢
          have dotted := (Bool.and_eq_true_iff.mp address).2
          have advanced := charIndices_dropWhile left (byteLength before + 1) fun other member =>
            narrow_of_ascii isDomainChar_ascii (inDomain other member)
          have ends : byteLength (domain.reverse ++ '@' :: before) =
              byteLength before + 1 + domain.length := by
            have single := byteLength_of_single fun other member =>
              narrow_of_ascii isDomainChar_ascii (inDomain other member)
            rw [byteLength_append, byteLength_reverse, byteLength_cons, narrow, single]
            omega
          have later := inductionHypothesis (domain.reverse ++ '@' :: before)
            (redactedPlaceholder.reverse ++ popTo (byteLength before -
              (before.takeWhile isLocalChar).length) out) left
            (by rw [List.length_append] at enough; omega)
          rw [ends, List.reverse_append, List.reverse_append, List.reverse_reverse,
            List.reverse_reverse, List.reverse_cons, List.append_assoc, List.append_assoc,
            List.singleton_append] at later
          rw [dotted, if_pos rfl, if_pos rfl, if_pos rfl, List.reverse_reverse, narrow, advanced,
            redactEmailsFrom_skips]
          exact later

theorem redactEmails_follows (message : List Char) :
    redactEmails message = .ok (Memcore.redactEmails message) :=
  emailLoop_follows (byteLength message + 1) [] [] message
    (Nat.lt_succ_of_le (length_le_byteLength message))

/-- The program panics exactly where a scanner fails, and it always finishes. -/
theorem redactStrWithConfig_follows (config : RedactionConfig) (input : List Char) :
    redactStrWithConfig config input = outcome (Memcore.redactStrWithConfig config input) := by
  rw [redactStrWithConfig, foldlM_passes (passes_follow config), Memcore.redactStrWithConfig]
  cases passes (redactionRules config) input with
  | none => rfl
  | some out =>
    cases asked : config.redactEmails with
    | false => simp [outcome]
    | true => simp [outcome, redactEmails_follows]

end Memcore.ByteOffsets
