import Memcore.Redaction.EmailBytes

/-!
# E-mail addresses of a message

An address is a local part as long as it goes back from an @, the @ and a domain as far as
it goes on behind it, with a dot in it. Read from the left, a message is a text and an
address in turn, and a text at the end. The text before an address ends with its local
part, unless the local part goes back into the address before.
-/
namespace Memcore

open Texts ByteTexts

/-- An address, with the text between the end of the address before it and its @. -/
structure Address where
  between : List Char
  localPart : List Char
  domain : List Char
  deriving DecidableEq

/-- The number of its characters, which is that of its bytes. -/
def Address.size (address : Address) : ℕ :=
  address.localPart.length + 1 + address.domain.length

/-- Read on, with what was read so far and what was read since the last address, both
reversed. The first argument counts the characters of a domain that are still to come. -/
def readAddresses : ℕ → List Char → List Char → List Char → List Address × List Char
  | _, _, between, [] => ([], between.reverse)
  | left + 1, before, between, character :: rest =>
      readAddresses left (character :: before) between rest
  | 0, before, between, character :: rest =>
      let localPart := before.takeWhile isLocalChar
      let domain := rest.takeWhile isDomainChar
      if character == '@' && !localPart.isEmpty && domain.contains '.' then
        let later := readAddresses domain.length (character :: before) [] rest
        (⟨between.reverse, localPart.reverse, domain⟩ :: later.1, later.2)
      else readAddresses 0 (character :: before) (character :: between) rest

/-- The addresses of a message, from the left. -/
def addresses (message : List Char) : List Address :=
  (readAddresses 0 [] [] message).1

/-- What is behind the last of them. -/
def lastText (message : List Char) : List Char :=
  (readAddresses 0 [] [] message).2

/-- No address goes back into the one before it. -/
def AddressesApart (message : List Char) : Prop :=
  ∀ address ∈ addresses message, address.localPart.length ≤ address.between.length

instance (message : List Char) : Decidable (AddressesApart message) :=
  inferInstanceAs (Decidable (∀ address ∈ addresses message, _))

/-- The texts and addresses put together. -/
def joined : List Address → List Char → List Char
  | [], last => last
  | address :: more, last => address.between ++ '@' :: (address.domain ++ joined more last)

/-- The texts with a placeholder for each address. -/
def replaced : List Address → List Char → List Char
  | [], last => last
  | address :: more, last =>
      address.between.take (address.between.length - address.localPart.length) ++
        redactedPlaceholder ++ replaced more last

theorem readAddresses_skips (domain before between rest : List Char) :
    readAddresses domain.length before between (domain ++ rest) =
      readAddresses 0 (domain.reverse ++ before) between rest := by
  induction domain generalizing before with
  | nil => rfl
  | cons character domain inductionHypothesis =>
    rw [List.length_cons, List.cons_append, readAddresses, inductionHypothesis, List.reverse_cons,
      List.append_assoc, List.singleton_append]

/-- What happens at a character outside of a domain. -/
theorem readAddresses_cases (before between rest : List Char) (character : Char) :
    (∃ localPart domain left, character = '@' ∧ localPart = before.takeWhile isLocalChar ∧
      rest = domain ++ left ∧ (∀ other ∈ domain, isDomainChar other = true) ∧
      rest.takeWhile isDomainChar = domain ∧ localPart ≠ [] ∧ '.' ∈ domain ∧
      readAddresses 0 before between (character :: rest) =
        (⟨between.reverse, localPart.reverse, domain⟩ ::
          (readAddresses 0 (domain.reverse ++ '@' :: before) [] left).1,
          (readAddresses 0 (domain.reverse ++ '@' :: before) [] left).2) ∧
      ∀ out, redactEmailsFrom 0 before out (character :: rest) =
        redactEmailsFrom 0 (domain.reverse ++ '@' :: before) (redactedPlaceholder.reverse ++
          popTo (byteLength before - localPart.length) out) left) ∨
    (readAddresses 0 before between (character :: rest) =
        readAddresses 0 (character :: before) (character :: between) rest ∧
      ∀ out, redactEmailsFrom 0 before out (character :: rest) =
        redactEmailsFrom 0 (character :: before) (character :: out) rest) := by
  cases address : character == '@' && !(before.takeWhile isLocalChar).isEmpty &&
      (rest.takeWhile isDomainChar).contains '.' with
  | false =>
    right
    constructor
    · rw [readAddresses, if_neg (Bool.eq_false_iff.mp address)]
    · intro out
      rw [redactEmailsFrom, if_neg (Bool.eq_false_iff.mp address)]
  | true =>
    left
    have parts := address
    simp only [Bool.and_eq_true, beq_iff_eq, Bool.not_eq_true', List.isEmpty_eq_false_iff,
      List.contains_iff_mem] at parts
    obtain ⟨⟨rfl, nonempty⟩, dotted⟩ := parts
    have split : rest = rest.takeWhile isDomainChar ++ rest.dropWhile isDomainChar :=
      List.takeWhile_append_dropWhile.symm
    refine ⟨_, _, _, rfl, rfl, split, fun _ => List.mem_takeWhile_imp, rfl, nonempty, dotted, ?_, ?_⟩
    · have skips := readAddresses_skips (rest.takeWhile isDomainChar) ('@' :: before) []
        (rest.dropWhile isDomainChar)
      rw [← split] at skips
      rw [readAddresses, if_pos address, skips]
    · intro out
      have skips := ByteOffsets.redactEmailsFrom_skips (rest.takeWhile isDomainChar) ('@' :: before)
        (redactedPlaceholder.reverse ++ popTo (byteLength before -
          (before.takeWhile isLocalChar).length) out) (rest.dropWhile isDomainChar)
      rw [← split] at skips
      rw [redactEmailsFrom, if_pos address]
      exact skips

theorem isLocalChar_of_domain {character : Char} (inDomain : isDomainChar character = true) :
    isLocalChar character = true := by
  simp only [isDomainChar, isLocalChar, Bool.or_eq_true] at inDomain ⊢
  tauto

/-- What is read is the message. -/
theorem joined_readAddresses (count : ℕ) (before between rest : List Char)
    (long : rest.length ≤ count) :
    joined (readAddresses 0 before between rest).1 (readAddresses 0 before between rest).2 =
      between.reverse ++ rest := by
  induction count generalizing before between rest with
  | zero =>
    obtain rfl := List.length_eq_zero_iff.mp (Nat.le_zero.mp long)
    simp [readAddresses, joined]
  | succ count inductionHypothesis =>
    cases rest with
    | nil => simp [readAddresses, joined]
    | cons character rest =>
      rw [List.length_cons] at long
      obtain ⟨localPart, domain, left, rfl, _, rfl, _, _, _, _, read, _⟩ | ⟨read, _⟩ :=
        readAddresses_cases before between rest character
      · rw [List.length_append] at long
        rw [read, joined, inductionHypothesis _ _ _ (by omega)]
        rfl
      · rw [read, inductionHypothesis _ _ _ (by omega)]
        simp

theorem joined_addresses (message : List Char) :
    joined (addresses message) (lastText message) = message :=
  joined_readAddresses message.length [] [] message (Nat.le_refl _)

/-- The characters of the two parts of an address. -/
structure Address.WellFormed (address : Address) : Prop where
  localChars : ∀ character ∈ address.localPart, isLocalChar character = true
  localSome : address.localPart ≠ []
  domainChars : ∀ character ∈ address.domain, isDomainChar character = true
  domainSome : address.domain ≠ []

theorem Address.WellFormed.size_le {address : Address} (formed : address.WellFormed) :
    3 ≤ address.size := by
  have first := List.length_pos_iff.mpr formed.localSome
  have second := List.length_pos_iff.mpr formed.domainSome
  unfold Address.size
  omega

/-- The local part stands behind a character that is in no local part. -/
def Address.Separated (address : Address) : Prop :=
  ∃ gap symbol, address.between = gap ++ symbol :: address.localPart ∧ isLocalChar symbol = false

theorem readAddresses_wellFormed (count : ℕ) (before between rest : List Char)
    (long : rest.length ≤ count) :
    ∀ address ∈ (readAddresses 0 before between rest).1, address.WellFormed := by
  induction count generalizing before between rest with
  | zero =>
    obtain rfl := List.length_eq_zero_iff.mp (Nat.le_zero.mp long)
    exact fun _ member => nomatch member
  | succ count inductionHypothesis =>
    cases rest with
    | nil => exact fun _ member => nomatch member
    | cons character rest =>
      rw [List.length_cons] at long
      obtain ⟨localPart, domain, left, rfl, rfl, rfl, inDomain, _, nonempty, dotted, read, _⟩ |
        ⟨read, _⟩ := readAddresses_cases before between rest character
      · rw [List.length_append] at long
        rw [read]
        intro address member
        obtain rfl | later := List.mem_cons.mp member
        · constructor
          · intro other inLocal
            exact List.mem_takeWhile_imp (List.mem_reverse.mp inLocal)
          · exact fun empty => nonempty (List.reverse_eq_nil_iff.mp empty)
          · exact inDomain
          · exact List.ne_nil_of_mem dotted
        · exact inductionHypothesis _ _ _ (by omega) address later
      · rw [read]
        exact inductionHypothesis _ _ _ (by omega)

/-- A local part that does not go back beyond a text is its end. If the text before it ends
with a character of a local part, there is another character between. -/
theorem localPart_split {between front : List Char}
    (short : ((between ++ front).takeWhile isLocalChar).length ≤ between.length) :
    (∃ gap, between = (between ++ front).takeWhile isLocalChar ++ gap) ∧
      (front.head?.any isLocalChar = true → ∃ symbol gap, isLocalChar symbol = false ∧
        between = (between ++ front).takeWhile isLocalChar ++ symbol :: gap) := by
  rw [List.takeWhile_append] at short ⊢
  split at short
  · next whole =>
    rw [if_pos whole, List.length_append] at *
    have empty : front.takeWhile isLocalChar = [] := List.length_eq_zero_iff.mp (by omega)
    rw [empty, List.append_nil]
    refine ⟨⟨[], (List.append_nil _).symm⟩, fun continues => ?_⟩
    cases front with
    | nil => nomatch continues
    | cons symbol front =>
      rw [List.takeWhile_cons_of_pos (by simpa using continues)] at empty
      nomatch empty
  · next part =>
    rw [if_neg part]
    have split := List.takeWhile_append_dropWhile (p := isLocalChar) (l := between)
    refine ⟨⟨_, split.symm⟩, fun _ => ?_⟩
    have stopped := List.head?_dropWhile_not isLocalChar between
    cases rest : between.dropWhile isLocalChar with
    | nil =>
      rw [rest, List.append_nil] at split
      exact absurd (congrArg List.length split) part
    | cons symbol gap =>
      rw [rest] at split stopped
      exact ⟨symbol, gap, stopped, split.symm⟩

/-- Where no address goes back into the one before it, each but the first is separated from it. -/
theorem readAddresses_shape (count : ℕ) (before between front rest : List Char)
    (long : rest.length ≤ count) (split : before = between ++ front)
    (apart : ∀ address ∈ (readAddresses 0 before between rest).1,
      address.localPart.length ≤ address.between.length) :
    (∀ address ∈ (readAddresses 0 before between rest).1,
      ∃ gap, address.between = gap ++ address.localPart) ∧
    (∀ address ∈ (readAddresses 0 before between rest).1.tail, address.Separated) ∧
    (front.head?.any isLocalChar = true →
      ∀ address ∈ (readAddresses 0 before between rest).1, address.Separated) := by
  induction count generalizing before between front rest with
  | zero =>
    obtain rfl := List.length_eq_zero_iff.mp (Nat.le_zero.mp long)
    simp [readAddresses]
  | succ count inductionHypothesis =>
    cases rest with
    | nil => simp [readAddresses]
    | cons character rest =>
      rw [List.length_cons] at long
      obtain ⟨localPart, domain, left, rfl, rfl, rfl, inDomain, _, _, dotted, read, _⟩ |
        ⟨read, _⟩ := readAddresses_cases before between rest character
      · rw [List.length_append] at long
        rw [read] at apart ⊢
        obtain ⟨begun, separated⟩ := @localPart_split between front (by
          have short := apart _ List.mem_cons_self
          rwa [List.length_reverse, List.length_reverse, split] at short)
        rw [← split] at begun separated
        have continues : (domain.reverse ++ '@' :: before).head?.any isLocalChar = true := by
          cases shape : domain.reverse with
          | nil =>
            rw [List.reverse_eq_nil_iff.mp shape] at dotted
            nomatch dotted
          | cons symbol others =>
            have member : symbol ∈ domain := List.mem_reverse.mp (shape ▸ List.mem_cons_self)
            simpa using isLocalChar_of_domain (inDomain symbol member)
        obtain ⟨laterGap, _, laterSeparated⟩ := inductionHypothesis (domain.reverse ++ '@' :: before)
          [] (domain.reverse ++ '@' :: before) left (by omega) rfl
          fun address member => apart address (List.mem_cons_of_mem _ member)
        refine ⟨?_, laterSeparated continues, ?_⟩
        · intro address member
          obtain rfl | later := List.mem_cons.mp member
          · obtain ⟨gap, ends⟩ := begun
            exact ⟨gap.reverse, by rw [← List.reverse_append, ← ends]⟩
          · exact laterGap address later
        · intro local' address member
          obtain rfl | later := List.mem_cons.mp member
          · obtain ⟨symbol, gap, outside, ends⟩ := separated local'
            refine ⟨gap.reverse, symbol, ?_, outside⟩
            have turned := congrArg List.reverse ends
            simpa using turned
          · exact laterSeparated continues address later
      · rw [read] at apart ⊢
        exact inductionHypothesis (character :: before) (character :: between) front rest (by omega)
          (by rw [split]; rfl) apart

end Memcore
