import Memcore.Redaction.Addresses

/-!
# Redaction of e-mail addresses

Before it writes a placeholder the scanner takes back what it has written of the local
part, down to the offset at which the local part begins in the message. What is written
has that length only as long as every address was as long as its placeholder. After a
shorter address text between is lost, after a longer one a part of the next local part
stays, and nothing that comes later makes up for it.
-/
namespace Memcore

open Texts ByteTexts

/-- The longest beginning of a text with at most so many bytes. -/
def keep (count : ℕ) (text : List Char) : List Char :=
  (popTo count text.reverse).reverse

theorem popTo_suffix (count : ℕ) (text : List Char) : popTo count text <:+ text := by
  induction text with
  | nil => exact List.suffix_rfl
  | cons character rest inductionHypothesis =>
    rw [popTo]
    split
    · exact inductionHypothesis.trans (List.suffix_cons _ _)
    · exact List.suffix_rfl

theorem byteLength_popTo (count : ℕ) (text : List Char) : byteLength (popTo count text) ≤ count := by
  induction text with
  | nil => exact Nat.zero_le _
  | cons character rest inductionHypothesis =>
    rw [popTo]
    split
    · exact inductionHypothesis
    · next fits => exact Nat.le_of_not_lt fits

theorem suffix_popTo {count : ℕ} {text ending : List Char} (suffix : ending <:+ text)
    (short : byteLength ending ≤ count) : ending <:+ popTo count text := by
  induction text with
  | nil => exact suffix
  | cons character rest inductionHypothesis =>
    rw [popTo]
    split
    · next long =>
      obtain rfl | within := List.suffix_cons_iff.mp suffix
      · exact absurd short (Nat.not_le_of_lt long)
      · exact inductionHypothesis within
    · exact suffix

theorem keep_prefix (count : ℕ) (text : List Char) : keep count text <+: text := by
  have suffix := popTo_suffix count text.reverse
  rwa [← List.reverse_reverse (popTo count text.reverse), List.reverse_suffix] at suffix

theorem byteLength_keep (count : ℕ) (text : List Char) : byteLength (keep count text) ≤ count := by
  rw [keep, byteLength_reverse]
  exact byteLength_popTo count text.reverse

theorem prefix_keep {count : ℕ} {text front : List Char} (begun : front <+: text)
    (short : byteLength front ≤ count) : front <+: keep count text := by
  rw [← List.reverse_suffix, keep, List.reverse_reverse]
  apply suffix_popTo (List.reverse_suffix.mpr begun)
  rwa [byteLength_reverse]

theorem byteLength_le_of_prefix {front text : List Char} (begun : front <+: text) :
    byteLength front ≤ byteLength text := by
  obtain ⟨rest, rfl⟩ := begun
  rw [byteLength_append]
  exact Nat.le_add_right _ _

/-- A beginning of just so many bytes is what is kept. -/
theorem keep_append {front : List Char} {count : ℕ} (size : byteLength front = count)
    (rest : List Char) : keep count (front ++ rest) = front := by
  obtain ⟨more, kept⟩ := prefix_keep (List.prefix_append front rest) (Nat.le_of_eq size)
  have short := byteLength_keep count (front ++ rest)
  have long := length_le_byteLength more
  rw [← kept, byteLength_append] at short
  have empty : more = [] := List.length_eq_zero_iff.mp (by omega)
  rw [← kept, empty, List.append_nil]

/-- What the scanner writes, address by address. The first argument is the offset at which the
last address ended, the second what was written then. -/
def rewound : ℕ → List Char → List Address → List Char → List Char
  | _, out, [], last => out ++ last
  | done, out, address :: more, last =>
      rewound (done + byteLength address.between + 1 + address.domain.length)
        (keep (done + byteLength address.between - address.localPart.length)
          (out ++ address.between) ++ redactedPlaceholder) more last

/-- The scanner writes that. -/
theorem redactEmailsFrom_rewinds (count : ℕ) (before between out rest : List Char) (done : ℕ)
    (long : rest.length ≤ count) (offset : byteLength before = done + byteLength between) :
    redactEmailsFrom 0 before (between ++ out) rest =
      rewound done out.reverse (readAddresses 0 before between rest).1
        (readAddresses 0 before between rest).2 := by
  induction count generalizing before between out rest done with
  | zero =>
    obtain rfl := List.length_eq_zero_iff.mp (Nat.le_zero.mp long)
    simp [readAddresses, redactEmailsFrom, rewound]
  | succ count inductionHypothesis =>
    cases rest with
    | nil => simp [readAddresses, redactEmailsFrom, rewound]
    | cons character rest =>
      rw [List.length_cons] at long
      obtain ⟨localPart, domain, left, rfl, rfl, rfl, inDomain, _, nonempty, dotted, read, writes⟩ |
        ⟨read, writes⟩ := readAddresses_cases before between rest character
      · rw [List.length_append] at long
        have single := byteLength_of_single fun other member =>
          ByteOffsets.narrow_of_ascii ByteOffsets.isDomainChar_ascii (inDomain other member)
        have goesOn := inductionHypothesis (domain.reverse ++ '@' :: before) []
          (redactedPlaceholder.reverse ++ popTo (byteLength before -
            (before.takeWhile isLocalChar).length) (between ++ out)) left
          (done + byteLength between + 1 + domain.length) (by omega) (by
            have narrow : '@'.utf8Size = 1 := by decide
            rw [byteLength_append, byteLength_reverse, single, byteLength_cons, narrow, offset,
              byteLength_nil]
            omega)
        rw [read, writes, rewound]
        rw [List.nil_append] at goesOn
        rw [goesOn, keep]
        simp [offset]
      · rw [read, writes]
        have goesOn := inductionHypothesis (character :: before) (character :: between) out rest done
          (by omega) (by rw [byteLength_cons, byteLength_cons, offset]; omega)
        exact goesOn

theorem redactEmails_rewinds (message : List Char) :
    redactEmails message = rewound 0 [] (addresses message) (lastText message) :=
  redactEmailsFrom_rewinds message.length [] [] [] message 0 (Nat.le_refl _) rfl

theorem byteLength_localPart {address : Address} (formed : address.WellFormed) :
    byteLength address.localPart = address.localPart.length :=
  byteLength_of_single fun character member =>
    ByteOffsets.narrow_of_ascii ByteOffsets.isLocalChar_ascii (formed.localChars character member)

/-- One address, when its local part is the end of the text before it. -/
theorem rewound_cons {address : Address} {text : List Char} (formed : address.WellFormed)
    (shape : address.between = text ++ address.localPart) (done : ℕ) (out : List Char)
    (more : List Address) (last : List Char) :
    rewound done out (address :: more) last =
      rewound (done + byteLength text + address.size)
        (keep (done + byteLength text) (out ++ text ++ address.localPart) ++ redactedPlaceholder)
        more last := by
  have size := byteLength_localPart formed
  have target : done + byteLength address.between - address.localPart.length =
      done + byteLength text := by
    rw [shape, byteLength_append]
    omega
  have ended : done + byteLength address.between + 1 + address.domain.length =
      done + byteLength text + address.size := by
    rw [shape, byteLength_append, Address.size]
    omega
  rw [rewound, target, ended, shape, List.append_assoc]

theorem replaced_cons {address : Address} {text : List Char}
    (shape : address.between = text ++ address.localPart) (more : List Address) (last : List Char) :
    replaced (address :: more) last = text ++ redactedPlaceholder ++ replaced more last := by
  rw [replaced, shape, List.length_append, Nat.add_sub_cancel, List.take_left]

/-- The addresses that may follow an address. -/
def Follow (addresses : List Address) : Prop :=
  ∀ address ∈ addresses, address.WellFormed ∧ address.Separated

theorem Follow.tail {address : Address} {more : List Address} (follow : Follow (address :: more)) :
    Follow more :=
  fun other member => follow other (List.mem_cons_of_mem _ member)

/-- What an address is separated with takes a byte at least. -/
theorem Address.Separated.split {address : Address} (separated : address.Separated) :
    ∃ text, address.between = text ++ address.localPart ∧ 1 ≤ byteLength text ∧
      ∃ gap symbol, text = gap ++ [symbol] ∧ isLocalChar symbol = false := by
  obtain ⟨gap, symbol, shape, outside⟩ := separated
  refine ⟨gap ++ [symbol], by rw [shape]; simp, ?_, gap, symbol, rfl, outside⟩
  have positive := symbol.utf8Size_pos
  rw [byteLength_append, byteLength_cons]
  omega

/-- What has been written up to the end of the last address, and a byte more, stays. -/
theorem rewound_prefix {front out : List Char} {done : ℕ} {addresses : List Address}
    (follow : Follow addresses) (begun : front <+: out) (short : byteLength front ≤ done + 1)
    (last : List Char) : front <+: rewound done out addresses last := by
  induction addresses generalizing done out with
  | nil => exact begun.trans (List.prefix_append out last)
  | cons address more inductionHypothesis =>
    obtain ⟨formed, separated⟩ := follow address List.mem_cons_self
    obtain ⟨text, shape, positive, _⟩ := separated.split
    rw [rewound_cons formed shape]
    apply inductionHypothesis follow.tail
    · have stays : front <+: keep (done + byteLength text)
          (out ++ text ++ address.localPart) := by
        apply prefix_keep
        · rw [List.append_assoc]
          exact begun.trans (List.prefix_append _ _)
        · omega
      exact stays.trans (List.prefix_append _ _)
    · omega

/-- How a placeholder can go on when something has been taken back after it. -/
def placeholderStarts : List (List Char) :=
  redactedPlaceholder :: (List.range 6).map fun more =>
    redactedPlaceholder.take (more + 4) ++ redactedPlaceholder.take 4

theorem byteLength_placeholder (count : ℕ) (within : count ≤ 10) :
    byteLength (redactedPlaceholder.take count) = count := by
  have all : ∀ count ≤ 10, byteLength (redactedPlaceholder.take count) = count := by decide
  exact all count within

/-- Behind what stays there is a placeholder, or a part of one and the next one. -/
theorem rewound_starts {kept : List Char} {done : ℕ} {addresses : List Address}
    (follow : Follow addresses) (short : byteLength kept + 3 ≤ done) (last : List Char) :
    ∃ start ∈ placeholderStarts,
      kept ++ start <+: rewound done (kept ++ redactedPlaceholder) addresses last := by
  have whole : byteLength redactedPlaceholder = 10 := byteLength_placeholder 10 (Nat.le_refl _)
  cases addresses with
  | nil => exact ⟨redactedPlaceholder, List.mem_cons_self, List.prefix_append _ last⟩
  | cons address more =>
    obtain ⟨formed, separated⟩ := follow address List.mem_cons_self
    obtain ⟨text, shape, positive, _⟩ := separated.split
    have size := formed.size_le
    rw [rewound_cons formed shape]
    by_cases far : byteLength kept + 10 ≤ done + byteLength text
    · refine ⟨redactedPlaceholder, List.mem_cons_self, rewound_prefix follow.tail ?_ ?_ last⟩
      · have stays : kept ++ redactedPlaceholder <+: keep (done + byteLength text)
            (kept ++ redactedPlaceholder ++ text ++ address.localPart) := by
          apply prefix_keep
          · rw [List.append_assoc (kept ++ _)]
            exact List.prefix_append _ _
          · rw [byteLength_append]
            omega
        exact stays.trans (List.prefix_append _ _)
      · rw [byteLength_append]
        omega
    · obtain ⟨taken, target⟩ := Nat.exists_eq_add_of_le
        (show byteLength kept + 4 ≤ done + byteLength text by omega)
      have within : taken < 6 := by omega
      have four := byteLength_placeholder 4 (by omega)
      have part := byteLength_placeholder (taken + 4) (by omega)
      have parts : kept ++ redactedPlaceholder.take (taken + 4) ++
          (redactedPlaceholder.drop (taken + 4) ++ (text ++ address.localPart)) =
          kept ++ redactedPlaceholder ++ text ++ address.localPart := by
        rw [List.append_assoc kept (List.take _ _), ← List.append_assoc (List.take _ _) (List.drop _ _),
          List.take_append_drop]
        simp
      have cut : keep (done + byteLength text)
          (kept ++ redactedPlaceholder ++ text ++ address.localPart) =
          kept ++ redactedPlaceholder.take (taken + 4) := by
        rw [← parts]
        exact keep_append (by rw [byteLength_append]; omega) _
      refine ⟨redactedPlaceholder.take (taken + 4) ++ redactedPlaceholder.take 4, ?_, ?_⟩
      · exact List.mem_cons_of_mem _ (List.mem_map.mpr ⟨taken, List.mem_range.mpr within, rfl⟩)
      · rw [cut, ← List.append_assoc]
        apply rewound_prefix follow.tail
        · exact (List.prefix_append_right_inj _).mpr (List.take_prefix _ _)
        · rw [byteLength_append, byteLength_append]
          omega

theorem append_regroup (first second third fourth fifth : List Char) :
    first ++ second ++ (third ++ fourth ++ fifth) = first ++ second ++ third ++ (fourth ++ fifth) := by
  simp

/-- In each of these a character of no local part is followed by a letter. -/
theorem placeholderStarts_letters : ∀ start ∈ placeholderStarts, start.head? = some '[' ∧
    ∀ index < 7, ∀ symbol, start[index]? = some symbol → isLocalChar symbol = false →
      start[index + 1]? = some 'R' := by
  have all : ∀ start ∈ placeholderStarts, start.head? = some '[' ∧
      ∀ index < 7, (start[index]?.all isLocalChar || start[index + 1]? == some 'R') = true := by
    decide
  intro start member
  refine ⟨(all start member).1, fun index within symbol found outside => ?_⟩
  have letter := (all start member).2 index within
  rw [found, Option.all_some, outside, Bool.false_or, beq_iff_eq] at letter
  exact letter

theorem placeholderStarts_length : ∀ start ∈ placeholderStarts, 8 ≤ start.length := by
  decide

/-- After a shorter address something of the text between is missing for good. -/
theorem rewound_short {out : List Char} {done size : ℕ} {address : Address} {more : List Address}
    (aligned : byteLength out = done) (least : 3 ≤ size) (short : size < 10)
    (follow : Follow (address :: more)) (last : List Char) :
    rewound (done + size) (out ++ redactedPlaceholder) (address :: more) last ≠
      out ++ redactedPlaceholder ++ replaced (address :: more) last := by
  intro same
  obtain ⟨formed, separated⟩ := follow address List.mem_cons_self
  obtain ⟨text, shape, positive, gap, symbol, textIs, outside⟩ := separated.split
  have whole : byteLength redactedPlaceholder = 10 := byteLength_placeholder 10 (Nat.le_refl _)
  have sized := formed.size_le
  rw [rewound_cons formed shape, replaced_cons shape] at same
  generalize keptIs : keep (done + size + byteLength text)
    (out ++ redactedPlaceholder ++ text ++ address.localPart) = kept at same
  have keptShort : byteLength kept ≤ done + size + byteLength text :=
    keptIs ▸ byteLength_keep _ _
  have offset : byteLength kept + 3 ≤ done + size + byteLength text + address.size := by omega
  obtain ⟨start, listed, begun⟩ := rewound_starts follow.tail offset last
  rw [same] at begun
  have within : kept <+: out ++ redactedPlaceholder ++ text := by
    have both : kept <+: out ++ redactedPlaceholder ++ text ++ address.localPart :=
      keptIs ▸ keep_prefix _ _
    obtain less | more := List.prefix_or_prefix_of_prefix both (List.prefix_append _ _)
    · exact less
    · have long := byteLength_le_of_prefix more
      rw [byteLength_append, byteLength_append] at long
      omega
  obtain ⟨lost, split⟩ := within
  rw [append_regroup, ← split, List.append_assoc kept, List.prefix_append_right_inj] at begun
  have total := congrArg byteLength split
  simp only [byteLength_append, whole, aligned] at total
  cases lost with
  | nil =>
    rw [byteLength_nil] at total
    omega
  | cons first others =>
    obtain rfl : first = '[' := by
      have head := (placeholderStarts_letters start listed).1
      rw [List.cons_append] at begun
      cases start with
      | nil => nomatch head
      | cons letter rest =>
        rw [List.head?_cons, Option.some.injEq] at head
        rw [← head]
        exact (List.cons_prefix_cons.mp begun).1.symm
    -- What is kept is as long as it may be, so little is lost.
    have full : done + size + byteLength text ≤ byteLength kept := by
      by_contra room
      have stays : kept ++ ['['] <+: kept := by
        rw [← keptIs]
        apply prefix_keep
        · rw [keptIs, ← split]
          exact ⟨others ++ address.localPart, by simp⟩
        · have narrow : '['.utf8Size = 1 := by decide
          rw [keptIs, byteLength_append, byteLength_cons, narrow, byteLength_nil]
          omega
      have long := stays.length_le
      rw [List.length_append, List.length_singleton] at long
      omega
    -- It ends with the separating character, and the next placeholder follows.
    have lastSymbol : [symbol] <:+ kept ++ '[' :: others := by
      rw [split, textIs]
      exact ⟨out ++ redactedPlaceholder ++ gap, by simp⟩
    obtain ⟨front, endsWith⟩ : [symbol] <:+ '[' :: others :=
      List.suffix_of_suffix_length_le lastSymbol (List.suffix_append kept _) (by simp)
    rw [← endsWith] at begun total
    have few := length_le_byteLength (front ++ [symbol])
    rw [List.length_append, List.length_singleton] at few
    have long := placeholderStarts_length start listed
    obtain ⟨rest, shows⟩ := begun
    have read (index : ℕ) (within : index < 8) : start[index]? =
        (front ++ [symbol] ++ (redactedPlaceholder ++ replaced more last))[index]? := by
      rw [← shows, List.getElem?_append_left (by omega)]
    have letter := (placeholderStarts_letters start listed).2 front.length (by omega) symbol
      (by rw [read _ (by omega)]; simp) outside
    have opens : redactedPlaceholder = '[' :: redactedPlaceholder.tail := by decide
    have next : (front ++ [symbol] ++ (redactedPlaceholder ++ replaced more last))[front.length + 1]? =
        some '[' := by
      rw [List.getElem?_append_right (by simp), List.length_append, List.length_singleton,
        Nat.sub_self, opens, List.cons_append, List.getElem?_cons_zero]
    rw [read _ (by omega), next] at letter
    nomatch letter

/-- After a longer address something of the next local part stays for good. -/
theorem rewound_long {out : List Char} {done size : ℕ} {address : Address} {more : List Address}
    (aligned : byteLength out = done) (long : 10 < size) (follow : Follow (address :: more))
    (last : List Char) :
    rewound (done + size) (out ++ redactedPlaceholder) (address :: more) last ≠
      out ++ redactedPlaceholder ++ replaced (address :: more) last := by
  intro same
  obtain ⟨formed, separated⟩ := follow address List.mem_cons_self
  obtain ⟨text, shape, _, _⟩ := separated.split
  have whole : byteLength redactedPlaceholder = 10 := byteLength_placeholder 10 (Nat.le_refl _)
  rw [rewound_cons formed shape, replaced_cons shape] at same
  cases localPart : address.localPart with
  | nil => exact formed.localSome localPart
  | cons letter others =>
    have isLocal := formed.localChars letter (localPart ▸ List.mem_cons_self)
    have narrow := ByteOffsets.narrow_of_ascii ByteOffsets.isLocalChar_ascii isLocal
    have stays : out ++ redactedPlaceholder ++ text ++ [letter] <+:
        keep (done + size + byteLength text)
          (out ++ redactedPlaceholder ++ text ++ address.localPart) := by
      apply prefix_keep
      · rw [localPart]
        exact (List.prefix_append_right_inj _).mpr ⟨others, rfl⟩
      · simp only [byteLength_append, byteLength_cons, byteLength_nil, narrow, aligned, whole] at *
        omega
    have fits : byteLength (out ++ redactedPlaceholder ++ text ++ [letter]) ≤
        done + size + byteLength text + address.size + 1 := by
      simp only [byteLength_append, byteLength_cons, byteLength_nil, narrow, aligned, whole]
      omega
    have begun := rewound_prefix follow.tail
      (stays.trans (List.prefix_append _ redactedPlaceholder)) fits last
    rw [same, append_regroup, List.prefix_append_right_inj] at begun
    obtain rfl : letter = '[' := (List.cons_prefix_cons.mp begun).1
    nomatch isLocal

/-- As long as what was written is as long as what was read, the placeholders stand for the
addresses exactly when each address but the last is as long as a placeholder. -/
theorem rewound_eq_iff {out : List Char} {done : ℕ} {address : Address} {more : List Address}
    (aligned : byteLength out = done) (formed : address.WellFormed)
    (ends : ∃ text, address.between = text ++ address.localPart) (follow : Follow more)
    (last : List Char) :
    rewound done out (address :: more) last = out ++ replaced (address :: more) last ↔
      ∀ other ∈ (address :: more).dropLast, other.size = redactedPlaceholder.length := by
  induction more generalizing out done address with
  | nil =>
    obtain ⟨text, shape⟩ := ends
    have kept : keep (done + byteLength text) (out ++ text ++ address.localPart) = out ++ text :=
      keep_append (by rw [byteLength_append, aligned]) _
    rw [rewound_cons formed shape, replaced_cons shape, kept]
    simp [rewound, replaced]
  | cons next more inductionHypothesis =>
    obtain ⟨text, shape⟩ := ends
    obtain ⟨nextFormed, nextSeparated⟩ := follow next List.mem_cons_self
    obtain ⟨nextText, nextShape, _⟩ := nextSeparated.split
    have kept : keep (done + byteLength text) (out ++ text ++ address.localPart) = out ++ text :=
      keep_append (by rw [byteLength_append, aligned]) _
    have place : byteLength (out ++ text) = done + byteLength text := by
      rw [byteLength_append, aligned]
    have whole : byteLength redactedPlaceholder = 10 := byteLength_placeholder 10 (Nat.le_refl _)
    have long : redactedPlaceholder.length = 10 := by decide
    rw [rewound_cons formed shape, replaced_cons shape, kept, ← List.append_assoc,
      ← List.append_assoc, List.dropLast_cons_cons, List.forall_mem_cons, long]
    obtain short | fits | past := Nat.lt_trichotomy address.size 10
    · have differs := rewound_short place formed.size_le short follow last
      exact ⟨fun same => absurd same differs, fun all => by omega⟩
    · have goesOn := @inductionHypothesis (out ++ text ++ redactedPlaceholder)
        (done + byteLength text + address.size) next (by rw [byteLength_append, place, whole, fits])
        nextFormed ⟨nextText, nextShape⟩ follow.tail
      rw [goesOn, long]
      exact ⟨fun all => ⟨fits, all⟩, fun all => all.2⟩
    · have differs := rewound_long place past follow last
      exact ⟨fun same => absurd same differs, fun all => by omega⟩

/-- Where no address goes back into the one before it, the e-mail scanner writes the message
with a placeholder for each address exactly when each address but the last is as long as its
placeholder. -/
theorem emails_replaced_iff (message : List Char) (apart : AddressesApart message) :
    ByteOffsets.redactEmails message = .ok (replaced (addresses message) (lastText message)) ↔
      ∀ address ∈ (addresses message).dropLast, address.size = redactedPlaceholder.length := by
  have formed := readAddresses_wellFormed message.length [] [] message (Nat.le_refl _)
  obtain ⟨ends, separated, _⟩ :=
    readAddresses_shape message.length [] [] [] message (Nat.le_refl _) rfl apart
  rw [ByteOffsets.redactEmails_follows, Except.ok.injEq, redactEmails_rewinds]
  rw [← addresses] at formed ends separated
  cases shape : addresses message with
  | nil => simp [rewound, replaced]
  | cons address more =>
    rw [shape] at formed ends separated
    have follow : Follow more := fun other member =>
      ⟨formed other (List.mem_cons_of_mem _ member), separated other member⟩
    exact @rewound_eq_iff [] 0 address more rfl (formed address List.mem_cons_self)
      (ends address List.mem_cons_self) follow (lastText message)

theorem emails_replaced_sample :
    AddressesApart "from jo@host.io or a.b@c.com, é".toList ∧
      (ByteOffsets.redactEmails "from jo@host.io or a.b@c.com, é".toList =
        .ok (replaced (addresses "from jo@host.io or a.b@c.com, é".toList)
          (lastText "from jo@host.io or a.b@c.com, é".toList)) ↔
        ∀ address ∈ (addresses "from jo@host.io or a.b@c.com, é".toList).dropLast,
          address.size = redactedPlaceholder.length) := by
  have apart : AddressesApart "from jo@host.io or a.b@c.com, é".toList := by decide +kernel
  exact ⟨apart, emails_replaced_iff _ apart⟩

/-- Behind an address of eight characters two characters of the text between are lost. -/
theorem emails_not_replaced :
    ¬ ∀ message, AddressesApart message →
      ByteOffsets.redactEmails message = .ok (replaced (addresses message) (lastText message)) := by
  intro claimed
  have apart : AddressesApart "a.b@c.de and x@y.zz".toList := by decide +kernel
  have differs : ByteOffsets.redactEmails "a.b@c.de and x@y.zz".toList ≠
      .ok (replaced (addresses "a.b@c.de and x@y.zz".toList)
        (lastText "a.b@c.de and x@y.zz".toList)) := by decide +kernel
  exact differs (claimed _ apart)

end Memcore
