import Mathlib.Data.List.Sort

/-!
# Pages of a descending list

A long list is delivered in pages. A page holds at most a limit of items, and a token
for the position behind its last item as long as items follow. A caller starts without a
token and feeds each token back. Nothing is remembered between two calls: a token names
the key of the last item delivered, and the next page holds the items whose key is lower.

A list that descends strictly in its key is determined by its members, and the items
behind one of its members are those with a lower key. With these two facts, pages cut by
key are pages cut by position, and following them delivers the list.
-/
namespace Pages

/-- A page, and the token for the next one. -/
structure Page (α τ : Type) where
  items : List α
  nextCursor : Option τ

/-- The pages delivered to a caller who feeds each token back, until there is none. -/
inductive Followed {α τ ε : Type} (call : Option τ → Except ε (Page α τ)) :
    Option τ → List (List α) → Prop
  | last {token : Option τ} {items : List α} (served : call token = .ok ⟨items, none⟩) :
      Followed call token [items]
  | more {token : Option τ} {items : List α} {next : τ} {pages : List (List α)}
      (served : call token = .ok ⟨items, some next⟩) (rest : Followed call (some next) pages) :
      Followed call token (items :: pages)

/-- Following the tokens ends, and delivers exactly the wanted items, each once and in
order. -/
def ListsExactly {α τ ε : Type} (call : Option τ → Except ε (Page α τ))
    (before : α → α → Prop) (wanted : α → Prop) : Prop :=
  ∃ pages, Followed call none pages ∧ pages.flatten.Nodup ∧ pages.flatten.Pairwise before ∧
    ∀ item, item ∈ pages.flatten ↔ wanted item

section Following

variable {α τ ε : Type} {call : Option τ → Except ε (Page α τ)}

/-- The pages that a caller sees are determined. -/
theorem Followed.unique {token : Option τ} {pages others : List (List α)}
    (followed : Followed call token pages) (other : Followed call token others) :
    pages = others := by
  induction followed generalizing others with
  | last served =>
    cases other with
    | last otherServed =>
      have same := Except.ok.inj (served.symm.trans otherServed)
      rw [(Page.mk.inj same).1]
    | more otherServed _ =>
      have same := Except.ok.inj (served.symm.trans otherServed)
      nomatch (Page.mk.inj same).2
  | more served _ inductionHypothesis =>
    cases other with
    | last otherServed =>
      have same := Except.ok.inj (served.symm.trans otherServed)
      nomatch (Page.mk.inj same).2
    | more otherServed otherRest =>
      obtain ⟨sameItems, sameNext⟩ := Page.mk.inj (Except.ok.inj (served.symm.trans otherServed))
      obtain rfl := Option.some.inj sameNext
      rw [sameItems, inductionHypothesis otherRest]

/-- Pages cut by position deliver the list: the first items, and a token that stands for
the position behind them if more follow. -/
theorem exists_followed {limit : ℕ} (positive : 0 < limit) (position : Option τ → List α → Prop)
    (serves : ∀ token rest, position token rest →
      rest.length ≤ limit ∧ call token = .ok ⟨rest, none⟩ ∨
      ∃ next, limit < rest.length ∧ call token = .ok ⟨rest.take limit, some next⟩ ∧
        position (some next) (rest.drop limit))
    (token : Option τ) (rest : List α) (starts : position token rest) :
    ∃ pages, Followed call token pages ∧ pages.flatten = rest := by
  induction length : rest.length using Nat.strong_induction_on generalizing token rest with
  | h count inductionHypothesis =>
    rcases serves token rest starts with ⟨_, served⟩ | ⟨next, longer, served, continues⟩
    · exact ⟨[rest], .last served, by simp⟩
    · have shorter : (rest.drop limit).length < count := by
        rw [List.length_drop]
        omega
      obtain ⟨pages, followed, same⟩ := inductionHypothesis _ shorter _ _ continues rfl
      refine ⟨rest.take limit :: pages, .more served followed, ?_⟩
      rw [List.flatten_cons, same, List.take_append_drop]

end Following

/-- The first items of a filtered list are those of the list just when the filter keeps
these. -/
theorem take_filter_eq_take_iff {α : Type} (keeps : α → Bool) (items : List α) (count : ℕ) :
    (items.filter keeps).take count = items.take count ↔
      ∀ item ∈ items.take count, keeps item = true := by
  constructor
  · intro same item member
    rw [← same] at member
    exact (List.mem_filter.mp (List.mem_of_mem_take member)).2
  · intro kept
    have front : (items.take count).filter keeps = items.take count := List.filter_eq_self.mpr kept
    have split : items.filter keeps = items.take count ++ (items.drop count).filter keeps := by
      conv_lhs => rw [← List.take_append_drop count items, List.filter_append, front]
    rw [split, List.take_append, List.take_take, min_self, List.length_take]
    by_cases long : count ≤ items.length
    · rw [min_eq_left long, Nat.sub_self, List.take_zero, List.append_nil]
    · rw [List.drop_eq_nil_of_le (by omega), List.filter_nil, List.take_nil, List.append_nil]

/-! ## Descending lists -/

section Keys

variable {α κ : Type} [LinearOrder κ] (key : α → κ)

/-- The key goes down from each item to the next. -/
def Descending (items : List α) : Prop :=
  items.Pairwise fun earlier later => key later < key earlier

variable {key}

theorem Descending.nodup {items : List α} (descending : Descending key items) : items.Nodup := by
  apply List.Pairwise.imp _ descending
  intro earlier later lower same
  rw [same] at lower
  exact lt_irrefl _ lower

theorem Descending.filter {items : List α} (descending : Descending key items)
    (keeps : α → Bool) : Descending key (items.filter keeps) :=
  List.Pairwise.filter keeps descending

/-- A descending list is determined by its members. -/
theorem Descending.unique {items others : List α} (descending : Descending key items)
    (other : Descending key others) (same : items.Perm others) : items = others := by
  apply List.Perm.eq_of_pairwise _ descending other same
  intro left right _ _ lower higher
  exact absurd lower (lt_asymm higher)

/-- The items behind a member are those with a lower key. -/
theorem Descending.filter_behind {front rest : List α} {item : α}
    (descending : Descending key (front ++ item :: rest)) :
    (front ++ item :: rest).filter (fun other => decide (key other < key item)) = rest := by
  obtain ⟨_, behind, across⟩ := List.pairwise_append.mp descending
  have noneBefore : front.filter (fun other => decide (key other < key item)) = [] := by
    rw [List.filter_eq_nil_iff]
    intro other member
    have higher := across other member item List.mem_cons_self
    simpa using higher.le
  have allBehind : rest.filter (fun other => decide (key other < key item)) = rest := by
    rw [List.filter_eq_self]
    intro other member
    simpa using (List.pairwise_cons.mp behind).1 other member
  rw [List.filter_append, List.filter_cons, noneBefore, allBehind]
  simp

/-- The items behind the first ones are those with a lower key than the last of these. -/
theorem Descending.drop_eq {items : List α} (descending : Descending key items) {limit : ℕ}
    {item : α} (last : (items.take limit).getLast? = some item) :
    items.drop limit = items.filter (fun other => decide (key other < key item)) := by
  obtain ⟨front, cut⟩ := List.getLast?_eq_some_iff.mp last
  have split : items = front ++ item :: items.drop limit := by
    conv_lhs => rw [← List.take_append_drop limit items, cut]
    simp
  rw [split] at descending
  have behind := descending.filter_behind
  rw [← split] at behind
  exact behind.symm

/-- A member is among the first ones when few members have a higher key. -/
theorem Descending.mem_take_iff {items : List α} (descending : Descending key items) {item : α}
    (member : item ∈ items) (count : ℕ) :
    item ∈ items.take count ↔ items.countP (fun other => decide (key item < key other)) < count := by
  obtain ⟨front, rest, rfl⟩ := List.append_of_mem member
  obtain ⟨_, behind, across⟩ := List.pairwise_append.mp descending
  have allBefore : front.countP (fun other => decide (key item < key other)) = front.length := by
    rw [List.countP_eq_length]
    intro other otherMember
    simpa using across other otherMember item List.mem_cons_self
  have noneBehind : rest.countP (fun other => decide (key item < key other)) = 0 := by
    rw [List.countP_eq_zero]
    intro other otherMember
    simpa using ((List.pairwise_cons.mp behind).1 other otherMember).le
  have higher : (front ++ item :: rest).countP (fun other => decide (key item < key other)) =
      front.length := by
    rw [List.countP_append, List.countP_cons, allBefore, noneBehind]
    simp
  have notBefore : item ∉ front := by
    intro earlier
    exact lt_irrefl _ (across item earlier item List.mem_cons_self)
  rw [higher]
  constructor
  · intro taken
    by_contra beyond
    rw [List.take_append_of_le_length (not_lt.mp beyond)] at taken
    exact notBefore (List.mem_of_mem_take taken)
  · intro within
    rw [List.take_append, List.take_cons (by omega)]
    exact List.mem_append_right _ List.mem_cons_self

variable {comesFirst : α → α → Prop} [DecidableRel comesFirst]

/-- Sorting rows whose keys are distinct makes them descend. -/
theorem descending_insertionSort (byKey : ∀ left right, comesFirst left right ↔ key right ≤ key left)
    {rows : List α} (distinct : (rows.map key).Nodup) :
    Descending key (rows.insertionSort comesFirst) := by
  have total : Std.Total comesFirst := ⟨fun left right => by
    rw [byKey, byKey]
    exact le_total _ _⟩
  have transitive : IsTrans α comesFirst := ⟨fun first second third => by
    rw [byKey, byKey, byKey]
    exact fun upper lower => lower.trans upper⟩
  have distinctSorted : ((rows.insertionSort comesFirst).map key).Nodup :=
    ((List.perm_insertionSort comesFirst rows).map key).nodup_iff.mpr distinct
  have ordered := List.pairwise_insertionSort comesFirst rows
  have both := ordered.and (List.pairwise_map.mp distinctSorted)
  apply both.imp
  rintro earlier later ⟨first, different⟩
  exact lt_of_le_of_ne ((byKey _ _).mp first) different.symm

/-- Filtering before sorting is filtering afterwards. -/
theorem insertionSort_filter (byKey : ∀ left right, comesFirst left right ↔ key right ≤ key left)
    {rows : List α} (distinct : (rows.map key).Nodup) (keeps : α → Bool) :
    (rows.filter keeps).insertionSort comesFirst =
      (rows.insertionSort comesFirst).filter keeps := by
  have kept : ((rows.filter keeps).map key).Nodup :=
    distinct.sublist (List.filter_sublist.map key)
  apply (descending_insertionSort byKey kept).unique
  · exact (descending_insertionSort byKey distinct).filter keeps
  · have sorted := (List.perm_insertionSort comesFirst rows).filter keeps
    exact (List.perm_insertionSort comesFirst _).trans sorted.symm

/-- Two first pages of one list, cut from a wider and a narrower selection, are the same just
when every row of the wider selection that the narrower one leaves out is preceded by a whole
page. -/
theorem take_sorted_eq_iff (byKey : ∀ left right, comesFirst left right ↔ key right ≤ key left)
    {rows : List α} (distinct : (rows.map key).Nodup) {wide narrow : α → Bool}
    (narrower : ∀ row ∈ rows, narrow row = true → wide row = true) (limit : ℕ) :
    ((rows.filter wide).insertionSort comesFirst).take limit =
        ((rows.filter narrow).insertionSort comesFirst).take limit ↔
      ∀ row ∈ rows, wide row = true → narrow row = false →
        limit ≤ rows.countP fun other => wide other && decide (key row < key other) := by
  let found := (rows.filter wide).insertionSort comesFirst
  have distinctWide : ((rows.filter wide).map key).Nodup :=
    distinct.sublist (List.filter_sublist.map key)
  have descending : Descending key found := descending_insertionSort byKey distinctWide
  have memberFound (row : α) : row ∈ found ↔ row ∈ rows ∧ wide row = true := by
    simp only [found, List.mem_insertionSort, List.mem_filter]
  have filtered : (rows.filter narrow).insertionSort comesFirst = found.filter narrow := by
    have twice : rows.filter narrow = (rows.filter wide).filter narrow := by
      rw [List.filter_filter]
      apply List.filter_congr
      intro row member
      cases kept : narrow row with
      | false => rfl
      | true => rw [narrower row member kept]; rfl
    rw [twice, insertionSort_filter byKey distinctWide]
  have counted (row : α) : found.countP (fun other => decide (key row < key other)) =
      rows.countP fun other => wide other && decide (key row < key other) := by
    rw [(List.perm_insertionSort _ _).countP_eq, List.countP_filter]
    apply List.countP_congr
    intro other _
    simp only [Bool.and_eq_true, and_comm]
  rw [filtered, eq_comm, take_filter_eq_take_iff]
  constructor
  · intro kept row member isWide notNarrow
    by_contra few
    have inFound := (memberFound row).mpr ⟨member, isWide⟩
    have among := (descending.mem_take_iff inFound limit).mpr
      ((counted row).trans_lt (not_le.mp few))
    rw [kept row among] at notNarrow
    cases notNarrow
  · intro preceded row among
    by_contra notNarrow
    have inFound := List.mem_of_mem_take among
    obtain ⟨member, isWide⟩ := (memberFound row).mp inFound
    have few := (descending.mem_take_iff inFound limit).mp among
    rw [counted] at few
    exact absurd (preceded row member isWide (by simpa using notNarrow)) (not_le.mpr few)

end Keys

end Pages
