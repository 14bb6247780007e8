import Mathlib.Algebra.GroupWithZero.Nat
import Mathlib.Data.Int.Notation
import Mathlib.Data.Nat.Notation
import Mathlib.Logic.Function.Basic
import Mathlib.Data.List.Basic

/-!
# Keys that expire

A store of keys that hold a text or a set, each with a time to live or without one. A key
whose time has passed is as good as absent, although nothing is done when it passes. The
clock counts milliseconds and times to live are given in seconds.

What a key holds is asked for any time, so that a claim about the future of a key can be
made before the time has come.
-/
namespace ExpiringKeys

variable {κ ν : Type}

inductive Held (κ ν : Type) where
  | text (payload : ν)
  | members (keys : List κ)

structure Expiring (κ ν : Type) where
  held : Held κ ν
  expiresAt : Option ℕ

structure Store (κ ν : Type) where
  clock : ℕ
  entries : κ → Option (Expiring κ ν)

namespace Store

/-- What a key holds at a time, if nothing is done before. -/
def live (store : Store κ ν) (key : κ) (time : ℕ) : Option (Held κ ν) :=
  match store.entries key with
  | none => none
  | some entry => if entry.expiresAt.all (fun last => decide (time ≤ last)) then some entry.held
      else none

def advance (store : Store κ ν) (elapsed : ℕ) : Store κ ν :=
  { store with clock := store.clock + elapsed }

/-- The latest time that a clock of the store can show. -/
def maxTime : ℕ := 2 ^ 63 - 1

/-- The time to live can be added to the clock. -/
def Expires (store : Store κ ν) (ttl : ℤ) : Prop :=
  0 < ttl ∧ (store.clock : ℤ) + ttl * 1000 ≤ maxTime

instance (store : Store κ ν) (ttl : ℤ) : Decidable (store.Expires ttl) :=
  inferInstanceAs (Decidable (_ ∧ _))

section Commands

variable [DecidableEq κ] (store : Store κ ν)

def put (key : κ) (entry : Option (Expiring κ ν)) : Store κ ν :=
  { store with entries := Function.update store.entries key entry }

/-- SETEX: the key holds a text for a time, whatever it held before. -/
def setEx (key : κ) (payload : ν) (ttl : ℕ) : Except String Unit × Store κ ν :=
  if store.Expires ttl then
    (.ok (), store.put key (some ⟨.text payload, some (store.clock + ttl * 1000)⟩))
  else (.error "ERR invalid expire time in 'setex' command", store)

/-- When a key expires that is still live. -/
def expiry (key : κ) : Option ℕ :=
  (store.entries key).bind Expiring.expiresAt

def wrongType : String :=
  "WRONGTYPE Operation against a key holding the wrong kind of value"

/-- SADD: a member of a set, which keeps its time to live. An absent set gets none. -/
def sAdd (key member : κ) : Except String Unit × Store κ ν :=
  match store.live key store.clock with
  | none => (.ok (), store.put key (some ⟨.members [member], none⟩))
  | some (.members keys) =>
      (.ok (), store.put key (some ⟨.members (keys.insert member), store.expiry key⟩))
  | some (.text _) => (.error wrongType, store)

/-- SMEMBERS: the members of a set, none if it is absent. -/
def sMembers (key : κ) : Except String (List κ) :=
  match store.live key store.clock with
  | none => .ok []
  | some (.members keys) => .ok keys
  | some (.text _) => .error wrongType

/-- EXPIRE: another time to live for a key that is there. -/
def expire (key : κ) (ttl : ℤ) : Except String Bool × Store κ ν :=
  match store.live key store.clock with
  | none => (.ok false, store)
  | some held =>
      if ttl ≤ 0 then (.ok true, store.put key none)
      else if store.Expires ttl then
        (.ok true, store.put key (some ⟨held, some (store.clock + ttl.toNat * 1000)⟩))
      else (.error "ERR invalid expire time in 'expire' command", store)

/-- DEL: whether there was anything to delete. -/
def del (key : κ) : Bool × Store κ ν :=
  ((store.live key store.clock).isSome, store.put key none)

/-- GET: the text of a key. -/
def get (key : κ) : Except String (Option ν) :=
  match store.live key store.clock with
  | none => .ok none
  | some (.text payload) => .ok (some payload)
  | some (.members _) => .error wrongType

end Commands

section Lives

variable {store : Store κ ν} {key other : κ} {time later : ℕ}

@[simp] theorem live_advance (elapsed : ℕ) :
    (store.advance elapsed).live key time = store.live key time := rfl

/-- What a key holds at a time, it holds before. -/
theorem live_of_le {held : Held κ ν} (isLive : store.live key later = some held)
    (before : time ≤ later) : store.live key time = some held := by
  unfold live at isLive ⊢
  cases present : store.entries key with
  | none =>
    rw [present] at isLive
    contradiction
  | some entry =>
    rw [present] at isLive
    simp only [Option.ite_none_right_eq_some, Option.some.injEq, Option.all_eq_true,
      decide_eq_true_eq] at isLive ⊢
    exact ⟨fun last expires => Nat.le_trans before (isLive.1 last expires), isLive.2⟩

/-- A key that is live lives until it expires. -/
theorem live_iff_expiry {held : Held κ ν} (isLive : store.live key time = some held) :
    store.live key later = some held ↔
      ∀ last, store.expiry key = some last → later ≤ last := by
  unfold live at isLive ⊢
  unfold expiry
  cases present : store.entries key with
  | none =>
    rw [present] at isLive
    contradiction
  | some entry =>
    rw [present] at isLive
    simp only [Option.ite_none_right_eq_some, Option.some.injEq, Option.all_eq_true,
      decide_eq_true_eq] at isLive
    simp only [Option.ite_none_right_eq_some, Option.some.injEq, Option.all_eq_true,
      decide_eq_true_eq, Option.bind_some]
    exact ⟨fun lives => lives.1, fun lives => ⟨lives, isLive.2⟩⟩

variable [DecidableEq κ]

@[simp] theorem live_put_self (entry : Option (Expiring κ ν)) :
    (store.put key entry).live key time = match entry with
      | none => none
      | some entry =>
          if entry.expiresAt.all (fun last => decide (time ≤ last)) then some entry.held
          else none := by
  simp only [put, live, Function.update_self]

theorem live_put_of_ne (different : other ≠ key) (entry : Option (Expiring κ ν)) :
    (store.put key entry).live other time = store.live other time := by
  simp only [put, live, Function.update_of_ne different]

end Lives

end Store

end ExpiringKeys
