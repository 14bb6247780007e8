import Memcore.Foundations.KeyedTables
import Mathlib.Data.Nat.Notation

/-!
# The rate limiter

Every organization has a window of one minute in which its requests are counted. The windows of
all organizations are kept in one map. When the map has grown, a check drops the windows that are
two minutes old. The clock counts nanoseconds and never goes back.
-/
namespace Memcore

open KeyedTables

/-- Nanoseconds on the monotonic clock. -/
abbrev Tick := ℕ

def nanosPerSecond : ℕ := 1000000000

/-- The length of a window. -/
def rateWindow : ℕ := 60 * nanosPerSecond

/-- The number of windows up to which none is dropped. -/
def maxWindows : ℕ := 1024

inductive RateLimitDecision where
  | allowed
  | limited (retryAfterSecs : ℕ)
  deriving DecidableEq

structure RateLimitWindow where
  windowStart : Tick
  count : ℕ
  deriving DecidableEq

structure RateLimiter where
  enabled : Bool
  requestsPerMinute : ℕ
  windows : Table String (String × RateLimitWindow) Prod.fst

/-- Time passed since an earlier instant, and none since a later one. -/
def durationSince (now earlier : Tick) : ℕ := now - earlier

namespace RateLimiter

def new (enabled : Bool) (requestsPerMinute : ℕ) : RateLimiter :=
  ⟨enabled, requestsPerMinute, .empty⟩

/-- Drop old windows if there are many. -/
def purge (windows : Table String (String × RateLimitWindow) Prod.fst) (now : Tick) :
    Table String (String × RateLimitWindow) Prod.fst :=
  if windows.rows.length > maxWindows then
    windows.retain fun row => decide (durationSince now row.2.windowStart < rateWindow * 2)
  else windows

/-- Count a request in a window, which starts anew when its minute is over. -/
def enter (requestsPerMinute : ℕ) (now : Tick) (entry : RateLimitWindow) :
    RateLimitDecision × RateLimitWindow :=
  let entry := if rateWindow ≤ durationSince now entry.windowStart then ⟨now, 0⟩ else entry
  if requestsPerMinute ≤ entry.count then
    let elapsed := durationSince now entry.windowStart
    (.limited (max ((rateWindow - elapsed) / nanosPerSecond) 1), entry)
  else (.allowed, { entry with count := entry.count + 1 })

/-- Decide about one request of an organization. -/
def check (limiter : RateLimiter) (now : Tick) (orgId : String) :
    RateLimitDecision × RateLimiter :=
  if !limiter.enabled then (.allowed, limiter)
  else
    let windows := purge limiter.windows now
    let entry := ((windows.find? orgId).map Prod.snd).getD ⟨now, 0⟩
    let entered := enter limiter.requestsPerMinute now entry
    (entered.1, { limiter with windows := windows.put (orgId, entered.2) })

/-- The window of an organization. -/
def windowOf (limiter : RateLimiter) (orgId : String) : Option RateLimitWindow :=
  (limiter.windows.find? orgId).map Prod.snd

end RateLimiter

end Memcore
