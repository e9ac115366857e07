import FusionMultiNodes.Lib.Dict
import FusionMultiNodes.Lib.Machine
import FusionMultiNodes.Lib.Window
import Mathlib.Algebra.Order.Group.Int
import Mathlib.Algebra.Order.Ring.Rat

/-! The in-memory rate limiter of the HTTP servers. -/
namespace FusionMultiNodes

structure InMemoryRateLimiter where
  max : ℤ
  window : ℚ
  counts : Dict String (List ℚ)
  callCount : ℕ
  lastTimeCleanup : ℚ

namespace InMemoryRateLimiter

def maxIpEntries : ℕ := 10000

def cleanupInterval : ℕ := 100

def timeCleanupInterval : ℚ := 60

def new (max : ℤ) (window now : ℚ) : InMemoryRateLimiter := ⟨max,window,∅,0,now⟩

/-- `v[-1] < cutoff`, or no timestamp at all. -/
def isStale (cutoff : ℚ) (v : List ℚ) : Bool := v.getLast?.all fun t => decide (t < cutoff)

/-- `counts[k][-1] if counts[k] else 0`. -/
def lastOf (counts : Dict String (List ℚ)) (k : String) : ℚ :=
  ((counts.get? k).bind List.getLast?).getD 0

/-- The keys beyond the bound of the table, those used longest ago first. -/
def excessKeys (counts : Dict String (List ℚ)) : List String :=
  (counts.keys.mergeSort fun a b => decide (lastOf counts a ≤ lastOf counts b)).take
    (counts.entries.length - maxIpEntries)

variable (l : InMemoryRateLimiter)

/-- The timestamps of a key; `defaultdict(list)`. -/
def timestamps (key : String) : List ℚ := (l.counts.get? key).getD []

def cleanupStale (now : ℚ) : InMemoryRateLimiter :=
  let cutoff := now - l.window
  let staleKeys := (l.counts.entries.filter fun p => isStale cutoff p.2).map Prod.fst
  let counts := staleKeys.foldl Dict.erase l.counts
  if maxIpEntries < counts.entries.length then
    { l with counts := (excessKeys counts).foldl Dict.erase counts }
  else { l with counts := counts }

def isAllowed (key : String) (now : ℚ) : Bool × InMemoryRateLimiter :=
  let kept := (l.timestamps key).filter fun t => decide (now - l.window < t)
  let l := { l with counts := l.counts.set key kept }
  if l.max ≤ (kept.length : ℤ) then (false,l)
  else
    let l := { l with counts := l.counts.set key (kept ++ [now]), callCount := l.callCount + 1 }
    let l := if l.callCount % cleanupInterval = 0 then l.cleanupStale now else l
    let l := if timeCleanupInterval ≤ now - l.lastTimeCleanup then
      { l.cleanupStale now with lastTimeCleanup := now } else l
    (true,l)

def cleanupDue (now : ℚ) : Prop :=
  (l.callCount + 1) % cleanupInterval = 0 ∨ timeCleanupInterval ≤ now - l.lastTimeCleanup

/-- The other keys with a timestamp in the window that ends now. -/
def othersInWindow (key : String) (now : ℚ) : List String :=
  l.counts.keys.filter fun k => decide (k ≠ key ∧ recent l.window now (l.timestamps k) ≠ [])

/-- The call is granted and cleans up while more keys have a request in their window than the
table holds. -/
def Overflows (key : String) (now : ℚ) : Prop :=
  ((recent l.window now (l.timestamps key)).length : ℤ) < l.max ∧ l.cleanupDue now ∧
    maxIpEntries < (l.othersInWindow key now).length + 1

end InMemoryRateLimiter

structure LimiterWorld where
  limiter : InMemoryRateLimiter
  clock : ℚ
  granted : List (String × ℚ)

namespace LimiterWorld

def new (max : ℤ) (window now : ℚ) : LimiterWorld :=
  ⟨InMemoryRateLimiter.new max window now,now,[]⟩

def request (w : LimiterWorld) (r : String × ℚ) : Option LimiterWorld :=
  if w.clock ≤ r.2 then
    let (allowed,limiter) := w.limiter.isAllowed r.1 r.2
    some ⟨limiter,r.2,if allowed then w.granted ++ [r] else w.granted⟩
  else none

def machine : Machine LimiterWorld (String × ℚ) := ⟨request⟩

def grantsOf (w : LimiterWorld) (key : String) : List ℚ :=
  (w.granted.filter fun r => decide (r.1 = key)).map Prod.snd

/-- Each key gets at most the configured number of requests in each window. -/
def Limited (w : LimiterWorld) : Prop :=
  ∀ key, Sparse w.limiter.window w.limiter.max.toNat (w.grantsOf key)

end LimiterWorld
end FusionMultiNodes
