import Gally.Indexer.IpAddr
import Gally.Library.Replies
import Gally.Library.Store
import Mathlib.Algebra.Order.Field.Rat

/-!
# The request gate (`api/limit.rs`)

The rate limiter keyed by IP address, and the part of `gate` before the in-flight cap. The mutex
makes a call one step on the table; its clock sample comes with it. Clock samples are seconds, and
the arithmetic is exact.
-/

namespace Gally.Indexer

/-- An entry of the table of buckets. -/
structure Bucket where
  ip : IpAddr
  tokens : ℚ
  last : ℚ
  deriving DecidableEq, Repr

instance : Keyed Bucket IpAddr := ⟨Bucket.ip⟩

/-- The table of buckets. -/
abbrev Buckets := Store Bucket

structure RateLimiter where
  ratePerSec : ℚ
  burst : ℚ
  one_le_burst : 1 ≤ burst
  deriving DecidableEq

namespace RateLimiter

def new (ratePerSec burst : ℚ) : RateLimiter := ⟨ratePerSec, max burst 1, le_max_right _ _⟩

/-- `MAX_TRACKED_IPS` -/
def maxTrackedIps : ℕ := 100000

/-- `now.saturating_duration_since(last).as_secs_f64()` -/
def elapsed (now last : ℚ) : ℚ := max (now - last) 0

/-- Drop the idle buckets of a table with more than `bound` entries. -/
def evict (l : RateLimiter) (bound : ℕ) (buckets : Buckets) (now : ℚ) : Buckets :=
  if bound < buckets.entries.length then
    buckets.filter fun b => b.tokens + elapsed now b.last * l.ratePerSec < l.burst
  else buckets

/-- Bring the bucket up to date and take a token. -/
def spend (l : RateLimiter) (buckets : Buckets) (ip : IpAddr) (now : ℚ) : Buckets × Bool :=
  let b := (buckets.get? ip).getD { ip, tokens := l.burst, last := now }
  let tokens := min (b.tokens + elapsed now b.last * l.ratePerSec) l.burst
  if 1 ≤ tokens then (buckets.put { ip, tokens := tokens - 1, last := now }, true)
  else (buckets.put { ip, tokens, last := now }, false)

/-- `RateLimiter::check`, with the bound of the table; without a bound there is no sweep. -/
def check (l : RateLimiter) (bound : Option ℕ) (buckets : Buckets) (ip : IpAddr) (now : ℚ) :
    Buckets × Bool :=
  if l.ratePerSec ≤ 0 then (buckets, true)
  else l.spend (bound.elim buckets fun n => l.evict n buckets now) ip now

/-- A call and its clock sample. -/
structure Call where
  ip : IpAddr
  now : ℚ
  deriving DecidableEq, Repr

/-- The decisions on calls, in the order in which they take the mutex. -/
def checks (l : RateLimiter) (bound : Option ℕ) : Buckets → List Call → List Bool :=
  Replies.replies fun buckets c => l.check bound buckets c.ip c.now

end RateLimiter

/-! ## The gate -/

/-- What the gate reads of a request: its headers, in the order in which they are found, and the
    TCP peer. -/
structure Request where
  headers : List (String × Bytes)
  connectInfo : Option IpAddr
  deriving DecidableEq, Repr

/-- `HeaderMap::get`: the first value. -/
def Request.header (req : Request) (name : String) : Option Bytes :=
  (req.headers.find? fun h => h.1 = name).map Prod.snd

/-- `HeaderValue::to_str`: tabs and visible ASCII. -/
def toStr (value : Bytes) : Option (List Char) :=
  if value.all fun b => b = 9 ∨ 32 ≤ b ∧ b < 127 then some (value.map fun b => Char.ofNat b.toNat)
  else none

/-- `str::trim` of such a string. -/
def trim (cs : List Char) : List Char :=
  let blank : Char → Bool := fun c => c = ' ' ∨ c = '\t'
  ((cs.dropWhile blank).reverse.dropWhile blank).reverse

/-- The address that `X-Forwarded-For` or `X-Real-IP` gives. -/
def forwardedIp (req : Request) : Option IpAddr :=
  let xff := (req.header "x-forwarded-for").bind toStr
  let realIp := (req.header "x-real-ip").bind toStr
  (xff.bind fun s => IpAddr.parse (trim (s.takeWhile fun c => c ≠ ','))).or
    (realIp.bind fun s => IpAddr.parse (trim s))

def clientIp (req : Request) : IpAddr :=
  ((forwardedIp req).or req.connectInfo).getD IpAddr.unspecified

/-- The part of `Limits` that the gate reads before the in-flight cap. -/
structure Limits where
  rateLimiter : RateLimiter
  trusted : List IpAddr
  deriving DecidableEq

/-- `gate` up to the per-IP limiter: is the request let past it? -/
def gate (limits : Limits) (bound : Option ℕ) (buckets : Buckets) (req : Request) (now : ℚ) :
    Buckets × Bool :=
  let ip := clientIp req
  if ip ∈ limits.trusted then (buckets, true)
  else limits.rateLimiter.check bound buckets ip now

/-- A request and the clock sample of its check. -/
structure Arrival where
  request : Request
  now : ℚ
  deriving DecidableEq, Repr

/-- Which of the requests are let past the limiter, one after another. -/
def gates (limits : Limits) (bound : Option ℕ) : Buckets → List Arrival → List Bool :=
  Replies.replies fun buckets r => gate limits bound buckets r.request r.now

end Gally.Indexer
