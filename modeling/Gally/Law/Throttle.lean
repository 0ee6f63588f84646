import Gally.Indexer.Limit
import Gally.Library.TokenBucket

/-!
# The rate limit per IP

Every entry of the table is a token bucket of its own (`spend_eq`). A sweep only forgets buckets
that are full, so as long as no sweep is ahead of a later call of the IP, it is answered as by a
bucket of its own that is never forgotten (`seen_checks`), and so is the identity that the gate
gives to a request (`seen_gates`).
-/

namespace Gally.Indexer

open Replies TokenBucket

/-! ## One bucket of the table -/

def Bucket.counter (b : Bucket) : TokenBucket ℚ := ⟨b.tokens, b.last⟩

/-- The bucket of an IP. -/
def Buckets.counter (buckets : Buckets) (ip : IpAddr) : Option (TokenBucket ℚ) :=
  (buckets.get? ip).map Bucket.counter

/-- The samples of the calls of an IP. -/
def RateLimiter.Call.sampleOf (ip : IpAddr) (c : RateLimiter.Call) : Option ℚ :=
  if c.ip = ip then some c.now else none

namespace RateLimiter

variable {l : RateLimiter} {bound : Option ℕ} {buckets buckets' : Buckets} {ip ip' : IpAddr}
  {now : ℚ} {calls : List Call} {bucket : Option (TokenBucket ℚ)}

def tokenRate (l : RateLimiter) : TokenRate ℚ := ⟨l.ratePerSec, l.burst⟩

/-- Calls in the order of their samples. -/
def InOrder (calls : List Call) : Prop := calls.Pairwise fun c c' => c.now ≤ c'.now

/-- A call spends from the level that the bucket has at that moment; a bucket that is not there is a
    full one. -/
theorem spend_eq : l.spend buckets ip now =
    (buckets.put ⟨ip, (take l.tokenRate (buckets.counter ip) now).1.tokens, now⟩,
      (take l.tokenRate (buckets.counter ip) now).2) := by
  have htokens : min (((buckets.get? ip).getD ⟨ip, l.burst, now⟩).tokens +
      elapsed now ((buckets.get? ip).getD ⟨ip, l.burst, now⟩).last * l.ratePerSec) l.burst =
      level l.tokenRate (buckets.counter ip) now := by
    -- a new bucket starts at the burst with no time elapsed
    unfold Buckets.counter
    cases buckets.get? ip with
    | none =>
      rw [Option.getD_none, elapsed, sub_self, max_self, zero_mul, add_zero, min_self]
      rfl
    | some b => rfl
  unfold spend take
  dsimp only
  rw [htokens]
  split <;> rfl

/-- A bucket that is put is the counter of its own address. -/
theorem counter_put (b : Bucket) : Buckets.counter (buckets.put b) ip =
    if b.ip = ip then some b.counter else buckets.counter ip := by
  unfold Buckets.counter
  have hget := Store.get?_put buckets b ip
  by_cases h : b.ip = ip
  · rw [hget, if_pos h, if_pos (show Keyed.key b = ip from h), Option.map_some]
  · rw [hget, if_neg h, if_neg (show ¬ Keyed.key b = ip from h)]

/-- A call changes the counter of its own address only. -/
theorem counter_spend : Buckets.counter (l.spend buckets ip now).1 ip' =
    if ip = ip' then some (take l.tokenRate (buckets.counter ip) now).1
    else buckets.counter ip' := by
  have hlast : (take l.tokenRate (buckets.counter ip) now).1.last = now := take_last
  rw [spend_eq, counter_put]
  generalize take l.tokenRate (buckets.counter ip) now = taken at *
  obtain ⟨⟨tokens, last⟩, ok⟩ := taken
  subst hlast
  rfl

/-! ## Sweeps -/

/-- A sweep keeps every bucket or forgets a full one. -/
theorem counter_evict (l : RateLimiter) (buckets : Buckets) (now : ℚ) (ip : IpAddr) (n : ℕ) :
    (l.evict n buckets now).counter ip = buckets.counter ip ∨
    ∃ b, (l.evict n buckets now).counter ip = none ∧ buckets.counter ip = some b ∧
      l.burst ≤ b.refilled l.tokenRate now := by
  unfold evict Buckets.counter
  split
  · rw [Store.get?_filter]
    cases hget : buckets.get? ip with
    | none => exact Or.inl rfl
    | some b =>
      by_cases hidle : b.tokens + elapsed now b.last * l.ratePerSec < l.burst
      · exact Or.inl (by simp [Option.filter, hidle])
      · exact Or.inr ⟨b.counter, by simp [Option.filter, hidle], rfl, not_lt.mp hidle⟩
  · exact Or.inl rfl

/-- The table before a call is spent. -/
def swept (l : RateLimiter) (bound : Option ℕ) (buckets : Buckets) (now : ℚ) : Buckets :=
  bound.elim buckets fun n => l.evict n buckets now

/-- A call sweeps the table when it has outgrown the bound. -/
def sweeps (bound : Option ℕ) (buckets : Buckets) : Bool :=
  bound.any fun n => n < buckets.entries.length

/-- Without a sweep the buckets stay. -/
theorem swept_of_not_sweeps (h : sweeps bound buckets = false) :
    l.swept bound buckets now = buckets := by
  cases bound with
  | none => rfl
  | some n => exact if_neg (of_decide_eq_false h)

/-- With a positive rate a check is a sweep, if one is due, and a spending. -/
theorem check_eq (hrate : 0 < l.ratePerSec) : l.check bound buckets ip now =
    l.spend (l.swept bound buckets now) ip now := if_neg (not_le.mpr hrate)

/-- A sweep leaves the level of every bucket. -/
theorem sameLevel_swept (hrate : 0 < l.ratePerSec) :
    SameLevel l.tokenRate now ((l.swept bound buckets now).counter ip) (buckets.counter ip) := by
  cases bound with
  | none => exact fun _ _ => rfl
  | some n =>
    rcases l.counter_evict buckets now ip n with hsame | ⟨b, hnone, hsome, hfull⟩
    · intro t _
      exact congrArg (level l.tokenRate · t) hsame
    · rw [hsome]
      exact hnone ▸ SameLevel.forget hrate.le hfull

/-! ## Calls -/

/-- A call is a sample of its own address, at its own time. -/
theorem Call.sampleOf_eq_some {c : Call} : c.sampleOf ip = some now ↔ c.ip = ip ∧ c.now = now := by
  unfold sampleOf
  rw [Option.ite_none_right_eq_some, Option.some.injEq]

/-- A call is no sample of another address. -/
theorem Call.sampleOf_eq_none {c : Call} : c.sampleOf ip = none ↔ c.ip ≠ ip := by
  unfold sampleOf
  rw [ite_eq_right_iff]
  exact ⟨fun h heq => Option.some_ne_none _ (h heq), fun h heq => absurd heq h⟩

/-- No call of the IP has a sample older than that of a call before it that swept the table. -/
def SweepsInTime (l : RateLimiter) (bound : Option ℕ) (ip : IpAddr) : Buckets → List Call → Prop
  | _, [] => True
  | buckets, c :: calls =>
    (sweeps bound buckets = true → ∀ c' ∈ calls, c'.ip = ip → c.now ≤ c'.now) ∧
      l.SweepsInTime bound ip (l.check bound buckets c.ip c.now).1 calls

/-- Nor older than that of a call of its own before it. -/
structure InOrderFor (l : RateLimiter) (bound : Option ℕ) (ip : IpAddr) (buckets : Buckets)
    (calls : List Call) : Prop where
  own : (calls.filterMap (Call.sampleOf ip)).Pairwise (· ≤ ·)
  sweeps : l.SweepsInTime bound ip buckets calls

/-- When the clock never goes back, no sweep comes before an earlier call. -/
theorem InOrder.sweepsInTime (h : InOrder calls) (buckets : Buckets) :
    l.SweepsInTime bound ip buckets calls := by
  induction calls generalizing buckets with
  | nil => trivial
  | cons c calls ih =>
    exact ⟨fun _ c' hc' _ => List.rel_of_pairwise_cons h hc', ih h.of_cons _⟩

/-- When the clock never goes back, it does not for one address. -/
theorem InOrder.own (h : InOrder calls) :
    (calls.filterMap (Call.sampleOf ip)).Pairwise (· ≤ ·) := by
  refine List.pairwise_filterMap.mpr (h.imp fun hle t ht t' ht' => ?_)
  obtain ⟨-, rfl⟩ := Call.sampleOf_eq_some.mp ht
  obtain ⟨-, rfl⟩ := Call.sampleOf_eq_some.mp ht'
  exact hle

/-- The bucket of `ip` has the level of `bucket` from the samples of its next calls on. -/
def Tracks (l : RateLimiter) (ip : IpAddr) (calls : List Call) (buckets : Buckets)
    (bucket : Option (TokenBucket ℚ)) : Prop :=
  ∀ c ∈ calls, c.ip = ip → SameLevel l.tokenRate c.now (buckets.counter ip) bucket

theorem Tracks.refl : l.Tracks ip calls buckets (buckets.counter ip) := fun _ _ _ _ _ => rfl

/-- A call of the IP itself. -/
theorem Tracks.check_self (bound : Option ℕ) (hrate : 0 < l.ratePerSec)
    (h : l.Tracks ip (⟨ip, now⟩ :: calls) buckets bucket) :
    (l.check bound buckets ip now).2 = (call l.tokenRate bucket now).2 ∧
      l.Tracks ip calls (l.check bound buckets ip now).1 (call l.tokenRate bucket now).1 := by
  -- a sweep drops only what has refilled by now, so the level is the same with and without it
  have hsame : SameLevel l.tokenRate now ((l.swept bound buckets now).counter ip) bucket := by
    intro t ht
    exact (sameLevel_swept hrate t ht).trans (h _ List.mem_cons_self rfl t ht)
  have htake := hsame.take_eq (le_refl now)
  rw [check_eq hrate]
  constructor
  · rw [spend_eq, htake]
    rfl
  · intro c _ _ t _
    rw [counter_spend, if_pos rfl, htake]
    rfl

/-- A call of another IP, which may sweep the table. -/
theorem Tracks.check_other (hrate : 0 < l.ratePerSec) (hip : ip' ≠ ip)
    (hsweep : sweeps bound buckets = true → ∀ c ∈ calls, c.ip = ip → now ≤ c.now)
    (h : l.Tracks ip (⟨ip', now⟩ :: calls) buckets bucket) :
    l.Tracks ip calls (l.check bound buckets ip' now).1 bucket := by
  intro c hc hself t ht
  have hlevel := h c (List.mem_cons_of_mem _ hc) hself t ht
  rw [check_eq hrate, counter_spend, if_neg hip]
  cases hsweeps : sweeps bound buckets with
  | false => rwa [swept_of_not_sweeps hsweeps]
  | true =>
    -- a bucket that was full at the sweep is full ever after
    have hle : now ≤ t := (hsweep hsweeps c hc hself).trans ht
    exact (sameLevel_swept hrate t hle).trans hlevel

/-- An IP is answered as by a bucket of its own. -/
theorem seen_checks (hrate : 0 < l.ratePerSec) (h : l.SweepsInTime bound ip buckets calls) :
    seen (Call.sampleOf ip) calls (l.checks bound buckets calls) =
      answered l.tokenRate (buckets.counter ip) (calls.filterMap (Call.sampleOf ip)) := by
  refine seen_replies (R := fun calls buckets bucket =>
    l.SweepsInTime bound ip buckets calls ∧ l.Tracks ip calls buckets bucket) ?_ ?_ ⟨h, .refl⟩
  · rintro c cs t buckets bucket hsel ⟨⟨-, hrest⟩, htracks⟩
    obtain ⟨rfl, rfl⟩ := Call.sampleOf_eq_some.mp hsel
    obtain ⟨hreply, hnext⟩ := htracks.check_self bound hrate
    exact ⟨hreply, hrest, hnext⟩
  · rintro c cs buckets bucket hsel ⟨⟨hsweep, hrest⟩, htracks⟩
    exact ⟨hrest, htracks.check_other hrate (Call.sampleOf_eq_none.mp hsel) hsweep⟩

/-- Whether the table is ever swept makes no difference. -/
theorem checks_unswept (hrate : 0 < l.ratePerSec) (h : InOrder calls) :
    l.checks bound buckets calls = l.checks none buckets calls := by
  refine replies_eq (R := fun cs buckets buckets' =>
    InOrder cs ∧ ∀ ip, l.Tracks ip cs buckets (buckets'.counter ip)) ?_ ⟨h, fun ip => .refl⟩
  rintro c cs buckets buckets' ⟨horder, htracks⟩
  obtain ⟨hreply, -⟩ := (htracks c.ip).check_self bound hrate
  have hunswept : l.check none buckets' c.ip c.now = l.spend buckets' c.ip c.now := check_eq hrate
  have hself : (l.check none buckets' c.ip c.now).2 =
      (call l.tokenRate (buckets'.counter c.ip) c.now).2 := by
    rw [hunswept, spend_eq]
    rfl
  refine ⟨hreply.trans hself.symm, horder.of_cons, fun ip => ?_⟩
  -- the call's own address spends on both sides; another one is only swept on the one side
  by_cases hip : c.ip = ip
  · subst hip
    rw [hunswept, counter_spend, if_pos rfl]
    exact ((htracks c.ip).check_self bound hrate).2
  · rw [hunswept, counter_spend, if_neg hip]
    exact (htracks ip).check_other hrate hip fun _ _ hc' _ => List.rel_of_pairwise_cons horder hc'

/-- What an IP is answered does not depend on the calls of the others. -/
theorem seen_own (hrate : 0 < l.ratePerSec) (h : InOrder calls) :
    seen (Call.sampleOf ip) calls (l.checks bound buckets calls) =
      seen (Call.sampleOf ip) (calls.filter fun c => c.ip = ip)
        (l.checks bound buckets (calls.filter fun c => c.ip = ip)) := by
  have hfilter : InOrder (calls.filter fun c => c.ip = ip) := h.filter _
  rw [seen_checks hrate (h.sweepsInTime buckets), seen_checks hrate (hfilter.sweepsInTime buckets),
    List.filterMap_filter]
  congr 1
  refine List.filterMap_congr fun c _ => ?_
  unfold Call.sampleOf
  by_cases hip : c.ip = ip <;> simp [hip]

end RateLimiter

/-! ## Sweeps are invisible -/

open RateLimiter in
/-- The decisions are those of a limiter that never sweeps, and those on the calls of an IP are
    the same without the other calls. -/
theorem eviction_invisible (l : RateLimiter) (hrate : 0 < l.ratePerSec) (bound : ℕ)
    (buckets : Buckets) {calls : List RateLimiter.Call} (hclock : InOrder calls) :
    l.checks (some bound) buckets calls = l.checks none buckets calls ∧
    ∀ ip, seen (Call.sampleOf ip) calls (l.checks (some bound) buckets calls) =
      seen (Call.sampleOf ip) (calls.filter fun c => c.ip = ip)
        (l.checks (some bound) buckets (calls.filter fun c => c.ip = ip)) :=
  ⟨checks_unswept hrate hclock, fun _ => seen_own hrate hclock⟩

namespace Sample

/-- Ten requests a second, at most three at once. -/
def limiter : RateLimiter := .new 10 3

def client (n : ℕ) : IpAddr := .v4 (BitVec.ofNat 32 n)

/-- Two clients, with a pause after which the bucket of the first is full again. -/
def calls : List RateLimiter.Call :=
  [⟨client 1, 0⟩, ⟨client 1, 0⟩, ⟨client 1, 0⟩, ⟨client 1, 0⟩, ⟨client 2, 1⟩, ⟨client 1, 1⟩]

end Sample

open RateLimiter in
/-- The calls of the sample are answered the same with a table bound of zero. -/
theorem eviction_invisible_sample :
    Sample.limiter.checks (some 0) ∅ Sample.calls = Sample.limiter.checks none ∅ Sample.calls ∧
    Sample.limiter.checks none ∅ Sample.calls = [true, true, true, false, true, true] := by
  have hclock : InOrder Sample.calls := by
    unfold InOrder Sample.calls
    decide +kernel
  refine ⟨(eviction_invisible Sample.limiter ?_ 0 ∅ hclock).1, ?_⟩
  · decide +kernel
  · decide +kernel

/-! ## The rate of an IP -/

namespace RateLimiter

variable {l : RateLimiter} {bound : Option ℕ} {ip : IpAddr} {calls : List Call} {lo hi : ℚ}

/-- How many calls of the IP with samples in a window are allowed. -/
def allowedCalls (l : RateLimiter) (bound : Option ℕ) (calls : List Call) (ip : IpAddr)
    (lo hi : ℚ) : ℕ :=
  (calls.zip (l.checks bound ∅ calls)).countP fun c =>
    c.1.ip = ip ∧ c.2 ∧ lo ≤ c.1.now ∧ c.1.now ≤ hi

/-- A fresh table lets at most `burst + rate * T` samples through. -/
theorem answered_window (hrate : 0 < l.ratePerSec) {samples : List ℚ}
    (hsamples : samples.Pairwise (· ≤ ·)) (hhi : lo ≤ hi) :
    (((answered l.tokenRate none samples).countP fun c => c.2 ∧ lo ≤ c.1 ∧ c.1 ≤ hi : ℕ) : ℚ) ≤
      l.burst + l.ratePerSec * (hi - lo) := by
  have hburst : 0 ≤ l.tokenRate.burst := zero_le_one.trans l.one_le_burst
  rw [mul_comm]
  exact allowed_window hrate.le hburst hsamples (fun _ _ => hburst) hhi

/-- The calls of an IP are answered by its own bucket, which bounds them. -/
theorem allowedCalls_le (hrate : 0 < l.ratePerSec) (h : l.InOrderFor bound ip ∅ calls)
    (hhi : lo ≤ hi) :
    (l.allowedCalls bound calls ip lo hi : ℚ) ≤ l.burst + l.ratePerSec * (hi - lo) := by
  -- the calls let through are the samples answered yes
  have hcount : l.allowedCalls bound calls ip lo hi =
      (answered l.tokenRate none (calls.filterMap (Call.sampleOf ip))).countP
        fun c => c.2 ∧ lo ≤ c.1 ∧ c.1 ≤ hi := by
    have hseen := seen_checks hrate h.sweeps
    have hempty : (∅ : Buckets).counter ip = none := rfl
    rw [hempty] at hseen
    rw [← hseen, countP_seen]
    refine List.countP_congr fun c _ => ?_
    unfold Call.sampleOf
    by_cases hip : c.1.ip = ip <;> simp [hip]
  rw [hcount]
  exact answered_window hrate h.own hhi

end RateLimiter

/-! ## Samples out of order -/

open RateLimiter in
/-- If no call of an IP takes the mutex with a sample older than that of a call before it which was
    its own or swept the table, then at most `burst + rate * T` of its calls are allowed in a window
    of length `T`. -/
theorem rate_bounded (l : RateLimiter) (hrate : 0 < l.ratePerSec) (bound : Option ℕ) (ip : IpAddr)
    {calls : List RateLimiter.Call} (horder : l.InOrderFor bound ip ∅ calls) {lo hi : ℚ}
    (hhi : lo ≤ hi) :
    (l.allowedCalls bound calls ip lo hi : ℚ) ≤ l.burst + l.ratePerSec * (hi - lo) :=
  allowedCalls_le hrate horder hhi

open RateLimiter in
/-- The first client of the sample gets four calls through in the first second. -/
theorem rate_bounded_sample :
    Sample.limiter.allowedCalls none Sample.calls (Sample.client 1) 0 1 = 4 ∧
    ((4 : ℕ) : ℚ) ≤ Sample.limiter.burst + Sample.limiter.ratePerSec * (1 - 0) := by
  have hclock : InOrder Sample.calls := by
    unfold InOrder Sample.calls
    decide +kernel
  have hallowed : Sample.limiter.allowedCalls none Sample.calls (Sample.client 1) 0 1 = 4 := by
    decide +kernel
  refine ⟨hallowed, ?_⟩
  rw [← hallowed]
  exact rate_bounded Sample.limiter (by decide +kernel) none (Sample.client 1)
    ⟨hclock.own, hclock.sweepsInTime ∅⟩ (by decide +kernel)

open RateLimiter in
/-- A late sample sets the bucket back, and the same second is credited again. -/
theorem second_credited_twice : ¬ ∀ (l : RateLimiter), 0 < l.ratePerSec →
    ∀ (bound : Option ℕ) (calls : List RateLimiter.Call) (ip : IpAddr), (∀ c ∈ calls, c.ip = ip) →
    ∀ lo hi : ℚ, lo ≤ hi →
      (l.allowedCalls bound calls ip lo hi : ℚ) ≤ l.burst + l.ratePerSec * (hi - lo) := by
  intro h
  have hbound := h (.new 1 1) (by decide +kernel) (some maxTrackedIps)
    [⟨Sample.client 1, 0⟩, ⟨Sample.client 1, 1⟩, ⟨Sample.client 1, 0⟩, ⟨Sample.client 1, 1⟩]
    (Sample.client 1) (by decide +kernel) 0 1 (by decide +kernel)
  exact absurd hbound (by decide +kernel)

/-! ## The gate -/

/-- The call of the limiter that the gate makes for a request. -/
def Arrival.call (r : Arrival) : RateLimiter.Call := ⟨clientIp r.request, r.now⟩

section Gate

open RateLimiter

variable {limits : Limits} {bound : Option ℕ} {rs : List Arrival} {buckets : Buckets}
  {ip : IpAddr} {lo hi : ℚ}

/-- How many of the selected requests with samples in a window are let past the limiter. -/
def passed (limits : Limits) (bound : Option ℕ) (rs : List Arrival) (of : Request → Bool)
    (lo hi : ℚ) : ℕ :=
  (rs.zip (gates limits bound ∅ rs)).countP fun r =>
    of r.1.request ∧ r.2 ∧ lo ≤ r.1.now ∧ r.1.now ≤ hi

/-- An identity that is not trusted is answered as by a bucket of its own. -/
theorem seen_gates (bound : Option ℕ) (buckets : Buckets)
    (hrate : 0 < limits.rateLimiter.ratePerSec) (hip : ip ∉ limits.trusted)
    (h : InOrder (rs.map Arrival.call)) :
    seen (fun r => r.call.sampleOf ip) rs (gates limits bound buckets rs) =
      answered limits.rateLimiter.tokenRate (buckets.counter ip)
        (rs.filterMap fun r => r.call.sampleOf ip) := by
  -- a request of the address is one sample; another request leaves its bucket alone
  refine seen_replies (R := fun rs buckets bucket => InOrder (rs.map Arrival.call) ∧
    limits.rateLimiter.Tracks ip (rs.map Arrival.call) buckets bucket) ?_ ?_ ⟨h, .refl⟩
  · rintro r rs t buckets bucket hsel ⟨horder, htracks⟩
    obtain ⟨hself, rfl⟩ := Call.sampleOf_eq_some.mp hsel
    obtain rfl : clientIp r.request = ip := hself
    unfold gate
    rw [if_neg hip]
    obtain ⟨hreply, hnext⟩ := htracks.check_self bound hrate
    exact ⟨hreply, horder.of_cons, hnext⟩
  · rintro r rs buckets bucket hsel ⟨horder, htracks⟩
    have hother : clientIp r.request ≠ ip := Call.sampleOf_eq_none.mp hsel
    unfold gate
    dsimp only
    split
    · -- a trusted request does not call the limiter
      exact ⟨horder.of_cons, fun c hc => htracks c (List.mem_cons_of_mem _ hc)⟩
    · exact ⟨horder.of_cons, htracks.check_other hrate hother fun _ _ hc _ =>
        List.rel_of_pairwise_cons horder hc⟩

/-- What is let past of an identity that is not trusted. -/
theorem passed_le (hrate : 0 < limits.rateLimiter.ratePerSec) (hip : ip ∉ limits.trusted)
    (h : InOrder (rs.map Arrival.call)) {of : Request → Bool}
    (hof : ∀ r ∈ rs, of r.request = true → clientIp r.request = ip) (hhi : lo ≤ hi) :
    (passed limits bound rs of lo hi : ℚ) ≤
      limits.rateLimiter.burst + limits.rateLimiter.ratePerSec * (hi - lo) := by
  -- the samples of one address keep the order of the clock
  have hsamples : (rs.filterMap fun r => r.call.sampleOf ip).Pairwise (· ≤ ·) := by
    have hown : ((rs.map Arrival.call).filterMap (Call.sampleOf ip)).Pairwise (· ≤ ·) := h.own
    rwa [List.filterMap_map] at hown
  have hseen := seen_gates bound ∅ hrate hip h
  have hempty : (∅ : Buckets).counter ip = none := rfl
  rw [hempty] at hseen
  -- the requests in question are among the address's, and only those that passed count
  have hcount : passed limits bound rs of lo hi ≤
      (answered limits.rateLimiter.tokenRate none (rs.filterMap fun r => r.call.sampleOf ip)).countP
        fun c => c.2 ∧ lo ≤ c.1 ∧ c.1 ≤ hi := by
    rw [← hseen, countP_seen]
    refine List.countP_mono_left fun r hr hpass => ?_
    obtain ⟨hmine, hok⟩ := of_decide_eq_true hpass
    have hself : r.1.call.sampleOf ip = some r.1.now :=
      Call.sampleOf_eq_some.mpr ⟨hof r.1 (List.of_mem_zip hr).1 hmine, rfl⟩
    rw [hself]
    exact decide_eq_true hok
  exact (Nat.cast_le.mpr hcount).trans (answered_window hrate hsamples hhi)

/-- The requests of an identity are answered the same without the others. -/
theorem gates_own (hrate : 0 < limits.rateLimiter.ratePerSec) (hip : ip ∉ limits.trusted)
    (h : InOrder (rs.map Arrival.call)) :
    seen (fun r => r.call.sampleOf ip) rs (gates limits bound buckets rs) =
      seen (fun r => r.call.sampleOf ip) (rs.filter fun r => clientIp r.request = ip)
        (gates limits bound buckets (rs.filter fun r => clientIp r.request = ip)) := by
  have hfilter : InOrder ((rs.filter fun r => clientIp r.request = ip).map Arrival.call) :=
    List.Pairwise.sublist (List.filter_sublist.map _) h
  rw [seen_gates bound buckets hrate hip h, seen_gates bound buckets hrate hip hfilter,
    List.filterMap_filter]
  congr 1
  refine List.filterMap_congr fun r _ => ?_
  by_cases hself : clientIp r.request = ip
  · rw [if_pos (decide_eq_true hself)]
  · rw [if_neg fun h => hself (of_decide_eq_true h)]
    exact Call.sampleOf_eq_none.mpr hself

/-! ## Forwarded addresses -/

/-- The request comes from the TCP peer and forwards no address. -/
def direct (peer : IpAddr) (req : Request) : Bool :=
  req.connectInfo = some peer ∧ forwardedIp req = none

/-- A request without headers has the identity of its peer. -/
theorem clientIp_of_direct {peer : IpAddr} {req : Request} (h : direct peer req = true) :
    clientIp req = peer := by
  obtain ⟨hpeer, hnone⟩ := of_decide_eq_true h
  rw [clientIp, hnone, hpeer]
  rfl

/-- Requests are counted for the address they forward, or else for their TCP peer. For every
    address that is not trusted, at most `burst + rate * T` requests are let past the limiter in a
    window of length `T`, of the direct ones and of all that are counted for it; and no request
    that is counted for another address consumes its tokens. -/
theorem identity_bounded (limits : Limits) (hrate : 0 < limits.rateLimiter.ratePerSec)
    (bound : Option ℕ) {rs : List Arrival} (hclock : InOrder (rs.map Arrival.call)) {ip : IpAddr}
    (hip : ip ∉ limits.trusted) :
    (∀ lo hi : ℚ, lo ≤ hi → (passed limits bound rs (direct ip) lo hi : ℚ) ≤
      limits.rateLimiter.burst + limits.rateLimiter.ratePerSec * (hi - lo)) ∧
    (∀ lo hi : ℚ, lo ≤ hi → (passed limits bound rs (fun req => clientIp req = ip) lo hi : ℚ) ≤
      limits.rateLimiter.burst + limits.rateLimiter.ratePerSec * (hi - lo)) ∧
    seen (fun r => r.call.sampleOf ip) rs (gates limits bound ∅ rs) =
      seen (fun r => r.call.sampleOf ip) (rs.filter fun r => clientIp r.request = ip)
        (gates limits bound ∅ (rs.filter fun r => clientIp r.request = ip)) := by
  refine ⟨?_, ?_, gates_own hrate hip hclock⟩
  · intro lo hi hhi
    exact passed_le hrate hip hclock (fun _ _ hdirect => clientIp_of_direct hdirect) hhi
  · intro lo hi hhi
    exact passed_le hrate hip hclock (fun _ _ hself => of_decide_eq_true hself) hhi

end Gate

namespace Sample

/-- One request a second, one at once, loopback trusted. -/
def limits : Limits := ⟨.new 1 1, [.v4 0x7f000001, .v6 1]⟩

/-- A request of a client that forwards an address. -/
def forwarding (n : ℕ) (address : String) : Request where
  headers := [("x-forwarded-for", address.toList.map fun c => UInt8.ofNat c.toNat)]
  connectInfo := some (client n)

def plain (n : ℕ) : Request := ⟨[], some (client n)⟩

end Sample

open RateLimiter in
/-- Two of three requests of one client pass in the first second. -/
theorem identity_bounded_sample :
    passed Sample.limits none [⟨Sample.plain 1, 0⟩, ⟨Sample.plain 1, 0⟩, ⟨Sample.plain 1, 1⟩]
      (direct (Sample.client 1)) 0 1 = 2 ∧
    ((2 : ℕ) : ℚ) ≤ Sample.limits.rateLimiter.burst +
      Sample.limits.rateLimiter.ratePerSec * (1 - 0) := by
  -- the burst of two lets them through, and the third comes a second later
  have hpassed : passed Sample.limits none
      [⟨Sample.plain 1, 0⟩, ⟨Sample.plain 1, 0⟩, ⟨Sample.plain 1, 1⟩]
      (direct (Sample.client 1)) 0 1 = 2 := by
    decide +kernel
  have hclock : InOrder ([⟨Sample.plain 1, 0⟩, ⟨Sample.plain 1, 0⟩,
      ⟨Sample.plain 1, 1⟩].map Arrival.call) := by
    unfold InOrder
    decide +kernel
  refine ⟨hpassed, ?_⟩
  rw [← hpassed]
  exact (identity_bounded Sample.limits (by decide +kernel) none hclock (by decide +kernel)).1 0 1
    (by decide +kernel)

open RateLimiter in
/-- A peer that forwards a trusted address is not limited, and one that forwards the address of
    another client takes its token. -/
theorem forged_identity :
    (¬ ∀ (limits : Limits), 0 < limits.rateLimiter.ratePerSec → ∀ (bound : Option ℕ)
      (rs : List Arrival), InOrder (rs.map Arrival.call) → ∀ peer ∉ limits.trusted,
      ∀ lo hi : ℚ, lo ≤ hi →
        (passed limits bound rs (fun req => req.connectInfo = some peer) lo hi : ℚ) ≤
          limits.rateLimiter.burst + limits.rateLimiter.ratePerSec * (hi - lo)) ∧
    (¬ ∀ (limits : Limits), 0 < limits.rateLimiter.ratePerSec → ∀ (bound : Option ℕ)
      (rs : List Arrival), InOrder (rs.map Arrival.call) → ∀ peer ∉ limits.trusted,
      ∀ victim, victim ≠ peer →
      seen (fun r => if r.request.connectInfo = some victim then some r.now else none) rs
          (gates limits bound ∅ rs) =
        seen (fun r => if r.request.connectInfo = some victim then some r.now else none)
          (rs.filter fun r => r.request.connectInfo ≠ some peer)
          (gates limits bound ∅ (rs.filter fun r => r.request.connectInfo ≠ some peer))) := by
  constructor
  -- two requests under a new forged address each: every one of them gets a full bucket
  · intro h
    have hbound := h Sample.limits (by decide +kernel) (some maxTrackedIps)
      [⟨Sample.forwarding 1 "127.0.0.1", 0⟩, ⟨Sample.forwarding 1 "127.0.0.1", 0⟩]
      (by unfold InOrder; decide +kernel) (Sample.client 1) (by decide +kernel) 0 0
      (by decide +kernel)
    exact absurd hbound (by decide +kernel)
  -- a request forged in the victim's name takes the token that the victim's own would have got
  · intro h
    have hsame := h Sample.limits (by decide +kernel) (some maxTrackedIps)
      [⟨Sample.forwarding 1 "0.0.0.2", 0⟩, ⟨Sample.plain 2, 0⟩]
      (by unfold InOrder; decide +kernel) (Sample.client 1) (by decide +kernel)
      (Sample.client 2) (by decide +kernel)
    exact absurd hsame (by decide +kernel)

end Gally.Indexer
