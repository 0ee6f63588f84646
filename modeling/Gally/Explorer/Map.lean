import Gally.Explorer.Wire
import Gally.Indexer.Json

/-!
# Mappers of the explorer (`lib/data/map.ts`)

From the JSON objects of the indexer to what the pages show. A field that is read and not served is
`undefined`, which the mappers treat like `null`. Texts that are only displayed are left out.
-/

namespace Gally.Explorer

open Indexer (JsonObject)

/-! ## Numbers and enumerations (`lib/data/wire.ts`) -/

/-- A count; nothing is 0. -/
def intOf (v : Option ℤ) : ℤ := v.getD 0

/-- The states that are shown. -/
inductive AssetState where
  | pendingVouch | funding | funded | executing | operational | defaulted | compensating | closed
  | failed | cancelled
  deriving DecidableEq, Repr

def stateOfByte (b : Option ℤ) : AssetState :=
  match b.getD 0 with
  | 1 => .funding
  | 2 => .failed
  | 3 => .cancelled
  | 4 => .executing
  | 5 => .operational
  | 6 => .compensating
  | 7 => .closed
  | _ => .pendingVouch

/-! ## Assets -/

/-- A point of a series. -/
structure Point where
  t : ℤ
  v : ℚ
  deriving DecidableEq, Repr

structure Accumulator where
  id : String
  cumulativeIndex : ℚ
  totalMintedShares : ℚ
  totalWrappedShares : ℚ
  rewardPool : ℚ
  rolloverReserve : ℚ
  compensationPool : ℚ
  wrappingFrozen : Bool
  compensationUnlockMs : Option ℤ
  lifetimeInvestorRevenue : ℚ
  deriving DecidableEq, Repr

structure Tranche where
  index : ℤ
  amount : ℚ
  description : Option String
  deadlineMs : ℤ
  released : Bool
  approvedBy : Option String
  proofBlobId : Option String
  proofSha256 : Option String
  deriving DecidableEq, Repr

structure Asset where
  id : String
  entity : String
  state : AssetState
  fundingGoal : ℚ
  raised : ℚ
  fundingDeadlineMs : ℤ
  createdAtMs : ℤ
  tranches : List Tranche
  entityCollateral : ℚ
  revenueSplitBps : ℤ
  accumulator : Option Accumulator
  isTermFinancing : Bool
  returnTarget : ℚ
  disputed : Bool
  validatorPoolId : String
  coverageLocked : ℚ
  raiseSeries : List Point
  indexSeries : List Point
  wrapSeries : List Point
  contributors : ℕ
  holders : ℕ
  deriving DecidableEq, Repr

/-- The item of the asset list; the detail also has the balances. -/
structure WireAsset where
  fields : JsonObject
  accumulator : Option JsonObject

/-- The states in which the raise has completed (`RAISE_COMPLETE`). -/
def raiseComplete : List AssetState := [.executing, .operational, .compensating, .closed]

def deriveState (byteState : AssetState) (raised goal : ℚ) (defaulted : Bool) : AssetState :=
  if byteState = .funding ∧ 0 < goal ∧ goal ≤ raised then .funded
  else if defaulted ∧ (byteState = .executing ∨ byteState = .operational) then .defaulted
  else byteState

structure AssetExtras where
  raised : Option ℚ := none
  raiseSeries : Option (List Point) := none
  indexSeries : Option (List Point) := none
  wrapSeries : Option (List Point) := none
  cumulativeIndex : Option ℚ := none
  totalMintedShares : Option ℚ := none
  totalWrappedShares : Option ℚ := none
  holders : Option ℕ := none
  contributors : Option ℕ := none
  disputed : Option Bool := none
  defaulted : Option Bool := none

def mapAsset (w : WireAsset) (extras : AssetExtras) : Asset :=
  let base := stateOfByte (w.fields.number? "current_state")
  let goal := usdc (w.fields.string? "goal")
  -- without a series the amount raised is inferred from the lifecycle
  let raised := extras.raised.getD (if base ∈ raiseComplete then goal else 0)
  let balance := fun field => usdc (w.accumulator.bind fun acc => acc.string? field)
  { id := (w.fields.string? "asset_id").getD ""
    entity := (w.fields.string? "entity").getD ""
    state := deriveState base raised goal (extras.defaulted.getD false)
    fundingGoal := goal
    raised
    fundingDeadlineMs := intOf (w.fields.number? "funding_deadline_ms")
    createdAtMs := intOf (w.fields.number? "created_at_ms")
    tranches := [] -- filled by `mapTranches` on the detail
    entityCollateral := usdc (w.fields.string? "collateral")
    revenueSplitBps := intOf (w.fields.number? "revenue_split_bps")
    accumulator := (w.fields.string? "accumulator_id").map fun id =>
      { id
        cumulativeIndex := extras.cumulativeIndex.getD 0
        totalMintedShares := extras.totalMintedShares.getD 0
        totalWrappedShares := extras.totalWrappedShares.getD 0
        rewardPool := balance "reward_pool"
        rolloverReserve := balance "rollover_reserve"
        compensationPool := balance "compensation_pool"
        wrappingFrozen := (w.accumulator.bind (·.boolean? "wrapping_frozen")).getD false
        compensationUnlockMs := w.accumulator.bind (·.number? "compensation_unlock_ms")
        lifetimeInvestorRevenue := balance "reward_pool" }
    isTermFinancing := (w.fields.boolean? "is_term_financing").getD false
    returnTarget := usdc (w.fields.string? "return_target")
    disputed := extras.disputed.getD false
    validatorPoolId := (w.fields.string? "validator_pool_id").getD ""
    coverageLocked := usdc (w.fields.string? "coverage")
    raiseSeries := extras.raiseSeries.getD []
    indexSeries := extras.indexSeries.getD []
    wrapSeries := extras.wrapSeries.getD []
    contributors := extras.contributors.getD 0
    holders := extras.holders.getD 0 }

/-- Who approved a tranche, and the proof. -/
structure Approver where
  approvedBy : Option String
  blob : Option String
  sha : Option String
  deriving DecidableEq, Repr

def mapTranches (schedule : List JsonObject) (released : List ℤ) (approvers : ℤ → Option Approver) :
    List Tranche :=
  (schedule.mergeSort fun a b =>
    intOf (a.number? "tranche_index") ≤ intOf (b.number? "tranche_index")).map fun t =>
      let index := intOf (t.number? "tranche_index")
      let extra := approvers index
      { index
        amount := usdc (t.string? "amount")
        description := t.string? "description"
        deadlineMs := intOf (t.number? "deadline_ms")
        released := index ∈ released
        approvedBy := extra.bind Approver.approvedBy
        proofBlobId := extra.bind Approver.blob
        proofSha256 := extra.bind Approver.sha }

def mapRaiseSeries (points : List JsonObject) : List Point :=
  points.map fun p => ⟨intOf (p.number? "timestamp_ms"), usdc (p.string? "raised_after")⟩

def mapYieldSeries (points : List JsonObject) : List Point :=
  (points.filter fun p => (p.string? "index_after").isSome).map fun p =>
    ⟨intOf (p.number? "timestamp_ms"), indexHuman (p.string? "index_after")⟩

def mapWrapSeries (points : List JsonObject) : List Point :=
  points.map fun p => ⟨intOf (p.number? "timestamp_ms"), usdc (p.string? "total_wrapped_after")⟩

/-! ## Disputes -/

inductive DisputeStatus where
  | opened | upheld | rejected | expired
  deriving DecidableEq, Repr

structure Dispute where
  id : String
  assetId : String
  targetPoolId : String
  challenger : String
  bond : ℚ
  status : DisputeStatus
  votesGuilty : ℤ
  votesInnocent : ℤ
  quorum : ℤ
  votingDeadlineMs : ℤ
  openedAtMs : ℤ
  reason : Option String
  slashed : Option ℚ
  bounty : Option ℚ
  deriving DecidableEq, Repr

/-- `now` is `Date.now()`. -/
def disputeStatus (now : ℤ) (w : JsonObject) : DisputeStatus :=
  match w.number? "verdict" with
  | none => if (w.number? "voting_deadline_ms").any (· < now) then .expired else .opened
  | some verdict => if verdict = 1 then .upheld else .rejected

def mapDispute (now : ℤ) (w : JsonObject) : Dispute where
  id := (w.string? "dispute_id").getD ""
  assetId := (w.string? "asset_id").getD ""
  targetPoolId := (w.string? "target_pool_id").getD ""
  challenger := (w.string? "challenger").getD ""
  bond := usdc (w.string? "bond")
  status := disputeStatus now w
  votesGuilty := intOf (w.number? "votes_guilty")
  votesInnocent := intOf (w.number? "votes_innocent")
  quorum := if intOf (w.number? "quorum") = 0 then 3 else intOf (w.number? "quorum")
  votingDeadlineMs := (w.number? "voting_deadline_ms").getD 0
  openedAtMs := intOf (w.number? "opened_at_ms")
  reason := w.string? "reason"
  slashed := (w.string? "slashed").map fun s => usdc (some s)
  bounty := (w.string? "bounty").map fun s => usdc (some s)

/-! ## Holders -/

structure HolderEntry where
  address : String
  shareCount : ℚ
  wrapped : ℚ
  acquiredAtMs : ℤ
  yieldClaimedIndex : ℚ
  deriving DecidableEq, Repr

def mapHolder (w : JsonObject) : HolderEntry where
  address := (w.string? "address").getD ""
  shareCount := usdc (w.string? "share_count")
  wrapped := usdc (w.string? "wrapped")
  acquiredAtMs := intOf (w.number? "acquired_at_ms")
  yieldClaimedIndex := indexHuman (w.string? "yield_claimed_index")

/-! ## Governance -/

/-- A change in the history of the parameters. -/
structure GovParamChange where
  name : String
  oldValue : String
  newValue : String
  tsMs : ℤ
  txDigest : String
  deriving DecidableEq, Repr

def mapGovEvent (w : JsonObject) : GovParamChange :=
  let eventType := (w.string? "event_type").getD ""
  let tsMs := intOf (w.number? "timestamp_ms")
  let txDigest := (w.string? "tx_digest").getD ""
  if eventType = "ProtocolTreasuryChanged" then
    { name := "treasury", oldValue := (w.string? "old_treasury").getD "—"
      newValue := (w.string? "new_treasury").getD "—", tsMs, txDigest }
  else if eventType = "ProtocolParamChanged" then
    { name := (w.string? "param_name").getD "param", oldValue := (w.string? "old_value").getD "—"
      newValue := (w.string? "new_value").getD "—", tsMs, txDigest }
  else
    let name := if eventType = "ProtocolInitialized" then "initialized"
      else if eventType = "EmergencyStopTriggered" then "paused"
      else if eventType = "ProtocolResumed" then "resumed"
      else eventType
    { name, oldValue := "—", newValue := "—", tsMs, txDigest }

end Gally.Explorer
