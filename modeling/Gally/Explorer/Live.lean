import Gally.Explorer.Map
import Mathlib.Data.Rat.Floor

/-!
# The live source of the explorer (`lib/data/live.ts`)

`getAsset`, `getGovernance` and `getSolvency` on what the indexer answers. Each reads one page of
every list (`getList`); a request that fails is replaced by an empty answer (`safe`).
-/

namespace Gally.Explorer

open Indexer (JsonObject Snapshot AccumulatorBalances)

/-! ## Answers -/

/-- The answer of `GET /assets/:asset_id/holders`. -/
structure HoldersEnvelope where
  data : List JsonObject
  totalMintedShares : Option String

/-- The answer of `GET /assets/:asset_id/tranches`. -/
structure TranchesEnvelope where
  data : List JsonObject
  schedule : List JsonObject

/-- What the indexer answers to the requests of `getAsset`; `none` is a request that failed, and
    for a single object also a 404. -/
structure AssetResponses where
  asset : Option WireAsset
  history : Option (List JsonObject)
  yieldCurve : Option (List JsonObject)
  wrapRatio : Option (List JsonObject)
  holders : Option HoldersEnvelope
  tranches : Option TranchesEnvelope
  disputes : Option (List JsonObject)

/-- The first page of a list. -/
def getList (L : Indexer.Listing) (json : L.Item → JsonObject) (s : Snapshot) (limit : Option ℤ) :
    Option (List JsonObject) :=
  (L.respond (s, limit) none).map fun page => page.data.map json

/-- The answer of `GET /assets/:asset_id`, given the balances of the accumulator. -/
def assetDetail (s : Snapshot) (balances : AccumulatorBalances) (assetId : ID) : Option WireAsset :=
  ((s.typed.get? (.asset assetId)).bind Indexer.Row.asset?).map fun r =>
    { fields := r.json, accumulator := some balances.json }

/-- The answer of `GET /assets/:asset_id/holders?limit=200`. -/
def holdersEnvelope (s : Snapshot) (assetId : ID) : Option HoldersEnvelope := do
  let row ← (s.typed.get? (.asset assetId)).bind Indexer.Row.asset?
  let data ← getList (Indexer.holdersList assetId) Indexer.HolderFoldRow.json s (some 200)
  return { data, totalMintedShares := some (Decimal.ofInt row.goal) }

/-- What the indexer answers to `getAsset`. -/
def assetResponses (s : Snapshot) (balances : AccumulatorBalances) (assetId : ID) :
    AssetResponses where
  asset := assetDetail s balances assetId
  -- the series of the raise is read from `/history`
  history := getList (Indexer.listAssetHistory assetId) (fun r => r.row.json) s (some 200)
  yieldCurve := getList (Indexer.listYieldIndex assetId) (fun r => r.row.json) s (some 200)
  wrapRatio := getList (Indexer.listWrapRatio assetId) (fun r => r.row.wrapRatioJson) s (some 200)
  holders := holdersEnvelope s assetId
  tranches := (getList (Indexer.listTranches assetId) (fun r => r.row.json) s (some 200)).map
    fun data => { data, schedule := (Indexer.listTrancheSchedule s.typed assetId).map (·.json) }
  disputes := getList (Indexer.listDisputes (some assetId) none none none)
    Indexer.ListedDispute.json s none

/-- The answer of `GET /disputes/:dispute_id`, without the log of the votes. -/
def disputeDetail (s : Snapshot) (disputeId : ID) : Option JsonObject :=
  ((Indexer.listedDisputes s.typed).find? (·.dispute.disputeId = disputeId)).map
    Indexer.ListedDispute.json

/-! ## Assets -/

/-- The tranches of the events that release them. -/
def releasedTranches (events : List JsonObject) : List ℤ :=
  (events.filter fun ev => ev.string? "event_type" = some "released").map fun ev =>
    intOf (ev.number? "tranche_index")

/-- An event that names who approved, or the proof; an empty text counts as none. -/
def approverOf (ev : JsonObject) : Option Approver :=
  if (ev.string? "approver").any (· ≠ "") ∨ (ev.string? "proof_blob_id").any (· ≠ "") then
    some { approvedBy := ev.string? "approver", blob := ev.string? "proof_blob_id"
           sha := ev.string? "proof_sha256" }
  else none

/-- The last such event of each tranche. -/
def approvers (events : List JsonObject) : ℤ → Option Approver :=
  events.foldl (fun m ev => (approverOf ev).elim m fun extra =>
    Function.update m (intOf (ev.number? "tranche_index")) (some extra)) fun _ => none

def getAsset (r : AssetResponses) : Option Asset :=
  r.asset.map fun base =>
    let raise := r.history.getD []
    let yld := r.yieldCurve.getD []
    let wrap := r.wrapRatio.getD []
    let disputes := r.disputes.getD []
    let raiseSeries := mapRaiseSeries raise
    let lastYield := (yld.filter fun p => (p.string? "index_after").isSome).getLast?
    let lastWrap := wrap.getLast?
    let asset := mapAsset base
      { raised := raiseSeries.getLast?.map Point.v
        raiseSeries := some raiseSeries
        indexSeries := some (mapYieldSeries yld)
        wrapSeries := some (mapWrapSeries wrap)
        cumulativeIndex := some (lastYield.elim 0 fun p => indexHuman (p.string? "index_after"))
        totalMintedShares := some (r.holders.elim 0 fun env => usdc env.totalMintedShares)
        totalWrappedShares := some (lastWrap.elim 0 fun p => usdc (p.string? "total_wrapped_after"))
        holders := some (r.holders.elim 0 fun env => env.data.length)
        contributors := some (raise.map fun p => p.string? "contributor").eraseDups.length
        disputed := some (disputes.any fun d => (d.number? "verdict").isNone) }
    r.tranches.elim asset fun env =>
      if env.schedule = [] then asset
      else { asset with
        tranches := mapTranches env.schedule (releasedTranches env.data) (approvers env.data) }

/-! ## Governance -/

structure GovernanceResult where
  history : List GovParamChange
  paused : Bool
  config : String → Option String

/-- The value of each parameter after the last change of it in the list. -/
def foldConfig (events : List JsonObject) : String → Option String :=
  events.foldl (fun config e =>
    match (e.string? "param_name").filter (· ≠ ""), e.string? "new_value" with
    | some name, some value =>
      if e.string? "event_type" = some "ProtocolParamChanged" then
        Function.update config name (some value)
      else config
    | _, _ => config) fun _ => none

/-- `getGovernance` on what `GET /governance?limit=200` answers. -/
def getGovernance (governance : Option (List JsonObject)) : GovernanceResult :=
  let events := governance.getD []
  let kind := fun e : JsonObject => e.string? "event_type"
  { history := (events.filter fun e => kind e = some "ProtocolParamChanged" ∨
      kind e = some "ProtocolTreasuryChanged").map mapGovEvent
    paused := ((events.filter fun e => kind e = some "EmergencyStopTriggered" ∨
      kind e = some "ProtocolResumed").getLast?.bind kind) = some "EmergencyStopTriggered"
    config := foldConfig events }

/-! ## Solvency -/

structure HoldersResult where
  entries : List HolderEntry
  totalMinted : ℚ

def getHolders (envelope : Option HoldersEnvelope) : HoldersResult where
  entries := (envelope.elim [] HoldersEnvelope.data).map mapHolder
  totalMinted := envelope.elim 0 fun env => usdc env.totalMintedShares

structure Solvency where
  owed : ℚ
  rewardPool : ℚ
  /-- `Infinity` is `none`. -/
  ratio : Option ℚ
  buffer : ℚ
  healthy : Bool
  hasYield : Bool
  deriving DecidableEq, Repr

/-- `Math.round` -/
def round (x : ℚ) : ℤ := ⌊x + 1 / 2⌋

/-- `getSolvency` on the asset and the answer of `GET /assets/:asset_id/holders?limit=200`. -/
def getSolvency (asset : Option Asset) (envelope : Option HoldersEnvelope) : Solvency :=
  let acc := asset.bind Asset.accumulator
  let rewardPool := acc.elim 0 Accumulator.rewardPool
  let cumIndex := acc.elim 0 Accumulator.cumulativeIndex
  let owed : ℚ :=
    if cumIndex ≤ 0 then 0
    else (((getHolders envelope).entries.map fun h =>
      max 0 (round ((cumIndex - h.yieldClaimedIndex) * h.shareCount))).sum : ℤ)
  { owed
    rewardPool
    ratio := if 0 < owed then some (rewardPool / owed) else none
    buffer := rewardPool - owed
    healthy := owed ≤ rewardPool
    hasYield := 0 < cumIndex }

end Gally.Explorer
