import Gally.Engine.Basic
import Gally.Spec.DisputeSpec

/-!
# One asset and everything that belongs to it

A `Site` is an asset with its receipts and, once the raise was finalized, its money
engine. `Site.Step` lists what a call can do to it; the chain is a collection of
sites that step independently (`World.call_sites` in `Gally.Chain.Sites`).
-/

namespace Gally

/-- An asset, its unburned receipts and its engine. -/
structure Site where
  asset : Asset
  receipts : Store ContributionReceipt
  engine : Option Engine

/-- The operations that leave the asset alone: everything the holders of receipts,
    deeds and coins do, deposits and sweeps. -/
def EngineOp.isExchange : EngineOp → Bool
  | .addToCompensationPool .. | .markClosed => false
  | _ => true

/-- What a call can do to a site. -/
inductive Site.Step : Site → Site → Prop where
  | cancel {s : Site} (state : s.asset.state = .pendingVouch) :
      Step s { s with asset := s.asset.cancelled }
  | vouch {s : Site} {pool : ValidatorPool} {cap : ValidatorCap} {config : ProtocolConfig}
      {docs : List WalrusRef} (guards : VouchGuards s.asset pool cap config docs) :
      Step s { s with asset := s.asset.vouched pool.id (s.asset.coverageFor config) docs }
  | contribute {s : Site} {config : ProtocolConfig} {now payment : ℕ} {newId : ID}
      (guards : ContributeGuards s.asset config now payment)
      (fresh : s.receipts.get? newId = none) :
      Step s { s with
        asset := s.asset.afterContribution (s.asset.accepts payment)
        receipts := s.receipts.put ⟨newId, s.asset.id, s.asset.accepts payment⟩ }
  | finalize {s : Site} {e : Engine} {config : ProtocolConfig} {cap : TreasuryCap}
      {metadata : CoinMetadata} {now : ℕ} {accId : ID}
      (guards : FinalizeGuards s.asset config cap metadata now)
      (acc : e.acc = s.asset.newAccumulator cap accId) (receipts : e.receipts = s.receipts)
      (shares : e.shares = ∅) (coins : e.coinUnits = 0) :
      Step s { s with asset := s.asset.finalized accId, engine := some e }
  | abort {s : Site} {pool : ValidatorPool} {config : ProtocolConfig} {now : ℕ}
      (guards : AbortGuards s.asset pool config now) : Step s { s with asset := s.asset.failed }
  | refund {s : Site} {config : ProtocolConfig} {receipt : ContributionReceipt}
      (mem : s.receipts.get? receipt.id = some receipt)
      (guards : RefundGuards s.asset config receipt) :
      Step s { s with
        asset := s.asset.afterRefund receipt.amount
        receipts := s.receipts.delete receipt.id }
  | prove {s : Site} {cap : EntityCap} {config : ProtocolConfig} {i : ℕ} {t : Tranche}
      {proof : WalrusRef} (guards : ProofGuards s.asset cap config i t) :
      Step s { s with asset := s.asset.withTranche i { t with proof := some proof } }
  | approve {s : Site} {pool : ValidatorPool} {cap : ValidatorCap} {config : ProtocolConfig}
      {i : ℕ} {t : Tranche} {sender : Address}
      (guards : ApproveGuards s.asset pool cap config i t) :
      Step s { s with asset := s.asset.withTranche i { t with approvedBy := some sender } }
  | release {s : Site} {cap : EntityCap} {config : ProtocolConfig} {i : ℕ} {t : Tranche}
      (guards : ReleaseGuards s.asset cap config i t) :
      Step s { s with asset := s.asset.afterTranche t }
  | uncover {s : Site} {pool : ValidatorPool} (guards : CoverageGuards s.asset pool) :
      Step s { s with asset := clearCoverage s.asset }
  | challenge {s : Site} {pool : ValidatorPool} {acc : GlobalYieldAccumulator}
      {config : ProtocolConfig} {bond now : ℕ} {reason : Bytes}
      (guards : InitializeGuards s.asset pool acc config bond reason now) :
      Step s { s with asset := setDisputed s.asset true }
  /-- an EXPIRED or REJECTED verdict -/
  | acquit {s : Site} : Step s { s with asset := setDisputed s.asset false }
  | uphold {s : Site} {e : Engine} {dispute : Dispute} {pool : ValidatorPool}
      {config : ProtocolConfig} {now : ℕ} (engine : s.engine = some e)
      (guards : UpholdGuards dispute pool s.asset e.acc config now) :
      Step s { s with
        asset := s.asset.upheld
        engine := some { e with
          acc := e.acc.compensated
            (s.asset.coverageLocked - config.bounty s.asset.coverageLocked + s.asset.seizable)
            (now + config.compensationGraceMs) } }
  | default {s : Site} {e : Engine} {config : ProtocolConfig} {now : ℕ} {t : Tranche}
      (engine : s.engine = some e) (guards : DefaultGuards s.asset e.acc config now t) :
      Step s { s with
        asset := s.asset.seized
        engine := some { e with
          acc := e.acc.compensated (s.asset.entityCollateral + s.asset.escrow)
            (now + config.compensationGraceMs) } }
  | close {s : Site} {e : Engine} {reason : CloseReason} (engine : s.engine = some e)
      (guards : CloseGuards s.asset e.acc reason) :
      Step s { s with
        asset := s.asset.closed
        engine := some { e with acc := markClosed e.acc } }
  | exchange {s : Site} {e e' : Engine} {op : EngineOp} {payouts : List Payout}
      (engine : s.engine = some e) (exchange : op.isExchange = true)
      (run : e.apply op = .ok (e', payouts)) :
      Step s { s with receipts := e'.receipts, engine := some e' }

end Gally
