import Gally.Chain.Links
import Gally.Law.Trial

/-!
# What calls tell of

A call emits events of its kinds only (`World.emits`), so an invariant about one kind of event has
to look at the calls that can emit it. Three kinds of events change what is kept about somebody:
what an address holds, who vouches for an asset, and how a dispute is opened and decided. A call
emits events of one of these topics at most (`World.topics`).
-/

namespace Gally

open Checked

/-- Which event it is. -/
inductive EventKind where
  | protocolInitialized | protocolParamChanged | protocolTreasuryChanged | emergencyStopTriggered
  | protocolResumed | validatorRegistered | stakeAdded | stakeWithdrawn | validatorStatusChanged
  | rolloverSwept | yieldClaimed | compensationSwept | sharesWrapped | sharesUnwrapped
  | shareRedeemed | dustSwept | assetCreated | assetStateChanged | assetVouched | assetCancelled
  | capitalContributed | raiseFinalized | raiseAborted | contributionRefunded | sharesClaimed
  | milestoneProofSubmitted | milestoneApproved | trancheReleased | assetBecameOperational
  | entityDefaulted | assetClosed | revenueDeposited | disputeOpened | jurorVoted
  | disputeResolved | jurorRewardClaimed
  deriving DecidableEq, Repr

def Event.kind : Event → EventKind
  | .protocolInitialized .. => .protocolInitialized
  | .protocolParamChanged .. => .protocolParamChanged
  | .protocolTreasuryChanged .. => .protocolTreasuryChanged
  | .emergencyStopTriggered .. => .emergencyStopTriggered
  | .protocolResumed .. => .protocolResumed
  | .validatorRegistered .. => .validatorRegistered
  | .stakeAdded .. => .stakeAdded
  | .stakeWithdrawn .. => .stakeWithdrawn
  | .validatorStatusChanged .. => .validatorStatusChanged
  | .rolloverSwept .. => .rolloverSwept
  | .yieldClaimed .. => .yieldClaimed
  | .compensationSwept .. => .compensationSwept
  | .sharesWrapped .. => .sharesWrapped
  | .sharesUnwrapped .. => .sharesUnwrapped
  | .shareRedeemed .. => .shareRedeemed
  | .dustSwept .. => .dustSwept
  | .assetCreated .. => .assetCreated
  | .assetStateChanged .. => .assetStateChanged
  | .assetVouched .. => .assetVouched
  | .assetCancelled .. => .assetCancelled
  | .capitalContributed .. => .capitalContributed
  | .raiseFinalized .. => .raiseFinalized
  | .raiseAborted .. => .raiseAborted
  | .contributionRefunded .. => .contributionRefunded
  | .sharesClaimed .. => .sharesClaimed
  | .milestoneProofSubmitted .. => .milestoneProofSubmitted
  | .milestoneApproved .. => .milestoneApproved
  | .trancheReleased .. => .trancheReleased
  | .assetBecameOperational .. => .assetBecameOperational
  | .entityDefaulted .. => .entityDefaulted
  | .assetClosed .. => .assetClosed
  | .revenueDeposited .. => .revenueDeposited
  | .disputeOpened .. => .disputeOpened
  | .jurorVoted .. => .jurorVoted
  | .disputeResolved .. => .disputeResolved
  | .jurorRewardClaimed .. => .jurorRewardClaimed

/-- The events a call of `protocol.move` can emit. -/
def ProtocolCall.kinds : ProtocolCall → List EventKind
  | .adminSetTreasury _ => [.protocolTreasuryChanged]
  | .adminEmergencyStop => [.emergencyStopTriggered]
  | .adminResume => [.protocolResumed]
  | _ => [.protocolParamChanged]

def ValidatorCall.kinds : ValidatorCall → List EventKind
  | .registerValidator .. => [.validatorRegistered]
  | .addStake .. => [.stakeAdded]
  | .withdrawStake .. => [.stakeWithdrawn]

def AssetCall.kinds : AssetCall → List EventKind
  | .createAsset .. | .createTermAsset .. => [.assetCreated]
  | .cancelUnvouchedByEntity .. | .cancelUnvouchedTimeout _ => [.assetCancelled, .assetStateChanged]
  | .vouchAssetLegals .. => [.assetVouched, .assetStateChanged]
  | .contributeCapital .. => [.capitalContributed]
  | .finalizeSuccessfulRaise .. => [.raiseFinalized, .assetStateChanged]
  | .abortFailedRaise .. => [.raiseAborted, .assetStateChanged]
  | .refundContribution .. => [.contributionRefunded]
  | .claimShares .. => [.sharesClaimed]
  | .submitMilestoneProof .. => [.milestoneProofSubmitted]
  | .approveMilestone .. => [.milestoneApproved]
  | .releaseFundingTranche .. => [.trancheReleased, .assetStateChanged, .assetBecameOperational]
  | .releaseVouchCoverage .. => []
  | .flagDefault .. => [.entityDefaulted, .assetStateChanged]
  | .depositRevenue .. => [.revenueDeposited]
  | .closeAtReturnTarget .. | .closeAfterCompensation .. | .closeWindDown .. =>
    [.assetClosed, .assetStateChanged]

def AccumulatorCall.kinds : AccumulatorCall → List EventKind
  | .claimRewards .. => [.yieldClaimed]
  | .sweepRollover _ => [.rolloverSwept]
  | .sweepCompensation _ => [.compensationSwept]
  | .wrapShares .. => [.yieldClaimed, .sharesWrapped]
  | .unwrapCoins .. => [.sharesUnwrapped, .rolloverSwept]
  | .redeemShare .. => [.yieldClaimed, .shareRedeemed]
  | .mergeShares .. => [.yieldClaimed]
  | .adminSweepDust _ => [.dustSwept]
  | .splitShare .. => []

def DisputeCall.kinds : DisputeCall → List EventKind
  | .initializeDispute .. => [.disputeOpened, .validatorStatusChanged]
  | .voteOnDispute .. => [.jurorVoted]
  | .resolveDispute .. => [.disputeResolved, .validatorStatusChanged, .assetStateChanged]
  | .claimJurorReward .. => [.jurorRewardClaimed]

def Call.kinds : Call → List EventKind
  | .protocol c => c.kinds
  | .validator c => c.kinds
  | .asset c => c.kinds
  | .accumulator c => c.kinds
  | .dispute c => c.kinds
  | .framework _ => []

/-- Only calls on assets list them, take contributions and release tranches. -/
theorem Call.asset_of_kinds {c : Call} {k : EventKind} (hk : k ∈ c.kinds)
    (hasset : k = .assetCreated ∨ k = .capitalContributed ∨ k = .trancheReleased) :
    ∃ c', c = .asset c' ∧ k ∈ c'.kinds := by
  cases c with
  | asset c => exact ⟨c, rfl, hk⟩
  | protocol c =>
    rcases hasset with rfl | rfl | rfl <;> cases c <;> simp [Call.kinds, ProtocolCall.kinds] at hk
  | validator c =>
    rcases hasset with rfl | rfl | rfl <;> cases c <;> simp [Call.kinds, ValidatorCall.kinds] at hk
  | accumulator c =>
    rcases hasset with rfl | rfl | rfl <;> cases c <;>
      simp [Call.kinds, AccumulatorCall.kinds] at hk
  | dispute c =>
    rcases hasset with rfl | rfl | rfl <;> cases c <;> simp [Call.kinds, DisputeCall.kinds] at hk
  | framework c => cases hk

/-- What an event is about. -/
inductive Topic where
  | holdings | vouch | opening | verdict | other
  deriving DecidableEq

def Event.topic : Event → Topic
  | .sharesClaimed .. | .sharesWrapped .. | .sharesUnwrapped .. | .shareRedeemed .. => .holdings
  | .assetVouched .. => .vouch
  | .disputeOpened .. => .opening
  | .disputeResolved .. => .verdict
  | _ => .other

def EventKind.topic : EventKind → Topic
  | .sharesClaimed | .sharesWrapped | .sharesUnwrapped | .shareRedeemed => .holdings
  | .assetVouched => .vouch
  | .disputeOpened => .opening
  | .disputeResolved => .verdict
  | _ => .other

/-- The topic of the events a call emits, apart from the other events. -/
def Call.topic : Call → Topic
  | .asset (.claimShares ..) | .accumulator (.wrapShares ..) | .accumulator (.unwrapCoins ..)
  | .accumulator (.redeemShare ..) => .holdings
  | .asset (.vouchAssetLegals ..) => .vouch
  | .dispute (.initializeDispute ..) => .opening
  | .dispute (.resolveDispute ..) => .verdict
  | _ => .other

namespace World

variable {w w' : World} {sender : Address} {acc acc' : GlobalYieldAccumulator}

/-- The new events are of these kinds. -/
def Emits (w w' : World) (ks : List EventKind) : Prop :=
  ∃ es, w'.events = w.events ++ es ∧ ∀ e ∈ es, e.kind ∈ ks

attribute [local simp] Event.kind Call.kinds ProtocolCall.kinds ValidatorCall.kinds AssetCall.kinds
  AccumulatorCall.kinds DisputeCall.kinds

/-- A call without events. -/
theorem Emits.nil {ks : List EventKind} (h : w'.events = w.events) : w.Emits w' ks :=
  ⟨[], h.trans (List.append_nil _).symm, fun _ he => absurd he List.not_mem_nil⟩

/-- A listing emits its creation. -/
theorem listed_emits {config : ProtocolConfig} {l : Listing} {isTerm : Bool} {target : U64}
    {collateral now capId : ℕ} {asset : Asset} {cap : EntityCap} {events : List Event}
    (run : createAssetInternal config l isTerm target collateral now sender w.nextId capId =
      .ok (asset, cap, events)) :
    w.Emits (w.listed sender collateral asset cap events) [.assetCreated] := by
  simp only [createAssetInternal, seq_eq_ok, assertVersion_eq_ok, assertNotPaused_eq_ok,
    ensure_eq_ok, mulBps_eq_ok, return_eq_ok, Prod.mk.injEq] at run
  obtain ⟨-, -, -, -, -, -, -, -, -, -, -, -, -, -, -, -, -, -, -, -, -, -, -, -, _, -, -, -, _, -,
    -, -, rfl, rfl, rfl⟩ := run
  exact ⟨_, rfl, by simp⟩

/-- A close emits itself and the change of state. -/
theorem closing_emits {asset : Asset} {reason : CloseReason} :
    w.Emits (w.closing asset acc
      [.assetClosed asset.id reason, .assetStateChanged asset.id asset.state .closed])
      [.assetClosed, .assetStateChanged] :=
  ⟨_, rfl, by simp⟩

/-- The asset module's calls emit events of their kinds. -/
theorem asset_emits {c : AssetCall} (h : AssetStep w sender c w') :
    w.Emits w' c.kinds := by
  cases h with
  | createAsset _ _ run => exact listed_emits run
  | createTermAsset _ _ run => exact listed_emits run
  | cancelUnvouchedByEntity _ _ _ _ _ run =>
    obtain ⟨-, -, ⟨⟩⟩ := cancelUnvouchedByEntity_eq_ok.mp run
    exact ⟨_, rfl, by simp [Asset.cancelEvents]⟩
  | cancelUnvouchedTimeout _ _ run =>
    obtain ⟨-, -, -, -, ⟨⟩⟩ := cancelUnvouchedTimeout_eq_ok.mp run
    exact ⟨_, rfl, by simp [Asset.cancelEvents]⟩
  | vouchAssetLegals _ _ _ _ _ run =>
    obtain ⟨-, ⟨⟩⟩ := vouchAssetLegals_eq_ok.mp run
    exact ⟨_, rfl, by simp⟩
  | contributeCapital _ _ _ run =>
    obtain ⟨-, ⟨⟩⟩ := contributeCapital_eq_ok.mp run
    exact ⟨_, rfl, by simp⟩
  | finalizeSuccessfulRaise _ _ _ _ _ run =>
    obtain ⟨-, ⟨⟩⟩ := finalizeSuccessfulRaise_eq_ok.mp run
    exact ⟨_, rfl, by simp⟩
  | abortFailedRaise _ _ _ run =>
    obtain ⟨-, ⟨⟩⟩ := abortFailedRaise_eq_ok.mp run
    exact ⟨_, rfl, by simp⟩
  | refundContribution _ _ _ _ run =>
    obtain ⟨-, ⟨⟩⟩ := refundContribution_eq_ok.mp run
    exact ⟨_, rfl, by simp⟩
  | claimShares _ _ _ _ _ _ _ run =>
    obtain ⟨-, -, -, -, ⟨⟩⟩ := claimShares_eq_ok.mp run
    exact ⟨_, rfl, by simp⟩
  | submitMilestoneProof _ _ _ _ run =>
    obtain ⟨t, -, h⟩ := submitMilestoneProof_eq_ok.mp run
    obtain ⟨-, rfl⟩ := Prod.mk.inj h
    exact ⟨_, rfl, by simp⟩
  | approveMilestone _ _ _ _ _ run =>
    obtain ⟨t, -, h⟩ := approveMilestone_eq_ok.mp run
    obtain ⟨-, rfl⟩ := Prod.mk.inj h
    exact ⟨_, rfl, by simp⟩
  | @releaseFundingTranche _ _ _ asset _ _ _ _ _ _ _ run =>
    obtain ⟨t, -, h⟩ := releaseFundingTranche_eq_ok.mp run
    obtain ⟨-, h⟩ := Prod.mk.inj h
    obtain ⟨-, rfl⟩ := Prod.mk.inj h
    refine ⟨_, rfl, ?_⟩
    -- the last tranche starts the operation of the asset, with an event about its accumulator
    by_cases hlast : asset.nextTranche + 1 = asset.tranches.length
    · cases hg : asset.accumulatorId <;> simp [Asset.trancheEvents, hg, hlast]
    · simp [Asset.trancheEvents, hlast]
  | releaseVouchCoverage => exact .nil rfl
  | flagDefault _ _ _ run =>
    obtain ⟨_, -, h⟩ := flagDefault_eq_ok.mp run
    cases h
    exact ⟨_, rfl, by simp⟩
  | depositRevenue _ _ _ _ _ run =>
    obtain ⟨-, _, -, h⟩ := depositRevenue_eq_ok.mp run
    cases h
    exact ⟨_, rfl, by simp⟩
  | closeAtReturnTarget _ _ _ run =>
    obtain ⟨-, -, h⟩ := closeAtReturnTarget_eq_ok.mp run
    cases h
    exact closing_emits
  | closeAfterCompensation _ _ _ _ run =>
    obtain ⟨-, -, -, h⟩ := closeAfterCompensation_eq_ok.mp run
    cases h
    exact closing_emits
  | closeWindDown _ _ _ _ _ _ _ run =>
    obtain ⟨-, -, -, h⟩ := closeWindDown_eq_ok.mp run
    cases h
    exact closing_emits

/-- An automatic sweep emits sweeps. -/
theorem swept_kind {swept : List Event} (h : AutoSwept acc acc' swept) :
    ∀ e ∈ swept, e.kind = .rolloverSwept := by
  rcases h with ⟨-, h⟩ | ⟨-, -, rfl⟩
  · obtain ⟨-, -, rfl⟩ := sweepRolloverInternal_eq_ok.mp h
    simp
  · simp

/-- The accumulator's calls emit events of their kinds. -/
theorem accumulator_emits {c : AccumulatorCall} (h : AccumulatorStep w sender c w') :
    w.Emits w' c.kinds := by
  cases h with
  | claimRewards _ _ _ _ run =>
    obtain ⟨-, ⟨⟩⟩ := claimRewards_eq_ok.mp run
    exact ⟨_, rfl, by simp⟩
  | sweepRollover _ _ _ run =>
    obtain ⟨-, -, ⟨⟩⟩ := sweepRollover_eq_ok.mp run
    exact ⟨_, rfl, by simp⟩
  | sweepCompensation _ _ _ _ run =>
    obtain ⟨-, -, -, -, rfl⟩ := sweepCompensation_eq_ok.mp run
    exact ⟨_, rfl, by simp⟩
  | wrapShares _ _ _ _ run =>
    obtain ⟨-, ⟨⟩⟩ := wrapShares_eq_ok.mp run
    exact ⟨_, rfl, by simp⟩
  | unwrapCoins _ _ _ _ _ _ run =>
    obtain ⟨-, -, swept, hsweep, rfl⟩ := unwrapCoins_eq_ok.mp run
    -- an unwrap may be preceded by an automatic sweep
    refine ⟨_, rfl, List.forall_mem_append.mpr ⟨fun e he => ?_, ?_⟩⟩
    · rw [swept_kind hsweep e he]
      simp
    · simp
  | redeemShare _ _ _ _ run =>
    obtain ⟨-, ⟨⟩⟩ := redeemShare_eq_ok.mp run
    exact ⟨_, rfl, by simp⟩
  | mergeShares _ _ _ _ _ _ _ run =>
    obtain ⟨-, ⟨⟩⟩ := mergeShares_eq_ok.mp run
    exact ⟨_, rfl, by simp⟩
  | adminSweepDust _ _ _ run =>
    obtain ⟨-, ⟨⟩⟩ := adminSweepDust_eq_ok.mp run
    exact ⟨_, rfl, by simp⟩
  | splitShare => exact .nil rfl

/-- Before its closing event a verdict emits only changes of status and of state. -/
theorem decides_kind {dispute : Dispute} {pool : ValidatorPool} {asset : Asset}
    {config : ProtocolConfig} {now : ℕ} {v : Verdict}
    (h : Decides dispute pool asset acc config now v) :
    ∀ e ∈ v.events, e.kind = .validatorStatusChanged ∨ e.kind = .assetStateChanged := by
  cases h with
  | expired => simp [expiredVerdict]
  | rejected => simp [rejectedVerdict]
  | upheld => by_cases hstate : asset.state = .executing <;> simp [upheldVerdict, hstate]

/-- The court's calls emit events of their kinds. -/
theorem dispute_emits {c : DisputeCall} (h : DisputeStep w sender c w') :
    w.Emits w' c.kinds := by
  cases h with
  | initializeDispute _ _ _ _ _ run =>
    obtain ⟨-, ⟨⟩⟩ := initializeDispute_eq_ok.mp run
    exact ⟨_, rfl, by simp⟩
  | voteOnDispute _ _ _ _ _ run =>
    obtain ⟨-, ⟨⟩⟩ := voteOnDispute_eq_ok.mp run
    exact ⟨_, rfl, by simp⟩
  | resolveDispute _ _ _ _ _ decides =>
    refine ⟨_, rfl, List.forall_mem_append.mpr ⟨fun e he => ?_, ?_⟩⟩
    · rcases decides_kind decides e he with hkind | hkind <;> rw [hkind] <;> simp
    · simp [Verdict.closing]
  | claimJurorReward _ _ _ _ _ _ _ run =>
    obtain ⟨-, -, -, -, ⟨⟩⟩ := claimJurorReward_eq_ok.mp run
    exact ⟨_, rfl, by simp⟩

/-- The setters emit events of their kinds. -/
theorem protocol_emits {c : ProtocolCall} {config : ProtocolConfig} {events : List Event}
    (h : c.run w.config = .ok (config, events)) : ∀ e ∈ events, e.kind ∈ c.kinds := by
  cases c with
  | adminSetDisputeParams new =>
    simp only [ProtocolCall.run, adminSetDisputeParams, seq_eq_ok, return_eq_ok,
      Prod.mk.injEq] at h
    obtain ⟨-, -, -, -, -, -, -, -, -, -, -, -, -, -, -, -, -, rfl⟩ := h
    simp
  | adminSetTreasury =>
    simp only [ProtocolCall.run, adminSetTreasury, seq_eq_ok, return_eq_ok, Prod.mk.injEq] at h
    obtain ⟨-, -, -, rfl⟩ := h
    simp
  | adminEmergencyStop =>
    simp only [ProtocolCall.run, adminEmergencyStop, seq_eq_ok, return_eq_ok, Prod.mk.injEq] at h
    obtain ⟨-, -, -, rfl⟩ := h
    simp
  | adminResume =>
    simp only [ProtocolCall.run, adminResume, seq_eq_ok, return_eq_ok, Prod.mk.injEq] at h
    obtain ⟨-, -, -, rfl⟩ := h
    simp
  | _ =>
    obtain ⟨-, -, heq⟩ := setParam_eq_ok.mp h
    obtain ⟨-, rfl⟩ := Prod.mk.inj heq
    simp

/-- The events of a call are of its kinds. -/
theorem emits {c : Call} (h : w.call sender c = .ok w') : w.Emits w' c.kinds := by
  cases c with
  | protocol c =>
    obtain ⟨-, _, events, hrun, rfl⟩ := World.protocolCall_eq_ok.mp h
    exact ⟨events, rfl, protocol_emits hrun⟩
  | validator c =>
    cases World.validatorCall_eq_ok.mp h with
    | registerValidator _ _ run =>
      obtain ⟨-, ⟨⟩⟩ := registerValidator_eq_ok.mp run
      exact ⟨_, rfl, by simp⟩
    | addStake _ _ _ run =>
      obtain ⟨-, ⟨⟩⟩ := addStake_eq_ok.mp run
      exact ⟨_, rfl, by simp⟩
    | withdrawStake _ _ _ _ run =>
      obtain ⟨-, ⟨⟩⟩ := withdrawStake_eq_ok.mp run
      exact ⟨_, rfl, by simp⟩
  | asset c => exact asset_emits (World.assetCall_eq_ok.mp h)
  | accumulator c => exact accumulator_emits (World.accumulatorCall_eq_ok.mp h)
  | dispute c => exact dispute_emits (World.disputeCall_eq_ok.mp h)
  | framework c =>
    cases World.frameworkCall_eq_ok.mp h <;> exact .nil rfl

/-! ## Topics -/

/-- An event has the topic of its kind. -/
theorem topic_eq (e : Event) : e.topic = e.kind.topic := by
  cases e <;> rfl

/-- A call's kinds have its topic or none. -/
theorem topic_of_kinds {c : Call} : ∀ k ∈ c.kinds, k.topic = .other ∨ k.topic = c.topic := by
  cases c with
  | framework c => exact fun k hk => (nomatch hk)
  | protocol c => cases c <;> simp [EventKind.topic]
  | validator c => cases c <;> simp [EventKind.topic]
  | asset c => cases c <;> simp [EventKind.topic, Call.topic]
  | accumulator c => cases c <;> simp [EventKind.topic, Call.topic]
  | dispute c => cases c <;> simp [EventKind.topic, Call.topic]

/-- The new events are of topic `t` or of none. -/
def Tells (w w' : World) (t : Topic) : Prop :=
  ∃ es, w'.events = w.events ++ es ∧ ∀ e ∈ es, e.topic = .other ∨ e.topic = t

/-- The events of a call are of its topic or of none. -/
theorem topics {c : Call} (h : w.call sender c = .ok w') : w.Tells w' c.topic := by
  obtain ⟨es, hevents, hkinds⟩ := emits h
  exact ⟨es, hevents, fun e he => topic_eq e ▸ topic_of_kinds e.kind (hkinds e he)⟩

/-- An automatic sweep has no topic. -/
theorem swept_topics {swept : List Event} (h : AutoSwept acc acc' swept) :
    ∀ e ∈ swept, e.topic = .other := by
  intro e he
  have hkind := swept_kind h e he
  cases e <;> cases hkind
  rfl

/-- Before its closing event a verdict has no topic. -/
theorem decides_topics {dispute : Dispute} {pool : ValidatorPool} {asset : Asset}
    {config : ProtocolConfig} {now : ℕ} {v : Verdict}
    (h : Decides dispute pool asset acc config now v) : ∀ e ∈ v.events, e.topic = .other := by
  intro e he
  rcases decides_kind h e he with hkind | hkind <;> cases e <;> cases hkind <;> rfl

end World

end Gally
