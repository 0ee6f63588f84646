import Gally.Contract.Move

/-!
# The digital deed (`share.move`)

`GallyShare` is the deed: yield owed on it is always
`(global index - yieldClaimedIndex) * shareCount`, so the snapshot is its entire
claim-accounting state.
-/

namespace Gally

open Checked

def eInvalidSplitAmount : Abort := .code .share 505

/-- Fractional ownership deed: 1 share == 1 USDC of original principal. -/
structure GallyShare where
  id : ID
  assetId : ID
  shareCount : ℕ
  /-- personal snapshot of the global index -/
  yieldClaimedIndex : ℕ
  /-- enforces the wrap cooldown -/
  acquiredAtMs : ℕ
  deriving DecidableEq, Repr

/-- Splits `amount` off into a new share with the parent's snapshot and
    acquisition time. -/
def splitShare (share : GallyShare) (amount : ℕ) (newId : ID) :
    Except Abort (GallyShare × GallyShare) := do
  ensure (0 < amount ∧ amount < share.shareCount) eInvalidSplitAmount
  let rest ← sub share.shareCount amount
  return ({ share with shareCount := rest },
    { share with id := newId, shareCount := amount })

/-- A successful split divides the count and copies everything else. -/
theorem splitShare_eq_ok {share parent child : GallyShare} {amount : ℕ} {newId : ID} :
    splitShare share amount newId = .ok (parent, child) ↔
      0 < amount ∧ amount < share.shareCount ∧
      parent = { share with shareCount := share.shareCount - amount } ∧
      child = { share with id := newId, shareCount := amount } := by
  simp only [splitShare, seq_eq_ok, ensure_eq_ok, sub_eq_ok, return_eq_ok, Prod.mk.injEq]
  constructor
  · rintro ⟨-, ⟨h0, h1⟩, _, ⟨-, rfl⟩, rfl, rfl⟩
    exact ⟨h0, h1, rfl, rfl⟩
  · rintro ⟨h0, h1, rfl, rfl⟩
    exact ⟨(), ⟨h0, h1⟩, _, ⟨Nat.le_of_lt h1, rfl⟩, rfl, rfl⟩

end Gally
