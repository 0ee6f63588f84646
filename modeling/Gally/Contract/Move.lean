import Gally.Library.Checked
import Mathlib.Algebra.GroupWithZero.Nat
import Mathlib.Data.Nat.Notation

/-!
# Move and Sui primitives

The types and operations the contracts take from the Move language and the Sui
framework: object IDs, addresses, checked integer arithmetic, balances and coins.
Machine integers are natural numbers; the operations that abort on overflow or
underflow in Move carry the check (`add64`, `sub`, `mul128`, ...). A
`Balance<USDC>` or `Coin<USDC>` is the number of raw units it holds.
-/

namespace Gally

open Checked

/-- A Sui object ID. -/
abbrev ID := ℕ

/-- A Sui account address. -/
abbrev Address := ℕ

/-- A `vector<u8>`. -/
abbrev Bytes := List UInt8

/-- The type tag of an entity token witness `T`. -/
abbrev TypeTag := ℕ

/-- A `u64` argument of a call. -/
abbrev U64 := Fin (2 ^ 64)

instance U64.neZero : NeZero (2 ^ 64) := ⟨by decide⟩

/-- `u64::MAX`. -/
@[irreducible] def maxU64 : ℕ := 18446744073709551615

/-- `u128::MAX`. -/
@[irreducible] def maxU128 : ℕ := 340282366920938463463374607431768211455

/-- The module an abort code belongs to. -/
inductive Module where
  | protocol | share | validator | accumulator | asset | dispute
  deriving DecidableEq, Repr

/-- Why a transaction aborts: an `assert!` of one of the modules, the virtual
    machine, the framework, or the rules about which objects a transaction may
    use. -/
inductive Abort where
  /-- `assert!(_, code)` in module `m` -/
  | code (m : Module) (code : ℕ)
  /-- integer overflow, underflow or division by zero -/
  | arithmetic
  /-- vector index out of bounds, or `borrow` of an empty option -/
  | outOfBounds
  /-- `balance::split` of more than the balance holds -/
  | notEnough
  /-- `balance::increase_supply` beyond what a `u64` can count -/
  | supplyOverflow
  /-- `dynamic_field::add` under a key that is taken -/
  | fieldExists
  /-- the object does not exist -/
  | noObject
  /-- the sender does not own the object -/
  | notOwner
  /-- one object passed for two arguments that must differ -/
  | sameObject
  /-- an object of another token type than the call needs -/
  | typeMismatch
  /-- `coin::destroy_zero` of a coin that is not zero -/
  | nonZero
  /-- the clock never runs backwards -/
  | clockBackwards
  deriving DecidableEq, Repr

/-- Checked `u64` addition. -/
def add64 (a b : ℕ) : Except Abort ℕ := guarded (a + b ≤ maxU64) .arithmetic (a + b)

/-- Checked `u128` addition. -/
def add128 (a b : ℕ) : Except Abort ℕ := guarded (a + b ≤ maxU128) .arithmetic (a + b)

/-- Checked subtraction. -/
def sub (a b : ℕ) : Except Abort ℕ := guarded (b ≤ a) .arithmetic (a - b)

/-- Checked `u128` multiplication. -/
def mul128 (a b : ℕ) : Except Abort ℕ := guarded (a * b ≤ maxU128) .arithmetic (a * b)

/-- Division, which aborts on a zero divisor. -/
def div (a b : ℕ) : Except Abort ℕ := guarded (b ≠ 0) .arithmetic (a / b)

/-- `v as u64` of a `u128`. -/
def cast64 (v : ℕ) : Except Abort ℕ := guarded (v ≤ maxU64) .arithmetic v

/-- `balance::split` and `coin::take`: what is left after taking out `amount`. -/
def takeOut (balance amount : ℕ) : Except Abort ℕ :=
  guarded (amount ≤ balance) .notEnough (balance - amount)

@[simp] theorem add64_eq_ok {a b r : ℕ} : add64 a b = .ok r ↔ a + b ≤ maxU64 ∧ a + b = r :=
  guarded_eq_ok

@[simp] theorem add128_eq_ok {a b r : ℕ} : add128 a b = .ok r ↔ a + b ≤ maxU128 ∧ a + b = r :=
  guarded_eq_ok

@[simp] theorem sub_eq_ok {a b r : ℕ} : sub a b = .ok r ↔ b ≤ a ∧ a - b = r :=
  guarded_eq_ok

@[simp] theorem mul128_eq_ok {a b r : ℕ} : mul128 a b = .ok r ↔ a * b ≤ maxU128 ∧ a * b = r :=
  guarded_eq_ok

@[simp] theorem div_eq_ok {a b r : ℕ} : div a b = .ok r ↔ b ≠ 0 ∧ a / b = r :=
  guarded_eq_ok

@[simp] theorem cast64_eq_ok {v r : ℕ} : cast64 v = .ok r ↔ v ≤ maxU64 ∧ v = r :=
  guarded_eq_ok

@[simp] theorem takeOut_eq_ok {b a r : ℕ} : takeOut b a = .ok r ↔ a ≤ b ∧ b - a = r :=
  guarded_eq_ok

/-- Basis-point denominator: 10_000 bps == 100%. -/
def bpsDenominator : ℕ := 10000

/-- `amount * bps / 10_000` in `u128`, cast back to `u64`. -/
def mulBps (amount bps : ℕ) : Except Abort ℕ := cast64 (amount * bps / bpsDenominator)

/-- A share of basis points is returned exactly when it fits. -/
@[simp] theorem mulBps_eq_ok {amount bps r : ℕ} :
    mulBps amount bps = .ok r ↔
      amount * bps / bpsDenominator ≤ maxU64 ∧ amount * bps / bpsDenominator = r :=
  cast64_eq_ok

/-- A share of at most 100% is at most the whole. -/
theorem mulBps_le {amount bps : ℕ} (h : bps ≤ bpsDenominator) :
    amount * bps / bpsDenominator ≤ amount := by
  apply Nat.div_le_of_le_mul
  rw [Nat.mul_comm bpsDenominator]
  exact Nat.mul_le_mul_left amount h

/-- USDC sent to addresses inside a call (`transfer::public_transfer`). -/
abbrev Transfers := List (Address × ℕ)

/-- Sole mint/burn authority for `Coin<T>`; `totalSupply` is minted minus burned. -/
structure TreasuryCap where
  token : TypeTag
  totalSupply : ℕ
  deriving DecidableEq, Repr

/-- The decimals recorded in `CoinMetadata<T>`. -/
structure CoinMetadata where
  token : TypeTag
  decimals : ℕ
  deriving DecidableEq, Repr

/-- `coin::mint`: the framework refuses a supply of `u64::MAX` or more. -/
def TreasuryCap.mint (cap : TreasuryCap) (value : ℕ) : Except Abort TreasuryCap :=
  guarded (value < maxU64 - cap.totalSupply) .supplyOverflow
    { cap with totalSupply := cap.totalSupply + value }

/-- `coin::burn`. -/
def TreasuryCap.burn (cap : TreasuryCap) (value : ℕ) : Except Abort TreasuryCap :=
  guarded (value ≤ cap.totalSupply) .supplyOverflow
    { cap with totalSupply := cap.totalSupply - value }

/-- A cap mints exactly while the supply stays below the largest `u64`. -/
@[simp] theorem TreasuryCap.mint_eq_ok {cap cap' : TreasuryCap} {v : ℕ} :
    cap.mint v = .ok cap' ↔
      v < maxU64 - cap.totalSupply ∧ { cap with totalSupply := cap.totalSupply + v } = cap' :=
  guarded_eq_ok

/-- A cap burns exactly what is in circulation. -/
@[simp] theorem TreasuryCap.burn_eq_ok {cap cap' : TreasuryCap} {v : ℕ} :
    cap.burn v = .ok cap' ↔
      v ≤ cap.totalSupply ∧ { cap with totalSupply := cap.totalSupply - v } = cap' :=
  guarded_eq_ok

end Gally
