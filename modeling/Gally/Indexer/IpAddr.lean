import Gally.Contract.Move
import Mathlib.Data.List.Basic

/-!
# IP addresses (`std::net::IpAddr`)

The addresses and their parser. A reader returns the value and the rest of the input; after `none`
the caller continues with the input it had.
-/

namespace Gally.Indexer

/-- `char::to_digit`, for a radix up to 16. -/
def toDigit (radix : ℕ) (c : Char) : Option ℕ :=
  let value :=
    if '0' ≤ c ∧ c ≤ '9' then some (c.toNat - '0'.toNat)
    else if 'a' ≤ c ∧ c ≤ 'f' then some (c.toNat - 'a'.toNat + 10)
    else if 'A' ≤ c ∧ c ≤ 'F' then some (c.toNat - 'A'.toNat + 10)
    else none
  value.filter fun d => d < radix

inductive IpAddr where
  | v4 (bits : BitVec 32)
  | v6 (bits : BitVec 128)
  deriving DecidableEq, Repr

namespace IpAddr

/-- The address with the given parts, the first one highest. -/
def joined (width parts : ℕ) (groups : List ℕ) : BitVec (width * parts) :=
  BitVec.ofNat _ (groups.foldl (fun bits group => bits * 2 ^ width + group) 0)

/-- A number below `bound` with at most `maxDigits` digits. -/
def readNumber (radix maxDigits bound : ℕ) (allowZeroPrefix : Bool) (cs : List Char) :
    Option (ℕ × List Char) :=
  let digits := cs.takeWhile fun c => (toDigit radix c).isSome
  let value := (digits.filterMap (toDigit radix)).foldl (fun n d => n * radix + d) 0
  let hasLeadingZero := cs.head? = some '0'
  if digits.length = 0 ∨ maxDigits < digits.length then none
  else if !allowZeroPrefix ∧ hasLeadingZero ∧ 1 < digits.length then none
  else if value < bound then some (value, cs.drop digits.length)
  else none

/-- The separator, except before the first part, and the part. -/
def readSeparator {α : Type} (separator : Char) (index : ℕ)
    (inner : List Char → Option (α × List Char)) (cs : List Char) : Option (α × List Char) :=
  if index = 0 then inner cs
  else
    match cs with
    | c :: rest => if c = separator then inner rest else none
    | [] => none

/-- The octets from number `index` on, `count` of them. -/
def readOctets : (count index : ℕ) → List Char → Option (List ℕ × List Char)
  | 0, _, cs => some ([], cs)
  | count + 1, index, cs => do
    let (octet, rest) ← readSeparator '.' index (readNumber 10 3 256 false) cs
    let (octets, rest) ← readOctets count (index + 1) rest
    return (octet :: octets, rest)

def readIpv4Addr (cs : List Char) : Option (List ℕ × List Char) := readOctets 4 0 cs

/-- The 16-bit groups from number `index` on, at most `count` of them, and whether they end with
    an IPv4 address, which takes the place of two. -/
def readGroups : (count index : ℕ) → List Char → List ℕ × Bool × List Char
  | 0, _, cs => ([], false, cs)
  | count + 1, index, cs =>
    match if 1 ≤ count then readSeparator ':' index readIpv4Addr cs else none with
    | some ([one, two, three, four], rest) =>
      ([one * 256 + two, three * 256 + four], true, rest)
    | _ =>
      match readSeparator ':' index (readNumber 16 4 65536 true) cs with
      | some (group, rest) =>
        let (groups, ipv4, rest) := readGroups count (index + 1) rest
        (group :: groups, ipv4, rest)
      | none => ([], false, cs)

/-- Eight groups, or fewer around `::`, which stands for at least one. -/
def readIpv6Addr (cs : List Char) : Option (List ℕ × List Char) :=
  let (head, headIpv4, rest) := readGroups 8 0 cs
  if head.length = 8 then some (head, rest)
  else if headIpv4 then none
  else
    match rest with
    | ':' :: ':' :: rest =>
      let (tail, _, rest) := readGroups (7 - head.length) 0 rest
      some (head ++ List.replicate (8 - head.length - tail.length) 0 ++ tail, rest)
    | _ => none

/-- `s.parse()` -/
def parse (cs : List Char) : Option IpAddr :=
  let ipv4 := (readIpv4Addr cs).map fun (octets, rest) => (v4 (joined 8 4 octets), rest)
  let ipv6 := (readIpv6Addr cs).map fun (groups, rest) => (v6 (joined 16 8 groups), rest)
  match ipv4.or ipv6 with
  | some (ip, []) => some ip
  | _ => none

/-- `Ipv4Addr::UNSPECIFIED` -/
def unspecified : IpAddr := v4 0

end IpAddr

end Gally.Indexer
