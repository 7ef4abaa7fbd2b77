import GoQuarkChain.Lib.SortedMap
import GoQuarkChain.Serialize.Serializer

/-!
# Token balance maps and their wire encoding

`TokenBalances` wraps a Go `map[uint64]*big.Int`. A token written with balance
zero is still a key of the map, which is why the map is a `SortedMap` and not
a finitely supported function. `Serialize` writes every key in increasing
order through the package codec; `Deserialize` reads them back and skips the
zero balances.
-/

namespace Types

open Serialize

/-- `TokenBalances`, its balance map; `Enum` is not read by the code modelled here. -/
structure TokenBalances where
  balances : SortedMap Nat Int
deriving DecidableEq

/-- `NewTokenBalancesWithMap`. -/
def newTokenBalancesWithMap (data : SortedMap Nat Int) : TokenBalances := ⟨data⟩

/-- `TokenBalances.Add`: add each balance of `other` to the same token's entry,
creating the entry when it is missing. -/
def TokenBalances.add (b : TokenBalances) (other : SortedMap Nat Int) : TokenBalances :=
  ⟨b.balances.mergeWith (fun v data => v + data) other⟩

/-- `GetTokenBalance`: missing tokens read as zero. -/
def TokenBalances.getTokenBalance (b : TokenBalances) (tokenID : Nat) : Int :=
  (b.balances.get? tokenID).getD 0

/-- The entries loop of `TokenBalances.Serialize`: each key as a `*big.Int`, then
its balance. -/
def serializeEntries : List (Nat × Int) → Except String (List UInt8)
  | [] => .ok []
  | (key, v) :: rest => do
    let keyBytes ← serialize (.ptr .bigInt) (.ptr (some (.bigInt key)))
    let valueBytes ← serialize (.ptr .bigInt) (.ptr (some (.bigInt v)))
    let tail ← serializeEntries rest
    return keyBytes ++ valueBytes ++ tail

/-- `TokenBalances.Serialize`: the key count as a `uint32`, then every entry. -/
def TokenBalances.serialize (b : TokenBalances) : Except String (List UInt8) := do
  let num := b.balances.entries.length % 2 ^ 32
  let numBytes ← Serialize.serialize (.uint .uint32) (.uint num)
  let entries ← serializeEntries b.balances.entries
  return numBytes ++ entries

/-- A decoded `*big.Int`, as `Deserialize(bb, k)` leaves it. -/
def deserializeBigIntValue : Decoder Int := do
  let v ← deserializer .bigInt {}
  match v with
  | .bigInt i => return i
  | _ => throw errTypeMismatch

/-- The entries loop of `TokenBalances.Deserialize`; a zero balance is skipped. -/
def deserializeEntries : Nat → SortedMap Nat Int → Decoder (SortedMap Nat Int)
  | 0, acc => pure acc
  | n + 1, acc => do
    let k ← deserializeBigIntValue
    let v ← deserializeBigIntValue
    if v = 0 then deserializeEntries n acc
    else deserializeEntries n (acc.insert (k.toNat % 2 ^ 64) v)

/-- `TokenBalances.Deserialize`. -/
def TokenBalances.deserialize : Decoder TokenBalances := do
  let num ← getUInt 4
  let balances ← deserializeEntries num SortedMap.empty
  return ⟨balances⟩

/-- The coinbase amount of a block that charged a zero fee in a second token:
`getCoinbaseAmount`'s map `{0: 5}` after `Add` of the block fee `{1: 0}`. Its
encoding keeps the zero entry; decoding drops it, and the decoded map encodes
to other bytes, so a header carrying it hashes differently after a round trip. -/
theorem tokenBalances_zero_fee_roundtrip_differs :
    ((newTokenBalancesWithMap (SortedMap.empty.insert 0 5)).add
        (SortedMap.empty.insert 1 0)).balances.get? 1 = some 0 ∧
      (do
        let w ← ((newTokenBalancesWithMap (SortedMap.empty.insert 0 5)).add
          (SortedMap.empty.insert 1 0)).serialize
        let (b', _) ← TokenBalances.deserialize.run (newByteBuffer w)
        return (b'.balances.get? 1, b'.serialize, w)) =
        .ok (none, .ok [0, 0, 0, 1, 0, 1, 5], [0, 0, 0, 2, 0, 1, 5, 1, 1, 0]) := by
  constructor
  · rfl
  · rfl

end Types
