/-
  ProfileMigration.Net.Network

  Addresses with a prefix length. The bits behind the prefix are kept, so a network also
  names the host it was written with.

    Network                     -- address and length, of either family
    Net.mask                    -- the word of a prefix length
    Net.leadingOnes / trailingZeros
    Net.maskLength?             -- the length of a contiguous mask
    Network.base                -- the address with the bits behind the prefix cleared
    Network.Contains            -- which addresses it stands for
    Network.ofText? / text      -- `address/length`
    parseAddress?               -- `address`, `address/length` or `address mask`

  `parseAddress?` models `parse_address`, and `maskLength?` models `mask_to_prefix_len`.
-/
import ProfileMigration.Net.Address

namespace ProfileMigration

/-- An address with a prefix length of its family. -/
inductive Network where
  | v4 (address : BitVec 32) (length : Fin 33)
  | v6 (address : BitVec 128) (length : Fin 129)
deriving DecidableEq, Repr

namespace Net

/-- The mask with a given number of leading ones. -/
def mask (width length : Nat) : BitVec width :=
  ~~~(BitVec.allOnes width >>> length)

/-- The number of ones before the first zero of a word. -/
def leadingOnes (m : BitVec 32) : Nat := (~~~m).clz.toNat

/-- The number of zeros behind the last one of a word. -/
def trailingZeros (m : BitVec 32) : Nat := m.ctz.toNat

/-- The number of leading ones of a mask that has nothing but zeros behind them. -/
def maskLength? (m : BitVec 32) : Option (Fin 33) :=
  if h : leadingOnes m + trailingZeros m = 32 then some ⟨leadingOnes m, by omega⟩ else none

end Net

namespace Network

/-- The prefix length. -/
def length : Network → Nat
  | v4 _ n => n
  | v6 _ n => n

/-- The address with the bits behind the prefix cleared. -/
def base : Network → IpAddress
  | v4 a n => .v4 (a &&& Net.mask 32 n)
  | v6 a n => .v6 (a &&& Net.mask 128 n)

/-- A network stands for the addresses of its family that share its prefix. -/
def Contains : Network → IpAddress → Prop
  | v4 a n, .v4 b => a &&& Net.mask 32 n = b &&& Net.mask 32 n
  | v6 a n, .v6 b => a &&& Net.mask 128 n = b &&& Net.mask 128 n
  | _, _ => False

/-- The network of one address. -/
def single : IpAddress → Network
  | .v4 a => v4 a 32
  | .v6 a => v6 a 128

/-- Whether the network is of the newer family. -/
def isV6 : Network → Bool
  | v4 .. => false
  | v6 .. => true

/-- The text `address/length`. -/
def text : Network → String
  | v4 a n => s!"{Net.ipv4Text a}/{n.val}"
  | v6 a n => s!"{Net.ipv6Text a}/{n.val}"

/-- A prefix length: at most so many digits, below a bound. -/
def length? (bound digits : Nat) (cs : List Char) : Option (Fin bound) :=
  if h : cs ≠ [] ∧ cs.all Char.isDigit ∧ cs.length ≤ digits ∧ Decimal.digitsValue cs < bound then
    some ⟨Decimal.digitsValue cs, h.2.2.2⟩
  else none

/-- An address, a slash and a prefix length. -/
def ofText? (s : String) : Option Network :=
  match Text.splitBy (· = '/') s.toList with
  | [address, length] =>
    match Net.ipv4OfText? .lenient address with
    | some a => (length? 33 2 length).map (v4 a)
    | none => do
      let a ← Net.ipv6OfText? .lenient address
      let n ← length? 129 3 length
      return v6 a n
  | _ => none

end Network

namespace Net

/-- What a text of an address, a network, or an address and its mask denotes. -/
inductive AddressForm where
  | address (a : IpAddress)
  | network (n : Network)
deriving DecidableEq, Repr

/-- A dotted address and a contiguous mask, as two words. -/
def addressWithMask? (s : String) : Option Network :=
  match Text.words s with
  | [address, m] => do
    let a ← ipv4OfText? .strict address
    let n ← maskLength? (← ipv4OfText? .strict m)
    return .v4 a n
  | _ => none

/-- Reads `address`, `address/length` or `address mask`, blanks around it ignored. -/
def parseAddress? (s : String) : Option AddressForm :=
  let body := Text.trim s
  match IpAddress.ofText? body with
  | some a => some (.address a)
  | none => match Network.ofText? body with
    | some n => some (.network n)
    | none => (addressWithMask? body).map .network

end Net

end ProfileMigration
