/-
  ProfileMigration.Net.Address

  Internet addresses of both families and their texts:

    IpAddress           -- 32 or 128 bits
    AddressRules        -- the two dialects of address text
    ipv4OfText? / ipv6OfText?
    ipv4Text / ipv6Text -- the longest run of zero groups is compressed
    IpAddress.ofText? / text

  `parse_address`, `infer_str` and the reading of a `Literal` take addresses from this.
-/
import ProfileMigration.Numeric.Decimal
import ProfileMigration.Text.Blank
import ProfileMigration.Text.Hex

namespace ProfileMigration

/-- An address of either family. -/
inductive IpAddress where
  | v4 (bits : BitVec 32)
  | v6 (bits : BitVec 128)
deriving DecidableEq, Repr

namespace Net

/-- What a dialect of address text allows beyond the common form. -/
structure AddressRules where
  /-- Octets of dotted addresses may start with zeros. -/
  leadingZeros : Bool
  /-- The double colon may stand for no group at all, as long as a group follows it. -/
  emptyGap : Bool
deriving DecidableEq

/-- Addresses on their own. -/
def AddressRules.strict : AddressRules := ⟨false, false⟩

/-- Addresses in front of a prefix length. -/
def AddressRules.lenient : AddressRules := ⟨true, true⟩

/-! ## Reading -/

/-- An octet: one to three digits, below 256. -/
def octet? (rules : AddressRules) (cs : List Char) : Option Nat :=
  let n := Decimal.digitsValue cs
  if cs ≠ [] ∧ cs.all Char.isDigit ∧ cs.length ≤ 3 ∧ n < 256 ∧
      (rules.leadingZeros ∨ cs.length = 1 ∨ cs.head? ≠ some '0') then some n
  else none

/-- Four octets between points. -/
def octets? (rules : AddressRules) (cs : List Char) : Option (Nat × Nat × Nat × Nat) :=
  match (Text.splitBy (· = '.') cs).mapM (octet? rules) with
  | some [a, b, c, d] => some (a, b, c, d)
  | _ => none

/-- A dotted address. -/
def ipv4OfText? (rules : AddressRules) (cs : List Char) : Option (BitVec 32) :=
  (octets? rules cs).map fun (a, b, c, d) =>
    BitVec.ofNat 32 (((a * 256 + b) * 256 + c) * 256 + d)

/-- A group: one to four hexadecimal digits. -/
def group? (cs : List Char) : Option Nat :=
  if cs ≠ [] ∧ cs.length ≤ 4 then
    (cs.mapM Text.hexValue?).map (·.foldl (fun n d => 16 * n + d) 0)
  else none

/-- The groups of a list of pieces; the last piece may be a dotted address, which stands for
    two groups. -/
def groups? (rules : AddressRules) : List (List Char) → Option (List Nat)
  | [] => some []
  | [piece] =>
    match octets? rules piece with
    | some (a, b, c, d) => some [a * 256 + b, c * 256 + d]
    | none => (group? piece).map ([·])
  | piece :: pieces => do return (← group? piece) :: (← groups? rules pieces)

/-- The pieces between colons; no text has no pieces. -/
def pieces (cs : List Char) : List (List Char) :=
  if cs = [] then [] else Text.splitBy (· = ':') cs

/-- The parts before and after the first double colon. -/
def cutAtGap : List Char → Option (List Char × List Char)
  | ':' :: ':' :: rest => some ([], rest)
  | c :: rest => (cutAtGap rest).map fun (before, after) => (c :: before, after)
  | [] => none

/-- The address with eight given groups. -/
def ipv6OfGroups (groups : List Nat) : BitVec 128 :=
  BitVec.ofNat 128 (groups.foldl (fun n g => 65536 * n + g) 0)

/-- Eight groups, or groups around one double colon that stands for the missing zeros; eight
    groups in front of it leave it nothing to stand before. A dotted address may only end the
    text. -/
def ipv6OfText? (rules : AddressRules) (cs : List Char) : Option (BitVec 128) :=
  match cutAtGap cs with
  | none => do
    let groups ← groups? rules (pieces cs)
    if groups.length = 8 then some (ipv6OfGroups groups) else none
  | some (before, after) => do
    let front ← (pieces before).mapM group?
    let back ← groups? rules (pieces after)
    -- Before the gap stand groups only; a dotted address may end the part after it
    let missing := 8 - (front.length + back.length)
    if front.length < 8 ∧ front.length + back.length ≤ 8 ∧ (rules.emptyGap ∨ 0 < missing) then
      some (ipv6OfGroups (front ++ List.replicate missing 0 ++ back))
    else none

/-! ## Writing -/

/-- The dotted text of an address. -/
def ipv4Text (a : BitVec 32) : String :=
  let n := a.toNat
  s!"{n >>> 24}.{n >>> 16 % 256}.{n >>> 8 % 256}.{n % 256}"

/-- The eight groups of an address, first group first. -/
def ipv6Groups (a : BitVec 128) : List Nat :=
  (List.range 8).map fun i => a.toNat >>> (16 * (7 - i)) % 65536

/-- The length of the run of zeros at the head of a list. -/
def zerosAtHead (groups : List Nat) : Nat := (groups.takeWhile (· = 0)).length

/-- The place and length of the first of the longest runs of zeros. -/
def longestZeros (groups : List Nat) : Nat × Nat :=
  (List.range groups.length).foldl
    (fun best i =>
      let run := zerosAtHead (groups.drop i)
      if best.2 < run then (i, run) else best) (0, 0)

/-- Groups in hexadecimal between colons. -/
def groupsText (groups : List Nat) : String :=
  String.intercalate ":" (groups.map fun g => String.ofList (Nat.toDigits 16 g))

/-- The text of an address: an embedded dotted address is shown as such, otherwise the first
    longest run of at least two zero groups becomes a double colon. -/
def ipv6Text (a : BitVec 128) : String :=
  if a.toNat >>> 32 = 0xffff then "::ffff:" ++ ipv4Text (a.setWidth 32)
  else
    let groups := ipv6Groups a
    let (start, length) := longestZeros groups
    if 1 < length then
      groupsText (groups.take start) ++ "::" ++ groupsText (groups.drop (start + length))
    else groupsText groups

end Net

namespace IpAddress

/-- An address of either family in the given dialect. -/
def ofTextWith? (rules : Net.AddressRules) (cs : List Char) : Option IpAddress :=
  match Net.ipv4OfText? rules cs with
  | some a => some (.v4 a)
  | none => (Net.ipv6OfText? rules cs).map .v6

/-- An address of either family, with nothing around it. -/
def ofText? (s : String) : Option IpAddress := ofTextWith? .strict s.toList

/-- The text of an address. -/
def text : IpAddress → String
  | v4 a => Net.ipv4Text a
  | v6 a => Net.ipv6Text a

end IpAddress

end ProfileMigration
