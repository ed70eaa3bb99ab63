/-
  ProfileMigration.Identity.Uuid

  Universally unique identifiers:

    Uuid            -- 128 bits
    Uuid.text       -- lower-case hexadecimal in groups of 8, 4, 4, 4 and 12
    Uuid.ofText?    -- that form, plain digits, braces, or `urn:uuid:`, any case of digits
    Uuid.named      -- the identifier of a name in a name space, by SHA-1

  `generated_id` makes version 5 identifiers of names; `object_id` and `created_id` read
  identifiers.
-/
import ProfileMigration.Identity.Sha1
import ProfileMigration.Text.Hex

namespace ProfileMigration

/-- A universally unique identifier. -/
structure Uuid where
  bits : BitVec 128
deriving DecidableEq, Repr

namespace Uuid

/-! ## Writing -/

/-- The thirty-two hexadecimal digits, most significant first. -/
def digits (id : Uuid) : List Char :=
  (List.range 32).map fun i => Text.hexDigit (id.bits.toNat >>> (4 * (31 - i)) % 16)

/-- The hyphenated text. -/
def text (id : Uuid) : String :=
  let ds := id.digits
  String.ofList (ds.take 8 ++ '-' :: (ds.drop 8).take 4 ++ '-' :: (ds.drop 12).take 4 ++
    '-' :: (ds.drop 16).take 4 ++ '-' :: ds.drop 20)

/-! ## Reading -/

/-- Thirty-two hexadecimal digits. -/
def ofDigits? (cs : List Char) : Option Uuid :=
  if cs.length = 32 then
    (cs.mapM Text.hexValue?).map fun vs => ⟨BitVec.ofNat 128 (vs.foldl (fun n v => 16 * n + v) 0)⟩
  else none

/-- Thirty-six characters with hyphens at the four places between groups. -/
def ofHyphenated? (cs : List Char) : Option Uuid :=
  if cs.length = 36 ∧ cs[8]? = some '-' ∧ cs[13]? = some '-' ∧ cs[18]? = some '-' ∧
      cs[23]? = some '-' then
    ofDigits? (cs.take 8 ++ (cs.drop 9).take 4 ++ (cs.drop 14).take 4 ++ (cs.drop 19).take 4 ++
      cs.drop 24)
  else none

/-- What stands in front of an identifier written as a resource name. -/
def resourceMark : List Char := ['u', 'r', 'n', ':', 'u', 'u', 'i', 'd', ':']

/-- Any of the four written forms; braces and the resource mark go around the hyphenated form
    only. -/
def ofChars? (cs : List Char) : Option Uuid :=
  match ofDigits? cs with
  | some id => some id
  | none =>
    match ofHyphenated? cs with
    | some id => some id
    | none =>
      if cs.head? = some '\x7b' ∧ cs.getLast? = some '\x7d' then
        ofHyphenated? (cs.drop 1).dropLast
      else if (cs.take 9).map Char.toLower = resourceMark then ofHyphenated? (cs.drop 9)
      else none

/-- Reads an identifier from text. -/
def ofText? (s : String) : Option Uuid := ofChars? s.toList

/-! ## Names -/

/-- The sixteen bytes, most significant first. -/
def bytes (id : Uuid) : List UInt8 := Sha1.bigEndian 16 id.bits.toNat

/-- Reads bytes, most significant first. -/
def ofBytes (bs : List UInt8) : Uuid :=
  ⟨BitVec.ofNat 128 (bs.foldl (fun n b => 256 * n + b.toNat) 0)⟩

/-- Marks an identifier as made from a name by SHA-1: version five, the standard variant. -/
def stamped (id : Uuid) : Uuid :=
  -- Bits 76 to 79 hold the version, bits 62 and 63 the variant
  ⟨(id.bits &&& ~~~(0xf#128 <<< 76) &&& ~~~(0x3#128 <<< 62)) ||| (0x5#128 <<< 76) |||
    (0x2#128 <<< 62)⟩

/-- The identifier of a name in a name space: the first sixteen bytes of the digest of both,
    stamped. -/
def named (space : Uuid) (name : String) : Uuid :=
  (ofBytes ((Sha1.digest (space.bytes ++ name.toUTF8.toList)).take 16)).stamped

end Uuid

end ProfileMigration
