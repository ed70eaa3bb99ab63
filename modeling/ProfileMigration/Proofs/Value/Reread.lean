/-
  ProfileMigration.Proofs.Value.Reread

  Values read back from their wire form:

    Json.isStable / Literal.isStable    -- what is written again as it was read
    Literal.isStable_iff                -- that this is exactly what they say
    TypedValue.reread                   -- the value that the wire form of another reads as
    TypedValue.ofJsonWith?_toJson       -- every wire form reads as a value
    TypedValue.objectId?_reread         -- which refers to the same object
    TypedValue.toJson_reread            -- and is written as before if its literal is stable

  A text is not stable if it reads as an address that is spelled in another way, and an integer
  is not if only a double can hold it.
-/
import ProfileMigration.Proofs.Net.AddressText
import ProfileMigration.Value.Typed

namespace ProfileMigration

/-! ## Literals -/

/-- A number that literals hold as it is: a double, or a signed 64-bit integer. -/
def Number.isStable : Number → Bool
  | .int n => n.val ≤ Int64.maxValue.toInt
  | .float .. => true

/-- A text that is written as before when what it reads as is written. -/
def Literal.isSpelled (s : String) : Bool := (Literal.ofText s).text = s

mutual

/-- A value that is written as before when it has been read as a literal. -/
def Json.isStable : Json → Bool
  | .null | .bool _ => true
  | .num n => n.isStable
  | .str s => Literal.isSpelled s
  | .arr elements => Json.areStable elements
  | .obj members => (Json.obj members).canonical = .obj members

/-- All values of a list are written as before. -/
def Json.areStable : List Json → Bool
  | [] => true
  | j :: rest => Json.isStable j && Json.areStable rest

end

namespace Literal

mutual

/-- A literal that is written as before when it has been read back. -/
def isStable : Literal → Bool
  | .bool _ | .int _ | .float _ | .address _ | .network _ => true
  | .str s => isSpelled s
  | .list items => areStable items
  | .raw j => j.isStable

/-- All literals of a list are written as before. -/
def areStable : List Literal → Bool
  | [] => true
  | l :: rest => isStable l && areStable rest

end

theorem ofText_text_address (a : IpAddress) : ofText a.text = .address a := by
  rw [ofText, IpAddress.ofText?_text]

theorem ofText_text_network (n : Network) : ofText n.text = .network n := by
  rw [ofText, IpAddress.ofText?_text_network]
  dsimp only
  rw [Network.ofText?_text]

/-- What a text reads as is written as its text. -/
theorem toJson_ofText (s : String) : (ofText s).toJson = .str (ofText s).text := by
  rw [ofText]
  split
  · rw [toJson, text]
  · split <;> rw [toJson, text]

theorem isSpelled_iff {s : String} : isSpelled s = true ↔ (ofText s).toJson = .str s := by
  rw [isSpelled, decide_eq_true_iff, toJson_ofText, Json.str.injEq]

theorem isStable_number_iff {n : Number} : n.isStable = true ↔ (ofNumber n).toJson = .num n := by
  cases n with
  | float x finite =>
    have hread : (ofNumber (.float x finite)).toJson = .num (.float x finite) := by
      rw [ofNumber, Number.toInt64?, toJson, Number.toBinary64, Json.ofBinary64,
        Number.ofBinary64?, dif_pos finite]
    exact iff_of_true rfl hread
  | int n =>
    obtain ⟨val, lower, upper⟩ := n
    have hmin : Int64.minValue.toInt = -2 ^ 63 := by decide
    have hmax : Int64.maxValue.toInt = 2 ^ 63 - 1 := by decide
    rw [Number.isStable, decide_eq_true_iff, ofNumber, Number.toInt64?]
    by_cases hval : val ≤ Int64.maxValue.toInt
    · have hint : (Int64.ofInt val).toInt = val :=
        Int64.toInt_ofInt_of_le (by omega) (by omega)
      simp [hval, toJson, Json.ofInt64, ExactInt.ofInt64, hint]
    · -- Past the signed range the number is read as a double
      simp only [hval, if_false, toJson, Json.ofBinary64, false_iff]
      split
      · rename_i m hm
        rw [Number.ofBinary64?] at hm
        split at hm
        · rw [← Option.some.inj hm]
          intro heq
          cases heq
        · cases hm
      · intro heq
        cases heq

mutual

/-- A value is stable exactly if it is written as before when it has been read as a literal. -/
theorem isStable_json_iff : (j : Json) → (j.isStable = true ↔ (ofJson j).toJson = j)
  | .null => iff_of_true rfl rfl
  | .bool _ => iff_of_true rfl rfl
  | .num n => by rw [Json.isStable, isStable_number_iff, ofJson]
  | .str s => by rw [Json.isStable, isSpelled_iff, ofJson]
  | .arr elements => by
    rw [Json.isStable, areStable_json_iff elements, ofJson, toJson, Json.arr.injEq]
  | .obj members => by rw [Json.isStable, decide_eq_true_iff, ofJson, toJson]

theorem areStable_json_iff :
    (js : List Json) → (Json.areStable js = true ↔ toJsons (ofJsons js) = js)
  | [] => iff_of_true rfl rfl
  | j :: rest => by
    rw [Json.areStable, Bool.and_eq_true, isStable_json_iff j, areStable_json_iff rest, ofJsons,
      toJsons, List.cons.injEq]

end

theorem isStable_int64 (n : Int64) : (Json.ofInt64 n).isStable = true :=
  decide_eq_true n.toInt_le

theorem isStable_binary64 (x : Binary64) : (Json.ofBinary64 x).isStable = true := by
  rw [Json.ofBinary64, Number.ofBinary64?]
  split
  · rename_i n hn
    split at hn
    · rw [← Option.some.inj hn]
      rfl
    · cases hn
  · rfl

theorem isSpelled_address (a : IpAddress) : isSpelled a.text = true := by
  rw [isSpelled, decide_eq_true_iff, ofText_text_address, text]

theorem isSpelled_network (n : Network) : isSpelled n.text = true := by
  rw [isSpelled, decide_eq_true_iff, ofText_text_network, text]

mutual

/-- Whether a literal is stable is a matter of its wire form. -/
theorem isStable_toJson : (l : Literal) → l.toJson.isStable = l.isStable
  | .bool _ => rfl
  | .int n => isStable_int64 n
  | .float x => isStable_binary64 x
  | .address a => isSpelled_address a
  | .network n => isSpelled_network n
  | .str _ => rfl
  | .list items => by rw [toJson, Json.isStable, isStable, areStable_toJsons items]
  | .raw _ => rfl

theorem areStable_toJsons : (ls : List Literal) → Json.areStable (toJsons ls) = areStable ls
  | [] => rfl
  | l :: rest => by
    rw [toJsons, Json.areStable, areStable, isStable_toJson l, areStable_toJsons rest]

end

/-- A literal is stable exactly if it is written as before when it has been read back. -/
theorem isStable_iff {l : Literal} : l.isStable = true ↔ (ofJson l.toJson).toJson = l.toJson := by
  rw [← isStable_toJson, isStable_json_iff]

end Literal

/-! ## Values -/

namespace TypedValue

/-- The value that the wire form of another reads as. -/
def reread : TypedValue → TypedValue
  | .fixed l => .fixed (.ofJson l.toJson)
  | .reference key => .reference key
  | .inherited none => .inherited none
  | .inherited (some l) =>
    match l.toJson with
    | .null => .inherited none
    | j => .inherited (some (.ofJson j))

/-- A value whose literal, if it has one, is stable. -/
def isStable (v : TypedValue) : Bool := v.literal?.all Literal.isStable

theorem unbraced_of_toList {s : String} {rest : List Char}
    (h : s.toList = '\x7b' :: '\x7b' :: (rest ++ ['\x7d', '\x7d'])) :
    unbraced s = String.ofList rest := by
  have hlength : (rest ++ ['\x7d', '\x7d']).length - 2 = rest.length := by simp
  have hclosed : 2 ≤ (rest ++ ['\x7d', '\x7d']).length ∧
      (rest ++ ['\x7d', '\x7d']).drop ((rest ++ ['\x7d', '\x7d']).length - 2) =
        ['\x7d', '\x7d'] := ⟨by simp, by rw [hlength, List.drop_left]⟩
  have htake : unbraced s = String.ofList ((rest ++ ['\x7d', '\x7d']).take
      ((rest ++ ['\x7d', '\x7d']).length - 2)) := by
    rw [unbraced, h]
    exact if_pos hclosed
  rw [htake, hlength, List.take_left]

theorem unbraced_braced (key : String) : unbraced (braced key) = key := by
  have hbraced : (braced key).toList =
      '\x7b' :: '\x7b' :: (key.toList ++ ['\x7d', '\x7d']) := by
    rw [braced, String.toList_append, String.toList_append, List.append_assoc]
    rfl
  rw [unbraced_of_toList hbraced, String.ofList_toList]

/-- Every wire form reads as a value, whether tags are read by number or not. -/
theorem ofJsonWith?_toJson (numbered : Bool) (v : TypedValue) :
    ofJsonWith? numbered v.toJson = some v.reread := by
  have hmembers : ∀ tag content : Json,
      valuesOf "optionType" [("optionType", tag), ("value", content)] = [tag] ∧
        valuesOf "value" [("optionType", tag), ("value", content)] = [content] := by
    intro tag content
    constructor <;> simp [valuesOf]
  cases v with
  | fixed l =>
    rw [toJson, ofJsonWith?, (hmembers _ _).1, (hmembers _ _).2]
    rfl
  | reference key =>
    rw [toJson, ofJsonWith?, (hmembers _ _).1, (hmembers _ _).2]
    have hread : ofContent? .reference (some (.str (braced key))) = some (.reference key) := by
      rw [ofContent?, unbraced_braced]
    exact hread
  | inherited l? =>
    rw [toJson, ofJsonWith?, (hmembers _ _).1, (hmembers _ _).2]
    cases l? with
    | none => rfl
    | some l =>
      have hread : ∀ j : Json, ofContent? .inherited (some j) = some (match j with
          | .null => .inherited none
          | j => .inherited (some (.ofJson j))) := by
        intro j
        cases j <;> rfl
      exact hread l.toJson

/-- Only references refer to objects, and they read back unchanged. -/
theorem objectId?_reread (v : TypedValue) : v.reread.objectId? = v.objectId? := by
  cases v with
  | fixed l => rfl
  | reference key => rfl
  | inherited l? =>
    cases l? with
    | none => rfl
    | some l =>
      rw [reread]
      split <;> rfl

/-- A value with a stable literal is written as before. -/
theorem toJson_reread {v : TypedValue} (h : v.isStable = true) : v.reread.toJson = v.toJson := by
  cases v with
  | fixed l => rw [reread, toJson, Literal.isStable_iff.mp h, toJson]
  | reference key => rfl
  | inherited l? =>
    cases l? with
    | none => rfl
    | some l =>
      have hl := Literal.isStable_iff.mp h
      rw [reread]
      split
      · rename_i hnull
        rw [toJson, toJson, Option.map_some, Json.ofOption, hnull]
        rfl
      · rw [toJson, toJson, Option.map_some, Option.map_some, Json.ofOption, Json.ofOption, hl]

end TypedValue

end ProfileMigration
