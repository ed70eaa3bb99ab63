/-
  ProfileMigration.Legacy.Context

  What conversion knows while it runs:

    generatedId         -- the identifier made from an object's family and legacy id
    AnyOf               -- a value of any of several types, with its type
    Context             -- the identifiers of the objects converted so far, and what is kept
                           under names
    Context.register / resolve / count / isEmpty
    Context.attach / get?
    Note                -- what is kept in a run: texts, numbers and headers of profiles
    Context.text? / number? / header?
    Context.resolve_register    -- what is found after one more object

  A family has entries of its own from its first object on, and an object keeps the identifier
  that it was given first.

  This models `ConversionContext`: `generated_id`, `register`, `resolve`, `len` and `is_empty` over
  a map of maps, `attach` and `get` over values of any type.
-/
import ProfileMigration.Identity.Uuid
import ProfileMigration.Legacy.Category
import ProfileMigration.Parcel.Kind
import ProfileMigration.Sequence.Entries
import ProfileMigration.Text.Keyed

namespace ProfileMigration

/-- The name space of generated identifiers. -/
def idSpace : Uuid := ⟨0x6f726765_2d6d_6967_7261_74652d696473#128⟩

/-- The name that an object's generated identifier is made from. -/
def idName (category : Category) (origin : String) : String := category.text ++ "/" ++ origin

/-- The identifier of an object: always the same for its family and legacy id. -/
def generatedId (category : Category) (origin : String) : Uuid :=
  Uuid.named idSpace (idName category origin)

/-- A value of any of several types, with its type. -/
structure AnyOf {τ : Type} (Content : τ → Type) where
  type : τ
  content : Content type

/-- The value, if it is of a type. -/
def AnyOf.as? {τ : Type} [DecidableEq τ] {Content : τ → Type} (type : τ)
    (value : AnyOf Content) : Option (Content type) :=
  if h : value.type = type then some (h ▸ value.content) else none

/-- The types of notes. -/
inductive NoteType where
  | text
  | number
  | header
deriving DecidableEq

/-- The values of notes. -/
def NoteType.Content : NoteType → Type
  | .text => String
  | .number => Int64
  | .header => ProfileHeader

/-- Something kept under a name for the whole run. -/
abbrev Note := AnyOf NoteType.Content

namespace Note

def text (s : String) : Note := ⟨.text, s⟩

def number (n : Int64) : Note := ⟨.number, n⟩

def header (h : ProfileHeader) : Note := ⟨.header, h⟩

end Note

/-- What conversion knows: the identifiers of the objects converted so far, by family and then by
    legacy id, and what is kept under names. -/
structure Context (α : Type := Note) where
  ids : Entries Category (Entries String Uuid)
  notes : List (String × α)

namespace Context

variable {α : Type}

/-- Nothing converted, nothing noted. -/
def empty : Context α := ⟨[], []⟩

/-- Records that an object has been converted, and gives its identifier: the one it has, or else
    the generated one. -/
def register (ctx : Context α) (category : Category) (origin : String) : Uuid × Context α :=
  -- The first object of a family finds no entries of the family
  let (family, ids) := ctx.ids.orInsert category []
  let (id, family) := Entries.orInsert origin (generatedId category origin) family
  (id, { ctx with ids := ids.assign category family })

/-- The identifier of an object that has been converted. -/
def resolve (ctx : Context α) (category : Category) (origin : String) : Option Uuid :=
  (ctx.ids.get? category).bind (·.get? origin)

/-- The number of converted objects of a family. -/
def count (ctx : Context α) (category : Category) : Nat :=
  ((ctx.ids.get? category).map List.length).getD 0

/-- Whether no object has been converted. -/
def isEmpty (ctx : Context α) : Bool := ctx.ids.all fun (_, family) => family.isEmpty

/-- Keeps something under a name, in place of anything earlier. -/
def attach (ctx : Context α) (name : String) (value : α) : Context α :=
  { ctx with notes := Keyed.insert name value ctx.notes }

/-- What is kept under a name, if it is of a type. -/
def get? {τ : Type} [DecidableEq τ] {Content : τ → Type} (ctx : Context (AnyOf Content))
    (type : τ) (name : String) : Option (Content type) :=
  (Keyed.get? name ctx.notes).bind (·.as? type)

/-- The note under a name, if it is a text. -/
def text? (ctx : Context) (name : String) : Option String := ctx.get? .text name

/-- The note under a name, if it is a number. -/
def number? (ctx : Context) (name : String) : Option Int64 := ctx.get? .number name

/-- The note under a name, if it is the header of a profile. -/
def header? (ctx : Context) (name : String) : Option ProfileHeader := ctx.get? .header name

/-! ## Registering -/

theorem register_fst (ctx : Context α) (category : Category) (origin : String) :
    (ctx.register category origin).1 =
      (ctx.resolve category origin).getD (generatedId category origin) := by
  rw [register, resolve]
  dsimp only
  rw [Entries.orInsert_fst, Entries.orInsert_fst]
  cases ctx.ids.get? category with
  | none => rfl
  | some family => rfl

theorem notes_register (ctx : Context α) (category : Category) (origin : String) :
    (ctx.register category origin).2.notes = ctx.notes := rfl

/-- The registered object is found under the identifier that it was given, and any other one as
    before. -/
theorem resolve_register (ctx : Context α) (category : Category) (origin : String)
    (category' : Category) (origin' : String) :
    (ctx.register category origin).2.resolve category' origin' =
      if category' = category ∧ origin' = origin then some (ctx.register category origin).1
      else ctx.resolve category' origin' := by
  rw [register_fst, register, resolve, resolve, resolve]
  dsimp only
  rw [Entries.get?_assign, Entries.get?_orInsert, Entries.orInsert_fst]
  by_cases hcategory : category' = category
  · -- In the family of the object its legacy id alone has another entry
    rw [if_pos hcategory, hcategory, Option.bind_some, Entries.get?_orInsert]
    cases ctx.ids.get? category with
    | none => simp [Entries.get?]
    | some family => simp
  · rw [if_neg hcategory, if_neg hcategory, if_neg fun h => hcategory h.1]

end Context

end ProfileMigration
