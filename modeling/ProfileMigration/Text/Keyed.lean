/-
  ProfileMigration.Text.Keyed

  Lists of values keyed by text, in strictly increasing order of key:

    Keyed.get?      -- the value under a key
    Keyed.insert    -- add or replace, keeping the order
    Keyed.ofList    -- sort pairs; the last value of a repeated key stays
    Keyed.Ordered   -- the order itself, which `insert` and `ofList` keep

  The order of keys is that of their characters' code points.

  A `FieldMap` is a map of this kind, and so are the objects of JSON.
-/

namespace ProfileMigration.Keyed

variable {α : Type}

/-- The value of the first entry with a key. -/
def get? (key : String) : List (String × α) → Option α
  | [] => none
  | (k, v) :: rest => if k = key then some v else get? key rest

/-- Puts a value under a key: in place of the old value, or before the first larger key. -/
def insert (key : String) (value : α) : List (String × α) → List (String × α)
  | [] => [(key, value)]
  | (k, v) :: rest =>
    if key < k then (key, value) :: (k, v) :: rest
    else if key = k then (key, value) :: rest
    else (k, v) :: insert key value rest

/-- Inserts pairs one after the other. -/
def ofList (pairs : List (String × α)) : List (String × α) :=
  pairs.foldl (fun acc (k, v) => insert k v acc) []

/-- Keys strictly increase. -/
def Ordered (entries : List (String × α)) : Prop :=
  (entries.map Prod.fst).Pairwise (· < ·)

theorem get?_insert_self (key : String) (value : α) (entries : List (String × α)) :
    get? key (insert key value entries) = some value := by
  induction entries with
  | nil => simp [insert, get?]
  | cons entry rest ih =>
    obtain ⟨k, v⟩ := entry
    unfold insert
    split
    · simp [get?]
    · split
      · simp [get?]
      · rename_i _ h
        simp [get?, Ne.symm h, ih]

theorem get?_insert_of_ne {key other : String} (h : other ≠ key) (value : α)
    (entries : List (String × α)) :
    get? other (insert key value entries) = get? other entries := by
  induction entries with
  | nil => simp [insert, get?, Ne.symm h]
  | cons entry rest ih =>
    obtain ⟨k, v⟩ := entry
    unfold insert
    split
    · simp [get?, Ne.symm h]
    · split
      · rename_i _ hk
        subst hk
        simp [get?, Ne.symm h]
      · simp [get?, ih]

end ProfileMigration.Keyed
