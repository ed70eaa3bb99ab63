/-
  ProfileMigration.Proofs.Time.InstantText

  The texts of points in time:

    Time.Stops                  -- text in front of which digits end
    Time.number?_zeroPadded     -- a number with leading zeros reads back
    Time.year?_yearText         -- so does a year, with its sign if it has one
    Time.fraction?_placesText   -- and the places of a second
    Instant.settled             -- a point in time as its text reads
    Instant.ofText?_text        -- the text of every point in time reads so

  In a text a second that has a second's worth of extra nanoseconds is the sixtieth if it is the
  last of its minute; any other looks like the second after it.
-/
import ProfileMigration.Proofs.Text.Integer
import ProfileMigration.Proofs.Time.Calendar

namespace ProfileMigration

namespace Time

open Instant (zeroPadded yearText placesText)

/-! ## Digits -/

/-- No digit is at the head of a text. -/
def Stops (cs : List Char) : Prop := ∀ c ∈ cs.head?, c.isDigit = false

theorem stops_cons {c : Char} (h : c.isDigit = false) (cs : List Char) : Stops (c :: cs) := by
  intro d hd
  obtain rfl := Option.some.inj hd
  exact h

variable {ds rest : List Char}

theorem takeWhile_eq_nil_of_stops (h : Stops rest) (n : Nat) :
    (rest.take n).takeWhile Char.isDigit = [] := by
  cases n with
  | zero => rfl
  | succ n =>
    cases rest with
    | nil => rfl
    | cons c cs => rw [List.take_succ_cons, List.takeWhile_cons, h c rfl]; rfl

/-- Digits are read as their value, as far as they go. -/
theorem number?_digits (hdigits : ∀ c ∈ ds, c.isDigit = true) (hne : ds ≠ []) {most : Nat}
    (hlength : ds.length ≤ most) (hrest : Stops rest) :
    number? most (ds ++ rest) = some (Decimal.digitsValue ds, rest) := by
  have htake : ((ds ++ rest).take most).takeWhile Char.isDigit = ds := by
    rw [List.take_append, List.take_of_length_le hlength, List.takeWhile_append_of_pos hdigits,
      takeWhile_eq_nil_of_stops hrest, List.append_nil]
  rw [number?, htake, if_neg hne, List.drop_left]

theorem digitsValue_zeros (k : Nat) (cs : List Char) :
    Decimal.digitsValue (List.replicate k '0' ++ cs) = Decimal.digitsValue cs := by
  induction k with
  | zero => rfl
  | succ k ih =>
    rw [List.replicate_succ, List.cons_append, ← ih]
    rfl

theorem toList_zeroPadded (width n : Nat) : (zeroPadded width n).toList =
    List.replicate (width - (Nat.toDigits 10 n).length) '0' ++ Nat.toDigits 10 n :=
  String.toList_ofList

theorem isDigit_of_mem_zeroPadded {width n : Nat} {c : Char} (h : c ∈ (zeroPadded width n).toList) :
    c.isDigit = true := by
  rw [toList_zeroPadded] at h
  rcases List.mem_append.mp h with hzero | hdigit
  · rw [List.eq_of_mem_replicate hzero]
    rfl
  · exact Nat.isDigit_of_mem_toDigits (by decide) (by decide) hdigit

theorem zeroPadded_ne_nil (width n : Nat) : (zeroPadded width n).toList ≠ [] := by
  rw [toList_zeroPadded]
  exact List.append_ne_nil_of_right_ne_nil _ Nat.toDigits_ne_nil

theorem digitsValue_zeroPadded (width n : Nat) :
    Decimal.digitsValue (zeroPadded width n).toList = n := by
  rw [toList_zeroPadded, digitsValue_zeros, Decimal.digitsValue_toDigits]

/-- A number that has no more digits than asked for has as many as asked for. -/
theorem length_zeroPadded {width n : Nat} (hpos : 0 < width) (h : n < Nat.pow 10 width) :
    (zeroPadded width n).toList.length = width := by
  have hlength : (Nat.toDigits 10 n).length ≤ width :=
    (Nat.length_toDigits_le_iff (by decide) hpos).mpr h
  rw [toList_zeroPadded, List.length_append, List.length_replicate]
  omega

/-- A number with leading zeros reads back. -/
theorem number?_zeroPadded {width n most : Nat}
    (hlength : (zeroPadded width n).toList.length ≤ most) (hrest : Stops rest) :
    number? most ((zeroPadded width n).toList ++ rest) = some (n, rest) := by
  rw [number?_digits (fun _ => isDigit_of_mem_zeroPadded) (zeroPadded_ne_nil width n) hlength hrest,
    digitsValue_zeroPadded]

/-! ## Parts -/

theorem trimStart_zeroPadded (width n : Nat) (cs : List Char) :
    Text.trimStart ((zeroPadded width n).toList ++ cs) = (zeroPadded width n).toList ++ cs := by
  cases hdigits : (zeroPadded width n).toList with
  | nil => exact absurd hdigits (zeroPadded_ne_nil width n)
  | cons c ds =>
    have hdigit := isDigit_of_mem_zeroPadded (hdigits ▸ List.mem_cons_self)
    exact Text.trimStart_cons (Text.isBlank_of_isDigit hdigit) (ds ++ cs)

/-- Two digits read back. -/
theorem item?_zeroPadded {n : Nat} (h : n < 100) (hrest : Stops rest) :
    item? 2 ((zeroPadded 2 n).toList ++ rest) = some (n, rest) := by
  rw [item?, trimStart_zeroPadded]
  exact number?_zeroPadded (length_zeroPadded (by decide) h).le hrest

theorem mark?_cons {c : Char} (h : Text.isBlank c = false) (cs : List Char) :
    mark? c (c :: cs) = some cs := by
  rw [mark?, Text.trimStart_cons h]
  exact if_pos rfl

theorem year?_minus (cs : List Char) :
    year? ('-' :: cs) = (number? cs.length cs).map fun (n, more) => (-(n : Int), more) := rfl

theorem year?_plus (cs : List Char) :
    year? ('+' :: cs) = (number? cs.length cs).map fun (n, more) => ((n : Int), more) := rfl

/-- A year without a sign has at most four digits. -/
theorem year?_zeroPadded (width n : Nat) (rest : List Char) :
    year? ((zeroPadded width n).toList ++ rest) =
      (number? 4 ((zeroPadded width n).toList ++ rest)).map fun (n, more) => ((n : Int), more) := by
  have hsign : ∀ c cs, (zeroPadded width n).toList ++ rest = c :: cs → c ≠ '-' ∧ c ≠ '+' := by
    intro c cs hcs
    cases hdigits : (zeroPadded width n).toList with
    | nil => exact absurd hdigits (zeroPadded_ne_nil width n)
    | cons d ds =>
      rw [hdigits, List.cons_append] at hcs
      obtain ⟨rfl, -⟩ := List.cons.inj hcs
      have hdigit := isDigit_of_mem_zeroPadded (hdigits ▸ List.mem_cons_self)
      constructor <;> rintro rfl <;> cases hdigit
  rw [year?, trimStart_zeroPadded]
  split
  · rename_i cs hcs
    exact absurd rfl (hsign _ _ hcs).1
  · rename_i cs hcs
    exact absurd rfl (hsign _ _ hcs).2
  · rfl

/-- A year reads back, with its sign if it has one. -/
theorem year?_yearText (year : Int) (hrest : Stops rest) :
    year? ((yearText year).toList ++ rest) = some (year, rest) := by
  have hsigned : number? ((zeroPadded 4 year.natAbs).toList ++ rest).length
      ((zeroPadded 4 year.natAbs).toList ++ rest) = some (year.natAbs, rest) :=
    number?_zeroPadded (by rw [List.length_append]; omega) hrest
  have hminus : "-".toList = ['-'] := rfl
  have hplus : "+".toList = ['+'] := rfl
  rw [yearText]
  split
  · rename_i hnegative
    have hvalue : -(year.natAbs : Int) = year := by omega
    rw [String.toList_append, hminus, List.singleton_append, List.cons_append, year?_minus,
      hsigned, Option.map_some]
    exact congrArg (fun y => some (y, rest)) hvalue
  · rename_i hnonneg
    have hvalue : (year.natAbs : Int) = year := by omega
    split
    · rw [String.toList_append, hplus, List.singleton_append, List.cons_append, year?_plus,
        hsigned, Option.map_some]
      exact congrArg (fun y => some (y, rest)) hvalue
    · have hlength : (zeroPadded 4 year.natAbs).toList.length = 4 :=
        length_zeroPadded (by decide) (show year.natAbs < 10000 by omega)
      rw [year?_zeroPadded, number?_zeroPadded hlength.le hrest, Option.map_some]
      exact congrArg (fun y => some (y, rest)) hvalue

theorem fraction?_places {width n : Nat} (hpos : 0 < width) (hwidth : width ≤ 9)
    (hn : n < Nat.pow 10 width) (hrest : Stops rest) :
    fraction? ('.' :: ((zeroPadded width n).toList ++ rest)) =
      some (n * Nat.pow 10 (9 - width), rest) := by
  have hlength := length_zeroPadded hpos hn
  have hdrop : rest.dropWhile Char.isDigit = rest := by
    cases rest with
    | nil => rfl
    | cons c cs => rw [List.dropWhile_cons, hrest c rfl]; rfl
  rw [fraction?, number?_zeroPadded (by omega) hrest]
  dsimp only [bind, Option.bind]
  rw [hdrop, List.length_append, hlength, Nat.add_sub_cancel]
  rfl

/-- The places of a second read back. -/
theorem fraction?_placesText {nanos : Nat} (h : nanos < 1000000000) :
    fraction? ((placesText nanos).toList ++ ['Z']) = some (nanos, ['Z']) := by
  have hstops : Stops ['Z'] := stops_cons rfl []
  -- What the places leave out of nine are zeros
  have hread : ∀ width n : Nat, 0 < width → width ≤ 9 → n < Nat.pow 10 width →
      fraction? (("." ++ zeroPadded width n).toList ++ ['Z']) =
        some (n * Nat.pow 10 (9 - width), ['Z']) := by
    intro width n hpos hwidth hn
    rw [String.toList_append]
    exact fraction?_places hpos hwidth hn hstops
  rw [placesText]
  split
  · rename_i hzero
    rw [hzero]
    rfl
  · split
    · rw [hread 3 _ (by decide) (by decide) (show nanos / 1000000 < 1000 by omega)]
      exact congrArg (fun n => some (n, ['Z'])) (show nanos / 1000000 * 1000000 = nanos by omega)
    · split
      · rw [hread 6 _ (by decide) (by decide) (show nanos / 1000 < 1000000 by omega)]
        exact congrArg (fun n => some (n, ['Z'])) (show nanos / 1000 * 1000 = nanos by omega)
      · rw [hread 9 _ (by decide) (by decide) h]
        exact congrArg (fun n => some (n, ['Z'])) (Nat.mul_one nanos)

theorem stops_placesText (nanos : Nat) : Stops ((placesText nanos).toList ++ ['Z']) := by
  have hpoint : ∀ s : String, Stops (("." ++ s).toList ++ ['Z']) := by
    intro s
    rw [String.toList_append]
    exact stops_cons rfl _
  rw [placesText]
  split
  · exact stops_cons rfl []
  · split
    · exact hpoint _
    · split <;> exact hpoint _

end Time

namespace Instant

open Time

/-! ## Points in time -/

/-- A date and a time of day are read from their text part by part. -/
theorem ofText?_civil {date : Date} {hour minute second nanos : Nat} (hmonth : date.month < 100)
    (hday : date.day < 100) (hhour : hour < 100) (hminute : minute < 100) (hsecond : second < 100)
    (hnanos : nanos < 1000000000) :
    ofText? (yearText date.year ++ "-" ++ zeroPadded 2 date.month ++ "-" ++
      zeroPadded 2 date.day ++ "T" ++ zeroPadded 2 hour ++ ":" ++ zeroPadded 2 minute ++ ":" ++
      zeroPadded 2 second ++ placesText nanos ++ "Z") =
        ofCivil? date hour minute second nanos 0 := by
  have hchars : (yearText date.year ++ "-" ++ zeroPadded 2 date.month ++ "-" ++
      zeroPadded 2 date.day ++ "T" ++ zeroPadded 2 hour ++ ":" ++ zeroPadded 2 minute ++ ":" ++
      zeroPadded 2 second ++ placesText nanos ++ "Z").toList =
      (yearText date.year).toList ++ '-' :: ((zeroPadded 2 date.month).toList ++
        '-' :: ((zeroPadded 2 date.day).toList ++ 'T' :: ((zeroPadded 2 hour).toList ++
        ':' :: ((zeroPadded 2 minute).toList ++ ':' :: ((zeroPadded 2 second).toList ++
        ((placesText nanos).toList ++ ['Z'])))))) := by
    have hdash : "-".toList = ['-'] := rfl
    have htee : "T".toList = ['T'] := rfl
    have hcolon : ":".toList = [':'] := rfl
    have hzed : "Z".toList = ['Z'] := rfl
    simp only [String.toList_append, hdash, htee, hcolon, hzed, List.append_assoc,
      List.cons_append, List.nil_append]
  have hmark : ∀ {c : Char}, c.isDigit = false → ∀ cs, Stops (c :: cs) := stops_cons
  have hoffset : offset? (Text.trimStart ['Z']) = some (0, []) := rfl
  have hend : Text.trimStart [] = [] := rfl
  rw [ofText?, hchars, year?_yearText _ (hmark rfl _)]
  dsimp only [bind, Option.bind]
  rw [mark?_cons rfl]
  dsimp only
  rw [item?_zeroPadded hmonth (hmark rfl _)]
  dsimp only
  rw [mark?_cons rfl]
  dsimp only
  rw [item?_zeroPadded hday (hmark rfl _)]
  dsimp only
  rw [if_pos (.inl rfl), item?_zeroPadded hhour (hmark rfl _)]
  dsimp only
  rw [mark?_cons rfl]
  dsimp only
  rw [item?_zeroPadded hminute (hmark rfl _)]
  dsimp only
  rw [mark?_cons rfl]
  dsimp only
  rw [item?_zeroPadded hsecond (stops_placesText _)]
  dsimp only
  rw [fraction?_placesText hnanos]
  dsimp only
  rw [hoffset]
  dsimp only
  rw [if_pos hend]

/-- A point in time whose year is kept, and in whose second there is at most one more. -/
def isValid (t : Instant) : Bool :=
  yearInRange (dateOfDays (t.seconds / 86400)).year && decide (t.nanos < 2000000000)

/-- A point in time as its text reads: a leap second that is not the last of its minute is the
    second after it. -/
def settled (t : Instant) : Instant :=
  if 1000000000 ≤ t.nanos ∧ t.seconds % 60 ≠ 59 then ⟨t.seconds + 1, t.nanos - 1000000000⟩ else t

/-- The parts of a text stand for what it was written for. -/
theorem ofCivil?_parts {t : Instant} (h : t.isValid = true) :
    let clock := (t.seconds % 86400).toNat
    ofCivil? (dateOfDays (t.seconds / 86400)) (clock / 3600) (clock / 60 % 60)
      (clock % 60 + t.nanos / 1000000000) (t.nanos % 1000000000) 0 = some t.settled := by
  intro clock
  rw [isValid, Bool.and_eq_true, decide_eq_true_iff] at h
  obtain ⟨hyear, hnanos⟩ := h
  obtain ⟨s, nanos⟩ := t
  dsimp only at clock hyear hnanos ⊢
  have hclock : (clock : Int) = s % 86400 := Int.toNat_of_nonneg (by omega)
  have hday : daysOfDate (dateOfDays (s / 86400)) = s / 86400 := daysOfDate_dateOfDays _
  generalize clock = c at hclock ⊢
  rw [ofCivil?, if_pos ⟨isValid_dateOfDays hyear, by omega, by omega, by omega⟩, hday]
  by_cases hleap : c % 60 + nanos / 1000000000 = 60
  · -- The sixtieth second is the fifty-ninth with what it has on top
    have hlast : ¬ (1000000000 ≤ nanos ∧ s % 60 ≠ 59) := by omega
    have hsettled : settled ⟨s, nanos⟩ = ⟨s, nanos⟩ := if_neg hlast
    have hseconds : s / 86400 * 86400 + (((c / 3600 * 60 + c / 60 % 60) * 60 + 59 : Nat) : Int) -
        0 = s := by omega
    rw [if_pos hleap, hsettled]
    dsimp only
    rw [hseconds, if_pos hyear, show nanos % 1000000000 + 1000000000 = nanos by omega]
  · rw [if_neg hleap]
    dsimp only
    by_cases hextra : 1000000000 ≤ nanos
    · have hearly : s % 60 ≠ 59 := by omega
      have hsettled : settled ⟨s, nanos⟩ = ⟨s + 1, nanos - 1000000000⟩ := if_pos ⟨hextra, hearly⟩
      have hseconds : s / 86400 * 86400 +
          (((c / 3600 * 60 + c / 60 % 60) * 60 + (c % 60 + nanos / 1000000000) : Nat) : Int) - 0 =
            s + 1 := by omega
      have hsame : (s + 1) / 86400 = s / 86400 := by omega
      rw [hseconds, hsame, if_pos hyear, hsettled,
        show nanos % 1000000000 + 0 = nanos - 1000000000 by omega]
    · have hsettled : settled ⟨s, nanos⟩ = ⟨s, nanos⟩ := if_neg fun h => hextra h.1
      have hseconds : s / 86400 * 86400 +
          (((c / 3600 * 60 + c / 60 % 60) * 60 + (c % 60 + nanos / 1000000000) : Nat) : Int) - 0 =
            s := by omega
      rw [hseconds, if_pos hyear, hsettled, show nanos % 1000000000 + 0 = nanos by omega]

/-- The text of a point in time reads as that point. -/
theorem ofText?_text {t : Instant} (h : t.isValid = true) : ofText? t.text = some t.settled := by
  have hcivil := ofCivil?_parts h
  rw [isValid, Bool.and_eq_true, decide_eq_true_iff] at h
  obtain ⟨hyear, hnanos⟩ := h
  have hdate := isValid_dateOfDays hyear
  rw [Date.isValid, Bool.and_eq_true, Bool.and_eq_true, decide_eq_true_iff, decide_eq_true_iff]
    at hdate
  obtain ⟨⟨-, -, hmonth⟩, -, hday⟩ := hdate
  have hlength := daysInMonth_le (dateOfDays (t.seconds / 86400)).year
    (dateOfDays (t.seconds / 86400)).month
  have hclock : (t.seconds % 86400).toNat < 86400 := by omega
  rw [text, ofText?_civil (by omega) (by omega) (by omega) (by omega) (by omega) (by omega)]
  exact hcivil

end Instant

end ProfileMigration
