/-
# Points in time survive as text

The text of a point in time has digits where numbers are read, and a mark or the end of the text after
each number, so that every part is read back before the next one begins.

* `natOfDigits_toDigits` : the digits of a number are read as the number;
* `Timestamp.number?_append` : a number is read up to the character that ends it;
* `Timestamp.ofText?_text` : what is written is read back.
-/
import Mathlib.Algebra.Group.Nat.Defs
import Stepwise.Timestamp

namespace Stepwise

/-- A list of digits is read as the library reads it. -/
theorem natOfDigits_eq_ofDigitChars (ds : List Char) :
    natOfDigits ds = Nat.ofDigitChars 10 ds 0 := by
  have step : ∀ n, ds.foldl (fun n d => n * 10 + digitValue d) n = Nat.ofDigitChars 10 ds n := by
    induction ds with
    | nil => exact fun n => rfl
    | cons d ds ih =>
      intro n
      rw [List.foldl_cons, ih, Nat.ofDigitChars_cons, Nat.mul_comm]
      rfl
  exact step 0

/-- The digits of a number are read as the number. -/
theorem natOfDigits_toDigits (n : Nat) : natOfDigits (Nat.toDigits 10 n) = n := by
  rw [natOfDigits_eq_ofDigitChars, Nat.ofDigitChars_toDigits (by decide) (by decide)]

/-- Zeros in front of a number do not count. -/
theorem natOfDigits_replicate_append (count : Nat) (ds : List Char) :
    natOfDigits (List.replicate count '0' ++ ds) = natOfDigits ds := by
  induction count with
  | zero => rfl
  | succ count ih => exact ih

/-- A digit is not blank. -/
theorem isBlank_eq_false_of_isDigit {c : Char} (h : c.isDigit = true) : Text.isBlank c = false := by
  have hc : 48 ≤ c.toNat ∧ c.toNat ≤ 57 := by
    simpa [Char.isDigit, UInt32.le_iff_toNat_le] using h
  simp [Text.isBlank, Text.blankRanges]
  omega

namespace Timestamp

/-! ## Numbers with a width -/

theorem toList_padded (width n : Nat) :
    (padded width n).toList =
      List.replicate (width - (Nat.toDigits 10 n).length) '0' ++ Nat.toDigits 10 n := by
  show (String.ofList (List.replicate (width - (Nat.repr n).toList.length) '0' ++
    (Nat.repr n).toList)).toList = _
  rw [String.toList_ofList, Nat.toList_repr]

theorem isDigit_of_mem_padded {width n : Nat} {c : Char} (h : c ∈ (padded width n).toList) :
    c.isDigit = true := by
  rw [toList_padded] at h
  rcases List.mem_append.1 h with h | h
  · rw [(List.mem_replicate.1 h).2]
    rfl
  · exact Nat.isDigit_of_mem_toDigits (by decide) (by decide) h

theorem natOfDigits_padded (width n : Nat) : natOfDigits (padded width n).toList = n := by
  rw [toList_padded, natOfDigits_replicate_append, natOfDigits_toDigits]

theorem padded_ne_nil (width n : Nat) : (padded width n).toList ≠ [] := by
  rw [toList_padded]
  exact List.append_ne_nil_of_right_ne_nil _ Nat.toDigits_ne_nil

/-- A number that fits has as many digits as asked for. -/
theorem length_padded {width n : Nat} (positive : 0 < width) (fits : n < 10 ^ width) :
    (padded width n).toList.length = width := by
  have := (Nat.length_toDigits_le_iff (b := 10) (by decide) positive).2 fits
  rw [toList_padded, List.length_append, List.length_replicate]
  omega

/-! ## Reading the parts -/

/-- No digit follows. -/
def NoDigitAhead (cs : List Char) : Prop := ∀ c ∈ cs.head?, c.isDigit = false

/-- A number is read up to the character that ends it, or as far as its width allows. -/
theorem number?_append {most : Nat} {ds rest : List Char} (digits : ∀ c ∈ ds, c.isDigit = true)
    (nonempty : ds ≠ []) (fits : ds.length ≤ most) (ends : ds.length = most ∨ NoDigitAhead rest) :
    number? most (ds ++ rest) = some (natOfDigits ds, rest) := by
  have hrest : (rest.take (most - ds.length)).takeWhile Char.isDigit = [] := by
    rcases ends with full | quiet
    · rw [full, Nat.sub_self, List.take_zero, List.takeWhile_nil]
    · cases rest with
      | nil => rw [List.take_nil, List.takeWhile_nil]
      | cons c rest =>
        cases most - ds.length with
        | zero => rfl
        | succ k =>
          rw [List.take_succ_cons, List.takeWhile_cons, quiet c rfl, if_neg Bool.false_ne_true]
  have hds : ((ds ++ rest).take most).takeWhile Char.isDigit = ds := by
    rw [List.take_append, List.take_of_length_le fits, List.takeWhile_append_of_pos digits, hrest,
      List.append_nil]
  rw [number?, hds, List.drop_left]
  cases ds with
  | nil => exact absurd rfl nonempty
  | cons => rfl

/-- A number with a width is read back, if no digit follows. -/
theorem number?_padded {most width n : Nat} {rest : List Char}
    (fits : (padded width n).toList.length ≤ most)
    (ends : (padded width n).toList.length = most ∨ NoDigitAhead rest) :
    number? most ((padded width n).toList ++ rest) = some (n, rest) := by
  rw [number?_append (fun _ => isDigit_of_mem_padded) (padded_ne_nil width n) fits ends,
    natOfDigits_padded]

/-- No blanks are skipped in front of a character that is not blank. -/
theorem trimStart_cons {c : Char} (h : Text.isBlank c = false) (cs : List Char) :
    Text.trimStart (c :: cs) = c :: cs :=
  List.dropWhile_cons_of_neg (by rw [h]; exact Bool.false_ne_true)

/-- A number with a width begins with a digit. -/
theorem exists_padded_append (width n : Nat) (rest : List Char) :
    ∃ c cs, (padded width n).toList ++ rest = c :: cs ∧ c.isDigit = true := by
  cases h : (padded width n).toList with
  | nil => exact absurd h (padded_ne_nil width n)
  | cons c cs =>
    exact ⟨c, cs ++ rest, rfl, isDigit_of_mem_padded (h ▸ List.mem_cons_self)⟩

theorem trimStart_padded_append (width n : Nat) (rest : List Char) :
    Text.trimStart ((padded width n).toList ++ rest) = (padded width n).toList ++ rest := by
  obtain ⟨c, cs, h, digit⟩ := exists_padded_append width n rest
  rw [h, trimStart_cons (isBlank_eq_false_of_isDigit digit)]

/-- A field of two digits is read back. -/
theorem field?_padded {low high n : Nat} (h : (low ≤ n ∧ n ≤ high) ∧ high < 100)
    (rest : List Char) : field? low high ((padded 2 n).toList ++ rest) = some (n, rest) := by
  have hlength : (padded 2 n).toList.length = 2 := length_padded (by decide) (by omega)
  rw [field?, trimStart_padded_append, number?_padded (Nat.le_of_eq hlength) (.inl hlength),
    Option.bind_some]
  simp [h.1]

theorem mark?_cons {c : Char} (h : Text.isBlank c = false) (rest : List Char) :
    mark? c (c :: rest) = some rest := by
  rw [mark?, trimStart_cons h]
  exact if_pos rfl

/-- A year that begins with a digit has no sign. -/
theorem year?_of_isDigit {c : Char} (digit : c.isDigit = true) (cs : List Char) :
    year? (c :: cs) = (number? 4 (c :: cs)).map fun (n, rest) => ((n : Int), rest) := by
  rw [year?, trimStart_cons (isBlank_eq_false_of_isDigit digit)]
  split
  · next h =>
    cases h
    cases digit
  · next h =>
    cases h
    cases digit
  · rfl

theorem year?_minus (cs : List Char) :
    year? ('-' :: cs) = (number? cs.length cs).map fun (n, rest) => (-(n : Int), rest) := by
  rw [year?, trimStart_cons (by decide)]
  rfl

theorem year?_plus (cs : List Char) :
    year? ('+' :: cs) = (number? cs.length cs).map fun (n, rest) => ((n : Int), rest) := by
  rw [year?, trimStart_cons (by decide)]
  rfl

/-- A text that begins with a character. -/
theorem toList_append_append (c : Char) (s : String) (rest : List Char) :
    (String.singleton c ++ s).toList ++ rest = c :: (s.toList ++ rest) := by
  rw [String.toList_append, String.toList_singleton, List.singleton_append, List.cons_append]

theorem noDigitAhead_cons {c : Char} (h : c.isDigit = false) (cs : List Char) :
    NoDigitAhead (c :: cs) := by
  rintro d ⟨⟩
  exact h

/-- A year is read back in front of the mark that follows it. -/
theorem year?_yearText (year : Int) (rest : List Char) :
    year? ((yearText year).toList ++ '-' :: rest) = some (year, '-' :: rest) := by
  -- after a sign as many digits are read as there are
  have signed {n : Nat} : number? ((padded 4 n).toList ++ '-' :: rest).length
      ((padded 4 n).toList ++ '-' :: rest) = some (n, '-' :: rest) :=
    number?_padded (by rw [List.length_append]; exact Nat.le_add_right _ _)
      (.inr (noDigitAhead_cons rfl rest))
  rw [yearText]
  by_cases plain : 0 ≤ year ∧ year ≤ 9999
  · have hlength : (padded 4 year.toNat).toList.length = 4 := length_padded (by decide) (by omega)
    have hread : number? 4 ((padded 4 year.toNat).toList ++ '-' :: rest) =
        some (year.toNat, '-' :: rest) := number?_padded (Nat.le_of_eq hlength) (.inl hlength)
    obtain ⟨c, cs, hcs, digit⟩ := exists_padded_append 4 year.toNat ('-' :: rest)
    rw [if_pos (by simpa using plain), hcs, year?_of_isDigit digit, ← hcs, hread, Option.map_some]
    exact congrArg (fun y => some (y, '-' :: rest)) (Int.toNat_of_nonneg plain.1)
  · rw [if_neg (by simpa using plain)]
    by_cases negative : year < 0
    · rw [if_pos negative, show "-" = String.singleton '-' from rfl, toList_append_append,
        year?_minus, signed, Option.map_some]
      exact congrArg (fun y => some (y, '-' :: rest)) (by omega)
    · rw [if_neg negative, show "+" = String.singleton '+' from rfl, toList_append_append,
        year?_plus, signed, Option.map_some]
      exact congrArg (fun y => some (y, '-' :: rest)) (by omega)

theorem fraction?_point (cs : List Char) :
    fraction? ('.' :: cs) = (number? 9 cs).map fun (n, rest) =>
      (n * Nat.pow 10 (9 - (cs.length - rest.length)), rest.dropWhile Char.isDigit) := rfl

/-- A fraction of a second with some digits is read back in front of the end. -/
theorem fraction?_padded {width n : Nat} (positive : 0 < width) (most : width ≤ 9)
    (fits : n < 10 ^ width) :
    fraction? (("." ++ padded width n).toList ++ ['Z']) = some (n * 10 ^ (9 - width), ['Z']) := by
  have hlength := length_padded positive fits
  rw [show "." = String.singleton '.' from rfl, toList_append_append, fraction?_point,
    number?_padded (by omega) (.inr (noDigitAhead_cons rfl [])), Option.map_some, List.length_append,
    hlength]
  rfl

/-- A fraction of a second is read back in front of the end. -/
theorem fraction?_fractionText {nanos : Nat} (below : nanos < 1000000000) :
    fraction? ((fractionText nanos).toList ++ ['Z']) = some (nanos, ['Z']) := by
  have scaled {a b : Nat} (h : a = b) : some (a, ['Z']) = some (b, ['Z']) := by rw [h]
  rw [fractionText]
  split
  · next zero =>
    rw [zero]
    rfl
  · split
    · next millis =>
      rw [fraction?_padded (by decide) (by decide) (by omega)]
      exact scaled (by omega)
    · split
      · next micros =>
        rw [fraction?_padded (by decide) (by decide) (by omega)]
        exact scaled (by omega)
      · rw [fraction?_padded (by decide) (by decide) (by omega)]
        exact scaled (by omega)

/-! ## The whole text -/

/-- A clock that is not ahead shows the point in time itself. -/
theorem ahead?_zero (t : Timestamp) :
    ahead? t.year t.month t.day t.hour t.minute t.second t.nanos 0 = some t := by
  obtain ⟨year, month, day, hour, minute, second, nanos, valid⟩ := t
  have bounds : hour < 24 ∧ minute < 60 := by
    simp only [isValid, Bool.and_eq_true, decide_eq_true_eq] at valid
    omega
  have hours : ((hour * 60 + minute : Int) % 1440).toNat / 60 = hour := by omega
  have minutes : ((hour * 60 + minute : Int) % 1440).toNat % 60 = minute := by omega
  have late : ¬ (hour * 60 + minute : Int) < 0 := by omega
  have early : ¬ 1440 ≤ (hour * 60 + minute : Int) := by omega
  simp [ahead?, valid, hours, minutes, late, early, ofFields?]

theorem toList_text (t : Timestamp) :
    t.text.toList = (yearText t.year).toList ++ '-' :: ((padded 2 t.month).toList ++ '-' ::
      ((padded 2 t.day).toList ++ 'T' :: ((padded 2 t.hour).toList ++ ':' ::
        ((padded 2 t.minute).toList ++ ':' :: ((padded 2 t.second).toList ++
          ((fractionText t.nanos).toList ++ ['Z'])))))) := by
  simp [text, String.toList_append]

/-- What is written is read back. -/
theorem ofText?_text (t : Timestamp) : ofText? t.text = some t := by
  have valid := t.valid
  simp only [isValid, Bool.and_eq_true, decide_eq_true_eq] at valid
  have daysLe : Calendar.daysIn t.year t.month ≤ 31 := by
    unfold Calendar.daysIn
    split
    · split <;> decide
    · split <;> decide
  have month := field?_padded (show (1 ≤ t.month ∧ t.month ≤ 12) ∧ 12 < 100 by omega)
  have day := field?_padded (show (1 ≤ t.day ∧ t.day ≤ 31) ∧ 31 < 100 by omega)
  have hour := field?_padded (show (0 ≤ t.hour ∧ t.hour ≤ 23) ∧ 23 < 100 by omega)
  have minute := field?_padded (show (0 ≤ t.minute ∧ t.minute ≤ 59) ∧ 59 < 100 by omega)
  have second := field?_padded (show (0 ≤ t.second ∧ t.second ≤ 60) ∧ 60 < 100 by omega)
  have dash := mark?_cons (c := '-') (by decide)
  have colon := mark?_cons (c := ':') (by decide)
  have divider (rest : List Char) : divider? ('T' :: rest) = some rest := rfl
  have offset : offset? (Text.trimStart ['Z']) = some (0, []) := by decide
  rw [ofText?, toList_text, ofChars?]
  simp only [Option.bind_eq_bind, year?_yearText, dash, month, day, divider, hour, colon, minute,
    second, fraction?_fractionText valid.2, offset, Option.bind_some]
  exact ahead?_zero t

end Timestamp

end Stepwise
