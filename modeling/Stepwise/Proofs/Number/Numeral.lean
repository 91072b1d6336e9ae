/-
# Texts that denote numbers

What a text has to look like to be read as a number, said without the reader: a sign or none, and
behind it one of the names of what is no decimal, or digits with at most one point among them and an
exponent or none. Such a text denotes one double.

* `SignText`, `ExponentText`, `DecimalText`, `UnsignedText`, `NumberText` : the grammar;
* `Decimal.ofChars?_eq_some_iff`, `Binary64.ofText?_eq_some_iff` : these texts are read, and no others;
* `NumberText.isNaN_iff`, `NumberText.isPositive_iff` : which texts denote no number, and which a number
  above zero;
* `Binary64.isPositive_ofDecimal_iff` : which decimals are so small that they are read as zero.
-/
import Mathlib.Algebra.Order.Field.Power
import Mathlib.Data.List.TakeWhile
import Mathlib.Data.Rat.Cast.Order
import Mathlib.Tactic.NormNum
import Mathlib.Tactic.Positivity
import Mathlib.Tactic.Ring
import Stepwise.Number.Decimal
import Stepwise.Proofs.Wire.Timestamp

namespace Stepwise

open Timestamp (NoDigitAhead)

/-! ## The grammar -/

/-- Nothing but digits. -/
def AllDigits (ds : List Char) : Prop := ∀ c ∈ ds, c.isDigit = true

/-- A sign, which may be left out; it is true for a minus. -/
inductive SignText : List Char → Bool → Prop where
  | absent : SignText [] false
  | plus : SignText ['+'] false
  | minus : SignText ['-'] true

/-- What may follow the digits of a decimal: nothing, or a letter with a signed exponent. -/
inductive ExponentText : List Char → Int → Prop where
  | absent : ExponentText [] 0
  | given {letter : Char} {sign ds : List Char} {negative : Bool} :
      letter = 'e' ∨ letter = 'E' → SignText sign negative → ds ≠ [] → AllDigits ds →
      ExponentText (letter :: (sign ++ ds))
        (if negative then -(natOfDigits ds : Int) else natOfDigits ds)

/-- Digits with at most one point among them, and an exponent. -/
inductive DecimalText : List Char → Decimal → Prop where
  | whole {ds tail : List Char} {e : Int} :
      ds ≠ [] → AllDigits ds → ExponentText tail e →
      DecimalText (ds ++ tail) ⟨natOfDigits ds, e⟩
  | pointed {whole fraction tail : List Char} {e : Int} :
      whole ++ fraction ≠ [] → AllDigits whole → AllDigits fraction → ExponentText tail e →
      DecimalText (whole ++ '.' :: (fraction ++ tail))
        ⟨natOfDigits (whole ++ fraction), e - fraction.length⟩

/-- The text in small letters. -/
def smallLetters (cs : List Char) : String := String.ofList (cs.map Char.toLower)

/-- A name, or a decimal. -/
inductive UnsignedText : List Char → Binary64 → Prop where
  | infinite {cs : List Char} : smallLetters cs = "inf" ∨ smallLetters cs = "infinity" →
      UnsignedText cs (.infinity false)
  | nan {cs : List Char} : smallLetters cs = "nan" → UnsignedText cs .nan
  | decimal {cs : List Char} {d : Decimal} : DecimalText cs d →
      UnsignedText cs (.ofDecimal false d.digits d.exponent)

/-- The text denotes a double. -/
inductive NumberText : List Char → Binary64 → Prop where
  | signed {sign cs : List Char} {negative : Bool} {x : Binary64} :
      SignText sign negative → UnsignedText cs x →
      NumberText (sign ++ cs) (if negative then x.neg else x)

/-! ## Reading the parts -/

/-- A text that does not begin with a sign. -/
def NoSignAhead (cs : List Char) : Prop := ∀ c ∈ cs.head?, c ≠ '+' ∧ c ≠ '-'

theorem isDigit_ne {c d : Char} (h : c.isDigit = true) (hd : d.isDigit = false) : c ≠ d := by
  rintro rfl
  rw [h] at hd
  cases hd

theorem noSignAhead_of_isDigit {c : Char} (h : c.isDigit = true) (cs : List Char) :
    NoSignAhead (c :: cs) := by
  intro d hd
  obtain rfl := Option.some.inj hd
  exact ⟨isDigit_ne h (by decide), isDigit_ne h (by decide)⟩

theorem AllDigits.noSignAhead {ds : List Char} (h : AllDigits ds) : NoSignAhead ds := by
  cases ds with
  | nil => exact fun c hc => by cases hc
  | cons c cs => exact noSignAhead_of_isDigit (h c List.mem_cons_self) cs

/-- A sign is taken off, and the rest is what follows it. -/
theorem takeSign_spec (cs : List Char) :
    ∃ sign, SignText sign (takeSign cs).1 ∧ cs = sign ++ (takeSign cs).2 := by
  unfold takeSign
  split
  · exact ⟨['+'], .plus, rfl⟩
  · exact ⟨['-'], .minus, rfl⟩
  · exact ⟨[], .absent, rfl⟩

theorem takeSign_append {sign cs : List Char} {negative : Bool} (h : SignText sign negative)
    (ahead : NoSignAhead cs) : takeSign (sign ++ cs) = (negative, cs) := by
  cases h with
  | plus => rfl
  | minus => rfl
  | absent =>
    rw [List.nil_append]
    unfold takeSign
    split
    · exact absurd rfl (ahead '+' rfl).1
    · exact absurd rfl (ahead '-' rfl).2
    · rfl

theorem signedDigits?_eq_some_iff {cs ds : List Char} {negative : Bool} :
    signedDigits? cs = some (negative, ds) ↔
      ∃ sign, SignText sign negative ∧ ds ≠ [] ∧ AllDigits ds ∧ cs = sign ++ ds := by
  have guarded : signedDigits? cs =
      if ((takeSign cs).2.isEmpty || !(takeSign cs).2.all Char.isDigit) = true then none
      else some (takeSign cs) := rfl
  have guard_iff (ds : List Char) :
      ¬ (ds.isEmpty || !ds.all Char.isDigit) = true ↔ ds ≠ [] ∧ AllDigits ds := by
    simp [AllDigits]
  rw [guarded, Option.ite_none_left_eq_some, guard_iff]
  constructor
  · rintro ⟨⟨nonempty, digits⟩, h⟩
    obtain ⟨sign, hsign, hcs⟩ := takeSign_spec cs
    rw [Option.some.inj h] at nonempty digits hsign hcs
    exact ⟨sign, hsign, nonempty, digits, hcs⟩
  · rintro ⟨sign, hsign, nonempty, digits, rfl⟩
    rw [takeSign_append hsign digits.noSignAhead]
    exact ⟨⟨nonempty, digits⟩, rfl⟩

/-- Neither a digit nor a point begins an exponent. -/
theorem ExponentText.ahead {tail : List Char} {e : Int} (h : ExponentText tail e) :
    NoDigitAhead tail ∧ ∀ cs, tail ≠ '.' :: cs := by
  cases h with
  | absent => exact ⟨fun c hc => (by cases hc), fun cs hcs => by cases hcs⟩
  | given hletter =>
    constructor
    · intro c hc
      obtain rfl := Option.some.inj hc
      rcases hletter with rfl | rfl <;> rfl
    · intro cs hcs
      rw [(List.cons.inj hcs).1] at hletter
      exact absurd hletter (by decide)

theorem NoDigitAhead.takeWhile_eq_nil {cs : List Char} (h : NoDigitAhead cs) :
    cs.takeWhile Char.isDigit = [] := by
  cases cs with
  | nil => rfl
  | cons c cs => rw [List.takeWhile_cons_of_neg (by rw [h c rfl]; exact Bool.false_ne_true)]

/-- Digits are taken up to what is no digit. -/
theorem AllDigits.takeWhile_append {ds tail : List Char} (h : AllDigits ds)
    (ahead : NoDigitAhead tail) : (ds ++ tail).takeWhile Char.isDigit = ds := by
  rw [List.takeWhile_append_of_pos h, NoDigitAhead.takeWhile_eq_nil ahead, List.append_nil]

theorem AllDigits.dropWhile_append {ds tail : List Char} (h : AllDigits ds)
    (ahead : NoDigitAhead tail) : (ds ++ tail).dropWhile Char.isDigit = tail := by
  have hsplit := List.takeWhile_append_dropWhile (p := Char.isDigit) (l := ds ++ tail)
  rw [h.takeWhile_append ahead] at hsplit
  exact List.append_cancel_left hsplit

/-- Every text is digits and something that does not begin with one. -/
theorem exists_digits (cs : List Char) :
    ∃ ds tail, AllDigits ds ∧ NoDigitAhead tail ∧ cs = ds ++ tail := by
  refine ⟨cs.takeWhile Char.isDigit, cs.dropWhile Char.isDigit, fun _ hc => List.mem_takeWhile_imp hc,
    fun c hc => ?_, List.takeWhile_append_dropWhile.symm⟩
  have := List.head?_dropWhile_not Char.isDigit cs
  rw [Option.mem_def.1 hc] at this
  exact this

namespace Decimal

theorem exponent?_eq_some_iff {cs : List Char} {e : Int} :
    exponent? cs = some e ↔ ExponentText cs e := by
  constructor
  · intro h
    cases cs with
    | nil =>
      obtain rfl := Option.some.inj h
      exact .absent
    | cons letter cs =>
      rw [exponent?, Option.ite_none_right_eq_some] at h
      obtain ⟨hletter, h⟩ := h
      obtain ⟨⟨negative, ds⟩, hds, rfl⟩ := Option.map_eq_some_iff.1 h
      obtain ⟨sign, hsign, nonempty, digits, rfl⟩ := signedDigits?_eq_some_iff.1 hds
      exact .given (by simpa using hletter) hsign nonempty digits
  · intro h
    cases h with
    | absent => rfl
    | given hletter hsign nonempty digits =>
      rw [exponent?, if_pos (by simpa using hletter),
        signedDigits?_eq_some_iff.2 ⟨_, hsign, nonempty, digits, rfl⟩]
      rfl

/-- Digits without a point. -/
theorem ofChars?_whole {ds tail : List Char} (digits : AllDigits ds) (ahead : NoDigitAhead tail)
    (point : ∀ cs, tail ≠ '.' :: cs) :
    ofChars? (ds ++ tail) =
      if ds = [] then none else (exponent? tail).map (⟨natOfDigits ds, ·⟩) := by
  unfold ofChars?
  rw [digits.takeWhile_append ahead, digits.dropWhile_append ahead]
  dsimp only
  split
  next cs => exact absurd rfl (point cs)
  next => simp

/-- Digits with a point. -/
theorem ofChars?_pointed {whole fraction tail : List Char} (hwhole : AllDigits whole)
    (hfraction : AllDigits fraction) (ahead : NoDigitAhead tail) :
    ofChars? (whole ++ '.' :: (fraction ++ tail)) =
      if whole ++ fraction = [] then none
      else (exponent? tail).map (⟨natOfDigits (whole ++ fraction), · - fraction.length⟩) := by
  have quiet : NoDigitAhead ('.' :: (fraction ++ tail)) := fun c hc => by
    obtain rfl := Option.some.inj hc
    rfl
  unfold ofChars?
  rw [hwhole.takeWhile_append quiet, hwhole.dropWhile_append quiet]
  simp only [hfraction.takeWhile_append ahead, hfraction.dropWhile_append ahead]
  simp

/-- Exactly the decimals of the grammar are read. -/
theorem ofChars?_eq_some_iff {cs : List Char} {d : Decimal} :
    ofChars? cs = some d ↔ DecimalText cs d := by
  constructor
  · intro h
    rcases exists_digits cs with ⟨ds, tail, digits, ahead, rfl⟩
    by_cases point : ∃ rest, tail = '.' :: rest
    · obtain ⟨rest, rfl⟩ := point
      obtain ⟨fraction, tail, hfraction, htail, rfl⟩ := exists_digits rest
      rw [ofChars?_pointed digits hfraction htail, Option.ite_none_left_eq_some] at h
      obtain ⟨nonempty, h⟩ := h
      obtain ⟨e, he, rfl⟩ := Option.map_eq_some_iff.1 h
      exact .pointed nonempty digits hfraction (exponent?_eq_some_iff.1 he)
    · rw [ofChars?_whole digits ahead fun rest hrest => point ⟨rest, hrest⟩,
        Option.ite_none_left_eq_some] at h
      obtain ⟨nonempty, h⟩ := h
      obtain ⟨e, he, rfl⟩ := Option.map_eq_some_iff.1 h
      exact .whole nonempty digits (exponent?_eq_some_iff.1 he)
  · intro h
    cases h with
    | whole nonempty digits htail =>
      rw [ofChars?_whole digits htail.ahead.1 htail.ahead.2, if_neg nonempty,
        exponent?_eq_some_iff.2 htail]
      rfl
    | pointed nonempty hwhole hfraction htail =>
      rw [ofChars?_pointed hwhole hfraction htail.ahead.1, if_neg nonempty,
        exponent?_eq_some_iff.2 htail]
      rfl

end Decimal

/-! ## Reading a number -/

/-- A decimal begins with a digit or with the point. -/
theorem DecimalText.exists_head {cs : List Char} {d : Decimal} (h : DecimalText cs d) :
    ∃ c rest, cs = c :: rest ∧ (c.isDigit = true ∨ c = '.') := by
  have digits_head {ds rest : List Char} (nonempty : ds ≠ []) (digits : AllDigits ds) :
      ∃ c cs, ds ++ rest = c :: cs ∧ (c.isDigit = true ∨ c = '.') := by
    cases ds with
    | nil => exact absurd rfl nonempty
    | cons c ds => exact ⟨c, ds ++ rest, rfl, .inl (digits c List.mem_cons_self)⟩
  cases h with
  | whole nonempty digits => exact digits_head nonempty digits
  | @pointed whole fraction tail e _ hwhole =>
    by_cases hempty : whole = []
    · subst hempty
      exact ⟨'.', fraction ++ tail, rfl, .inr rfl⟩
    · exact digits_head hempty hwhole

/-- A text is not empty, and begins with a letter, if its small letters do. -/
theorem exists_cons_of_smallLetters {cs : List Char} {name : String} {first : Char}
    (h : smallLetters cs = name) (hname : name.toList.head? = some first) :
    ∃ c rest, cs = c :: rest ∧ c.toLower = first := by
  subst h
  rw [smallLetters, String.toList_ofList] at hname
  cases cs with
  | nil => cases hname
  | cons c rest => exact ⟨c, rest, rfl, Option.some.inj hname⟩

theorem toLower_of_isDigit {c : Char} (h : c.isDigit = true) : c.toLower = c := by
  have hc : 48 ≤ c.toNat ∧ c.toNat ≤ 57 := by
    simpa [Char.isDigit, UInt32.le_iff_toNat_le] using h
  have hsmall : ¬ (c.val ≥ 'A'.val ∧ c.val ≤ 'Z'.val) := by
    rintro ⟨hle, -⟩
    have : 65 ≤ c.toNat := by simpa [UInt32.le_iff_toNat_le] using hle
    omega
  exact dif_neg hsmall

/-- A decimal is no name. -/
theorem DecimalText.smallLetters_ne {cs : List Char} {d : Decimal} (h : DecimalText cs d) {first : Char}
    {name : String} (hname : name.toList.head? = some first) (letter : first.isDigit = false)
    (point : first ≠ '.') : smallLetters cs ≠ name := by
  intro hcs
  obtain ⟨c, rest, rfl, hc⟩ := h.exists_head
  obtain ⟨_, _, hcons, hfirst⟩ := exists_cons_of_smallLetters hcs hname
  obtain ⟨rfl, rfl⟩ := List.cons.inj hcons
  rcases hc with hc | rfl
  · rw [toLower_of_isDigit hc] at hfirst
    exact isDigit_ne hc letter hfirst
  · exact point hfirst.symm

/-- An unsigned number does not begin with a sign. -/
theorem UnsignedText.noSignAhead {cs : List Char} {x : Binary64} (h : UnsignedText cs x) :
    NoSignAhead cs := by
  have of_name {name : String} {first : Char} (hcs : smallLetters cs = name)
      (hname : name.toList.head? = some first) (plus : first ≠ '+') (minus : first ≠ '-') :
      NoSignAhead cs := by
    obtain ⟨c, rest, rfl, hc⟩ := exists_cons_of_smallLetters hcs hname
    intro d hd
    obtain rfl := Option.some.inj hd
    constructor
    · rintro rfl
      exact plus hc.symm
    · rintro rfl
      exact minus hc.symm
  cases h with
  | infinite hname =>
    rcases hname with hname | hname
    · exact of_name hname rfl (by decide) (by decide)
    · exact of_name hname rfl (by decide) (by decide)
  | nan hname => exact of_name hname rfl (by decide) (by decide)
  | decimal hd =>
    obtain ⟨c, rest, rfl, hc | rfl⟩ := hd.exists_head
    · exact noSignAhead_of_isDigit hc rest
    · intro d hd
      obtain rfl := Option.some.inj hd
      decide

namespace Binary64

theorem ofUnsigned?_eq (cs : List Char) :
    ofUnsigned? cs =
      if smallLetters cs = "inf" ∨ smallLetters cs = "infinity" then some (infinity false)
      else if smallLetters cs = "nan" then some nan
      else (Decimal.ofChars? cs).map fun d => ofDecimal false d.digits d.exponent := by
  simp only [ofUnsigned?, smallLetters, Bool.or_eq_true, decide_eq_true_eq]
  congr

theorem ofUnsigned?_eq_some_iff {cs : List Char} {x : Binary64} :
    ofUnsigned? cs = some x ↔ UnsignedText cs x := by
  rw [ofUnsigned?_eq]
  constructor
  · intro h
    split at h
    next hname =>
      obtain rfl := Option.some.inj h
      exact .infinite hname
    next =>
      split at h
      next hname =>
        obtain rfl := Option.some.inj h
        exact .nan hname
      next =>
        obtain ⟨d, hd, rfl⟩ := Option.map_eq_some_iff.1 h
        exact .decimal (Decimal.ofChars?_eq_some_iff.1 hd)
  · intro h
    cases h with
    | infinite hname => rw [if_pos hname]
    | nan hname => rw [hname, if_neg (by decide), if_pos rfl]
    | decimal hd =>
      have hnot : ¬ (smallLetters cs = "inf" ∨ smallLetters cs = "infinity") := fun hname =>
        hname.elim (hd.smallLetters_ne rfl rfl (by decide)) (hd.smallLetters_ne rfl rfl (by decide))
      rw [if_neg hnot, if_neg (hd.smallLetters_ne rfl rfl (by decide)),
        Decimal.ofChars?_eq_some_iff.2 hd]
      rfl

theorem ofText?_eq (s : String) :
    ofText? s = (ofUnsigned? (takeSign s.toList).2).map
      fun x => if (takeSign s.toList).1 then x.neg else x := rfl

/-- Exactly the texts that denote a number are read, as what they denote. -/
theorem ofText?_eq_some_iff {s : String} {x : Binary64} :
    ofText? s = some x ↔ NumberText s.toList x := by
  rw [ofText?_eq]
  constructor
  · intro h
    obtain ⟨sign, hsign, hs⟩ := takeSign_spec s.toList
    obtain ⟨y, hy, rfl⟩ := Option.map_eq_some_iff.1 h
    have written := NumberText.signed hsign (ofUnsigned?_eq_some_iff.1 hy)
    rwa [← hs] at written
  · generalize s.toList = cs
    rintro ⟨hsign, hx⟩
    rw [takeSign_append hsign hx.noSignAhead, ofUnsigned?_eq_some_iff.2 hx]
    rfl

theorem nearestBits_le (num den : Nat) : nearestBits num den ≤ infinityBits := by
  unfold nearestBits
  split
  · exact Nat.zero_le _
  · exact Nat.min_le_right _ _

/-- A decimal is a number. -/
theorem isNaN_ofDecimal (negative : Bool) (digits : Nat) (exponent : Int) :
    (ofDecimal negative digits exponent).isNaN = false := by
  have number {x : Binary64} (h : x.magnitude ≤ infinityBits) : x.isNaN = false :=
    decide_eq_false (Nat.not_lt.2 h)
  unfold ofDecimal
  split
  · exact number (Nat.zero_le _)
  · split
    · exact number (Nat.le_refl _)
    · split
      · exact number (Nat.zero_le _)
      · exact number (nearestBits_le _ _)

theorem negative_ofDecimal (negative : Bool) (digits : Nat) (exponent : Int) :
    (ofDecimal negative digits exponent).negative = negative := by
  unfold ofDecimal
  split
  · rfl
  · split
    · rfl
    · split <;> rfl

end Binary64

/-- A text denotes one double. -/
theorem NumberText.unique {cs : List Char} {x y : Binary64} (hx : NumberText cs x)
    (hy : NumberText cs y) : x = y := by
  have read {z : Binary64} (hz : NumberText cs z) : Binary64.ofText? (String.ofList cs) = some z :=
    Binary64.ofText?_eq_some_iff.2 (by rwa [String.toList_ofList])
  exact Option.some.inj ((read hx).symm.trans (read hy))

/-- What a text denotes is no number exactly if the text is that name, with a sign or without. -/
theorem NumberText.isNaN_iff {cs : List Char} {x : Binary64} (h : NumberText cs x) :
    x.isNaN = true ↔
      ∃ sign negative rest, SignText sign negative ∧ cs = sign ++ rest ∧ smallLetters rest = "nan" := by
  have isNaN_signed (negative : Bool) (y : Binary64) :
      (if negative then y.neg else y).isNaN = y.isNaN := by cases negative <;> rfl
  constructor
  · intro hnan
    obtain ⟨hsign, hx⟩ := h
    rw [isNaN_signed] at hnan
    cases hx with
    | infinite => exact absurd hnan (by decide)
    | nan hname => exact ⟨_, _, _, hsign, rfl, hname⟩
    | decimal => rw [Binary64.isNaN_ofDecimal] at hnan; cases hnan
  · rintro ⟨sign, negative, rest, hsign, rfl, hname⟩
    rw [h.unique (.signed hsign (.nan hname)), isNaN_signed]
    decide

/-! ## How small a decimal may be -/

/-- A quotient is rounded to zero up to one half. -/
theorem roundQuotient_eq_zero_iff {num den : Nat} (hden : 0 < den) :
    roundQuotient num den = 0 ↔ 2 * num ≤ den := by
  have hmod := Nat.div_add_mod num den
  have hlt := Nat.mod_lt num hden
  unfold roundQuotient
  dsimp only
  by_cases hsmall : num < den
  · rw [Nat.div_eq_of_lt hsmall, Nat.mod_eq_of_lt hsmall]
    split
    · omega
    · split <;> simp <;> omega
  · have hwhole : 0 < num / den := Nat.div_pos (by omega) hden
    split
    · omega
    · split
      · omega
      · split <;> omega

namespace Binary64

/-- Half of the least double above zero is 2^(-halfPlaces). -/
def halfPlaces : Nat := 1075

theorem lt_mul_of_floorLog2 {num den : Nat} (hnum : num ≠ 0)
    (h : -1022 < floorLog2 num den) : den < num * 2 ^ halfPlaces := by
  have hlog : (Nat.log2 num : Int) - Nat.log2 den > -1022 := by
    unfold floorLog2 at h
    dsimp only at h
    split at h <;> omega
  have hplaces : halfPlaces = 1075 := rfl
  calc den < 2 ^ (den.log2 + 1) := Nat.lt_log2_self
    _ ≤ 2 ^ (num.log2 + halfPlaces) := Nat.pow_le_pow_right (by decide) (by omega)
    _ = 2 ^ num.log2 * 2 ^ halfPlaces := Nat.pow_add ..
    _ ≤ num * 2 ^ halfPlaces := Nat.mul_le_mul_right _ (Nat.log2_self_le hnum)

/-- A quotient is read as zero exactly if it is at most half of the least double above zero. -/
theorem nearestBits_eq_zero_iff {num den : Nat} (hden : 0 < den) :
    nearestBits num den = 0 ↔ num * 2 ^ halfPlaces ≤ den := by
  unfold nearestBits
  split
  next hzero => simp [hzero]
  next hnum =>
    dsimp only
    have hinf : 0 < infinityBits := by decide
    by_cases hlarge : -1022 < floorLog2 num den
    · have hlt := lt_mul_of_floorLog2 hnum hlarge
      rw [Int.max_eq_left (by omega)]
      have hshift : 0 < (floorLog2 num den - 52 + 1074).toNat <<< 52 := by
        rw [Nat.shiftLeft_eq]
        exact Nat.mul_pos (by omega) (by decide)
      constructor
      · intro h
        omega
      · intro h
        omega
    · obtain ⟨places, hplaces⟩ : ∃ places : Nat, places = 1074 := ⟨_, rfl⟩
      have hhalf : halfPlaces = places + 1 := by rw [hplaces]; rfl
      have hunit : ((-1074 : Int)) = -places := by omega
      have hbits : (-(places : Int) + 1074).toNat <<< 52 = 0 := by
        rw [hplaces]
        rfl
      rw [Int.max_eq_right (by omega), hunit, hbits, Nat.zero_add, Int.neg_neg, Int.toNat_natCast,
        show (-(places : Int)).toNat = 0 by omega, Nat.shiftLeft_zero, hhalf, Nat.pow_succ',
        Nat.mul_left_comm, ← Nat.shiftLeft_eq, ← roundQuotient_eq_zero_iff hden]
      omega

theorem ofDecimal_magnitude_eq_zero_iff (digits : Nat) (exponent : Int) :
    (ofDecimal false digits exponent).magnitude = 0 ↔
      digits * 10 ^ exponent.toNat * 2 ^ halfPlaces ≤ 10 ^ (-exponent).toNat := by
  unfold ofDecimal
  split
  next hzero => simp [hzero]
  next hdigits =>
    have hplaces : halfPlaces = 1075 := rfl
    split
    next hlarge =>
      have hnone : (-exponent).toNat = 0 := by omega
      have hone : 1 < digits * 10 ^ exponent.toNat * 2 ^ halfPlaces := by
        calc 1 < 2 ^ halfPlaces := Nat.one_lt_two_pow (by decide)
          _ ≤ digits * 10 ^ exponent.toNat * 2 ^ halfPlaces :=
            Nat.le_mul_of_pos_left _ (Nat.mul_pos (Nat.pos_of_ne_zero hdigits) (Nat.pow_pos (by decide)))
      rw [hnone, Nat.pow_zero]
      constructor
      · exact fun h => absurd h (by decide)
      · exact fun h => absurd hone (Nat.not_lt.2 h)
    next =>
      split
      next hsmall =>
        have hnone : exponent.toNat = 0 := by omega
        rw [hnone, Nat.pow_zero, Nat.mul_one]
        refine ⟨fun _ => ?_, fun _ => rfl⟩
        calc digits * 2 ^ halfPlaces ≤ 2 ^ (digits.log2 + 1) * 2 ^ halfPlaces :=
              Nat.mul_le_mul_right _ (Nat.le_of_lt Nat.lt_log2_self)
          _ = 2 ^ (digits.log2 + 1 + halfPlaces) := (Nat.pow_add ..).symm
          _ ≤ 2 ^ (3 * (-exponent).toNat) := Nat.pow_le_pow_right (by decide) (by omega)
          _ = 8 ^ (-exponent).toNat := Nat.pow_mul ..
          _ ≤ 10 ^ (-exponent).toNat := Nat.pow_le_pow_left (by decide) _
      next => exact nearestBits_eq_zero_iff (Nat.pow_pos (by decide))

end Binary64

/-- The number that a decimal writes. -/
def Decimal.value (d : Decimal) : ℚ := d.digits * 10 ^ d.exponent

/-- Whether a decimal is above a fraction, without fractions. -/
theorem Decimal.lt_value_iff (d : Decimal) (places : Nat) :
    1 / 2 ^ places < d.value ↔
      10 ^ (-d.exponent).toNat < d.digits * 10 ^ d.exponent.toNat * 2 ^ places := by
  have hpos : (0 : ℚ) < 2 ^ places := by positivity
  have hden : (0 : ℚ) < 10 ^ (-d.exponent).toNat := by positivity
  have hpow : (10 : ℚ) ^ d.exponent * 10 ^ (-d.exponent).toNat = 10 ^ d.exponent.toNat := by
    rw [← zpow_natCast, ← zpow_natCast, ← zpow_add₀ (by norm_num)]
    congr 1
    omega
  have hvalue : d.value * 2 ^ places * 10 ^ (-d.exponent).toNat =
      (d.digits * 10 ^ d.exponent.toNat * 2 ^ places : ℕ) := by
    push_cast
    rw [← hpow, Decimal.value]
    ring
  rw [div_lt_iff₀ hpos, ← mul_lt_mul_iff_left₀ hden, hvalue, one_mul]
  exact_mod_cast Iff.rfl

/-- A decimal is read as a number above zero unless it is at most half of the least such number. -/
theorem Binary64.isPositive_ofDecimal_iff (d : Decimal) :
    (Binary64.ofDecimal false d.digits d.exponent).isPositive = true ↔
      1 / 2 ^ Binary64.halfPlaces < d.value := by
  rw [d.lt_value_iff, ← Nat.not_le, ← ofDecimal_magnitude_eq_zero_iff]
  rw [isPositive, isNaN_ofDecimal, negative_ofDecimal, isZero]
  simp

theorem UnsignedText.negative {cs : List Char} {x : Binary64} (h : UnsignedText cs x) :
    x.negative = false := by
  cases h with
  | infinite => rfl
  | nan => rfl
  | decimal => exact Binary64.negative_ofDecimal _ _ _

/-- What a text denotes is above zero exactly if there is no minus, and behind the sign there is a name
of infinity or a decimal that is not rounded to zero. -/
theorem NumberText.isPositive_iff {cs : List Char} {x : Binary64} (h : NumberText cs x) :
    x.isPositive = true ↔
      ∃ sign rest, SignText sign false ∧ cs = sign ++ rest ∧
        (smallLetters rest = "inf" ∨ smallLetters rest = "infinity" ∨
          ∃ d, DecimalText rest d ∧ 1 / 2 ^ Binary64.halfPlaces < d.value) := by
  constructor
  · intro hpos
    obtain @⟨sign, rest, negative, y, hsign, hx⟩ := h
    cases negative with
    | true =>
      have : y.neg.negative = true := by rw [Binary64.neg, hx.negative]; rfl
      simp [Binary64.isPositive, this] at hpos
    | false =>
      refine ⟨sign, rest, hsign, rfl, ?_⟩
      cases hx with
      | infinite hname => exact hname.imp_right .inl
      | nan => exact absurd hpos (by decide)
      | decimal hd => exact .inr (.inr ⟨_, hd, (Binary64.isPositive_ofDecimal_iff _).1 hpos⟩)
  · rintro ⟨sign, rest, hsign, rfl, hrest⟩
    rcases hrest with hname | hname | ⟨d, hd, hpos⟩
    · rw [h.unique (.signed hsign (.infinite (.inl hname)))]
      decide
    · rw [h.unique (.signed hsign (.infinite (.inr hname)))]
      decide
    · rw [h.unique (.signed hsign (.decimal hd))]
      exact (Binary64.isPositive_ofDecimal_iff d).2 hpos

end Stepwise
