/-
# Hexadecimal digits

* `Hex.digit`, `Hex.digits` : the digit of a value, and the low digits of a number, in lower case;
* `Hex.value?`, `Hex.nat?` : the value of a digit in either case, and of a list of digits;
* `Hex.nat?_digits` : the low digits of a number write its remainder.
-/

namespace Stepwise.Hex

/-- A hexadecimal digit in lower case. -/
def digit (n : Nat) : Char :=
  if n < 10 then Char.ofNat (0x30 + n) else Char.ofNat (0x57 + n)

/-- The value of a hexadecimal digit. -/
def value? (c : Char) : Option Nat :=
  if c.isDigit then some (c.toNat - 0x30)
  else if 'a' ≤ c && c ≤ 'f' then some (c.toNat - 0x57)
  else if 'A' ≤ c && c ≤ 'F' then some (c.toNat - 0x37)
  else none

/-- The number that hexadecimal digits write. -/
def nat? (ds : List Char) : Option Nat :=
  ds.foldlM (fun n d => (value? d).map (n * 16 + ·)) 0

/-- The low hexadecimal digits of a number, highest first. -/
def digits : Nat → Nat → List Char
  | 0, _ => []
  | count + 1, n => digits count (n / 16) ++ [digit (n % 16)]

theorem length_digits (count n : Nat) : (digits count n).length = count := by
  induction count generalizing n with
  | zero => rfl
  | succ count ih => simp [digits, ih]

/-- A written hexadecimal digit has its value. -/
theorem value?_digit : ∀ d : Nat, d < 16 → value? (digit d) = some d := by
  decide

/-- Digits after which one more follows write sixteen times as much and that one. -/
theorem nat?_append (ds : List Char) (c : Char) :
    nat? (ds ++ [c]) = (nat? ds).bind fun n => (value? c).map (n * 16 + ·) := by
  simp [nat?, List.foldlM_append]

/-- The low digits of a number write its remainder. -/
theorem nat?_digits (count n : Nat) : nat? (digits count n) = some (n % Nat.pow 16 count) := by
  induction count generalizing n with
  | zero => simp [digits, nat?, Nat.mod_one]
  | succ count ih =>
    rw [digits, nat?_append, ih, Option.bind_some,
      value?_digit _ (Nat.mod_lt _ (by decide)), Option.map_some, Nat.pow_eq, Nat.pow_eq, Nat.pow_succ']
    congr 1
    rw [Nat.mod_mul]
    omega

end Stepwise.Hex
