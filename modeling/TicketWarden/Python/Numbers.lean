/- Module: TicketWarden/Python/Numbers
   source: Python standard library (int, str, round)
   digest: The integer of a value, the text of an integer, and the decimal grid on which
   rounding changes nothing. -/

import Mathlib.Algebra.Group.Subgroup.ZPowers.Basic
import Mathlib.Data.List.DropRight
import TicketWarden.Constants

set_option autoImplicit false
set_option relaxedAutoImplicit false

namespace TicketWarden.Python

/-- `text.strip()`. -/
def strip (db : Runtime) (text : List Char) : List Char :=
  (text.dropWhile db.isSpace).rdropWhile db.isSpace

def maxStrDigits : ℕ := 4300

section

variable (db : Runtime) (decimal : Char → ℕ)

/-- The number spelled by groups of digits with underscores between them; `decimal` is
`unicodedata.decimal`. -/
def digitsValue (text : List Char) : Option ℕ :=
  let groups := text.splitOn '_'
  if (groups.all fun group => !group.isEmpty && group.all db.isDecimal) = true ∧
      groups.flatten.length ≤ maxStrDigits then
    some (groups.flatten.foldl (fun n c => 10 * n + decimal c) 0)
  else none

/-- The whitespace around a number: text of ASCII characters only is not looked up in the
database first, and the separators U+001C to U+001F are no whitespace in it. -/
def isBlank (text : List Char) (c : Char) : Bool :=
  if text.all fun c => decide (c.toNat < 128) then
    (9 ≤ c.toNat && c.toNat ≤ 13) || c.toNat == 32
  else db.isSpace c

/-- `int(text)`. -/
def intOfStr (text : String) : Option ℤ :=
  match (text.toList.dropWhile (isBlank db text.toList)).rdropWhile (isBlank db text.toList) with
  | '+' :: digits => (digitsValue db decimal digits).map Int.ofNat
  | '-' :: digits => (digitsValue db decimal digits).map fun n => -(n : ℤ)
  | digits => (digitsValue db decimal digits).map Int.ofNat

/-- `int(value)`, which raises on text that spells no number and on containers. -/
def int : Json → Option ℤ
  | .bool b => some (if b then 1 else 0)
  | .int n => some n
  | .float x => some (if 0 ≤ x then ⌊x⌋ else ⌈x⌉)
  | .str s => intOfStr db decimal s
  | .null | .list _ | .dict _ => none

end

-- irreducible, so that no proof unfolds the power where the limit is only passed on
@[irreducible] def intLimit : ℕ := 10 ^ maxStrDigits

/-- An integer of no more digits. -/
def HasText (n : ℤ) : Prop := n.natAbs < intLimit

instance (n : ℤ) : Decidable (HasText n) := inferInstanceAs (Decidable (_ < _))

/-- `str(n)`. -/
def strOfInt (n : ℤ) : Except Exc String :=
  if HasText n then .ok (toString n)
  else .error ⟨"ValueError", "Exceeds the limit (4300 digits) for integer string conversion; " ++
    "use sys.set_int_max_str_digits() to increase the limit"⟩

/-- `value or fallback`, where a missing value is `None`. -/
def jsonOr (value : Option Json) (fallback : Json) : Json :=
  match value with
  | none => fallback
  | some value => if value.truthy then value else fallback

def grid (digits : ℕ) : AddSubgroup ℚ := AddSubgroup.zmultiples ((10 : ℚ) ^ digits)⁻¹

theorem mem_grid_iff {digits : ℕ} {x : ℚ} : x ∈ grid digits ↔ ∃ n : ℤ, x = n / 10 ^ digits := by
  rw [grid, AddSubgroup.mem_zmultiples_iff]
  constructor
  · rintro ⟨n, rfl⟩
    exact ⟨n, by rw [zsmul_eq_mul, div_eq_mul_inv]⟩
  · rintro ⟨n, rfl⟩
    exact ⟨n, by rw [zsmul_eq_mul, div_eq_mul_inv]⟩

private theorem mem_grid_iff_den {digits : ℕ} {x : ℚ} :
    x ∈ grid digits ↔ (x * 10 ^ digits).den = 1 := by
  have hne : (10 : ℚ) ^ digits ≠ 0 := pow_ne_zero _ (by norm_num)
  rw [mem_grid_iff, Rat.den_eq_one_iff]
  constructor
  · rintro ⟨n, rfl⟩
    rw [div_mul_cancel₀ _ hne, Rat.num_intCast]
  · intro h
    exact ⟨(x * 10 ^ digits).num, by rw [h, mul_div_cancel_right₀ _ hne]⟩

instance (digits : ℕ) (x : ℚ) : Decidable (x ∈ grid digits) :=
  decidable_of_iff _ mem_grid_iff_den.symm

private theorem roundHalfEven_intCast (n : ℤ) : roundHalfEven n = n := by
  have hfloor : (n : ℚ).floor = n := Rat.floor_intCast n
  have hzero : (n : ℚ) - n = 0 := sub_self _
  simp only [roundHalfEven, hfloor, hzero]
  rw [if_pos (by norm_num)]

theorem round_of_mem_grid {digits : ℕ} {x : ℚ} (h : x ∈ grid digits) : round x digits = x := by
  obtain ⟨n, rfl⟩ := mem_grid_iff.mp h
  have hne : (10 : ℚ) ^ digits ≠ 0 := pow_ne_zero _ (by norm_num)
  rw [round, div_mul_cancel₀ _ hne, roundHalfEven_intCast]

end TicketWarden.Python
