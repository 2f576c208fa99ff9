import Preseed.Texts.Fields
import Preseed.Zram.BlockState

/-!
# Configuration values

The checks of `Zram::Types` and `Zram::Sizing` which the validator makes of the texts of a
configuration. A fatal error is `none`, and numbers are exact, as the interpreter's are
below `2 ^ 53`.
-/

namespace Preseed.Zram

/-- `/\A[0-9]+\z/`. -/
def isUint (value : List Char) : Bool := !value.isEmpty && value.all Char.isDigit

/-- `ensure_uint`. -/
def ensureUint (value : List Char) : Option ℕ := do
  guard (isUint value)
  return digitsNumber value

/-- `ensure_positive_uint`. -/
def ensurePositiveUint (value : List Char) : Option ℕ := do
  let int ← ensureUint value
  guard (0 < int)
  return int

/-- `ensure_percent`. -/
def ensurePercent (value : List Char) : Option ℕ := do
  let int ← ensureUint value
  guard (int ≤ 100)
  return int

/-- `ensure_bool`. -/
def ensureBool (value : List Char) : Option Bool :=
  if value = ['1'] then some true else if value = ['0'] then some false else none

/-- `_ensure_range`. -/
def ensureRange (value minimum maximum : ℕ) : Option ℕ := do
  guard (minimum ≤ value ∧ value ≤ maximum)
  return value

/-- `decimal_to_millionths`: the first six digits of the fraction count. -/
def decimalToMillionths (value : List Char) : Option ℕ := do
  let whole ← ensureUint (value.takeWhile (· ≠ '.'))
  match value.dropWhile (· ≠ '.') with
  | [] => return whole * 1000000
  | _ :: frac =>
    guard (isUint frac)
    return whole * 1000000 + digitsNumber ((frac ++ "000000".toList).take 6)

/-- `ensure_psi_millionths`. -/
def ensurePsiMillionths (value : List Char) : Option ℕ := do
  let units ← decimalToMillionths value
  guard (units ≤ 100000000)
  return units

/-- `%multiplier`. -/
def multiplier : Char → Option ℕ
  | 'K' | 'k' => some 1024
  | 'M' | 'm' => some (1024 * 1024)
  | 'G' | 'g' => some (1024 * 1024 * 1024)
  | 'T' | 't' => some (1024 * 1024 * 1024 * 1024)
  | _ => none

/-- `size_to_bytes`. -/
def sizeToBytes (value : List Char) : Option ℕ :=
  if value = [] then some 0
  else do
    let number ← ensureUint (value.takeWhile Char.isDigit)
    match value.dropWhile Char.isDigit with
    | [] => return number
    | unit :: suffix =>
      let factor ← multiplier unit
      guard (suffix ∈ [[], ['B'], ['b'], ['i', 'B'], ['i', 'b']])
      return number * factor

/-- `bytes_to_writeback_pages`. -/
def bytesToWritebackPages (bytes : ℕ) : ℕ := bytes / 4096

theorem of_ensurePositiveUint {value : List Char} {n : ℕ}
    (h : ensurePositiveUint value = some n) : 0 < n := by
  simp only [ensurePositiveUint, Option.bind_eq_bind, Option.bind_eq_some_iff, Option.guard_eq_some',
    Option.pure_def, Option.some.injEq] at h
  obtain ⟨int, -, -, hpos, rfl⟩ := h
  exact hpos

theorem of_ensurePercent {value : List Char} {n : ℕ}
    (h : ensurePercent value = some n) : n ≤ 100 := by
  simp only [ensurePercent, Option.bind_eq_bind, Option.bind_eq_some_iff, Option.guard_eq_some',
    Option.pure_def, Option.some.injEq] at h
  obtain ⟨int, -, -, hle, rfl⟩ := h
  exact hle

end Preseed.Zram
