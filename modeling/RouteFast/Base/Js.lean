import Mathlib.Data.List.DropRight
import Mathlib.Data.Rat.Floor
import Mathlib.Tactic.Linarith
import Mathlib.Tactic.Positivity

/-! The pieces of JavaScript the model leans on: `String.prototype.trim`, `toFixed`, and
object literals whose spread lets a later property override an earlier one. -/

namespace Js

/-- WhiteSpace and LineTerminator, the characters `trim` removes. -/
def isSpace (c : Char) : Bool :=
  (9 ≤ c.toNat && c.toNat ≤ 13) || (0x2000 ≤ c.toNat && c.toNat ≤ 0x200A) ||
    [0x20, 0xA0, 0x1680, 0x2028, 0x2029, 0x202F, 0x205F, 0x3000, 0xFEFF].contains c.toNat

def trimList (cs : List Char) : List Char := (cs.dropWhile isSpace).rdropWhile isSpace

def trim (s : String) : String := String.ofList (trimList s.toList)

theorem trimList_trimList (cs : List Char) : trimList (trimList cs) = trimList cs := by
  unfold trimList
  set ds := cs.dropWhile isSpace with hds
  have hfirst : (ds.rdropWhile isSpace).dropWhile isSpace = ds.rdropWhile isSpace := by
    rw [List.dropWhile_eq_self_iff]
    intro hlen
    have hpre : ds.rdropWhile isSpace <+: ds := List.rdropWhile_prefix isSpace ds
    have hds0 : 0 < ds.length := lt_of_lt_of_le hlen hpre.length_le
    have hkeep : (ds.rdropWhile isSpace)[0] = ds[0] := hpre.getElem hlen
    have hns : ¬ isSpace ds[0] = true :=
      List.dropWhile_eq_self_iff.1 (List.dropWhile_idempotent isSpace cs) hds0
    simpa [hkeep] using hns
  rw [hfirst, List.rdropWhile_idempotent]

@[simp] theorem trim_trim (s : String) : trim (trim s) = trim s := by
  simp [trim, trimList_trimList]

/-- `Number(x.toFixed(digits))`: a tie goes away from zero. -/
def toFixed (digits : ℕ) (x : ℚ) : ℚ :=
  if x < 0 then -(⌊-x * 10 ^ digits + 1 / 2⌋ / 10 ^ digits)
  else ⌊x * 10 ^ digits + 1 / 2⌋ / 10 ^ digits

theorem toFixed_nonneg {digits : ℕ} {x : ℚ} (h : 0 ≤ x) : 0 ≤ toFixed digits x := by
  unfold toFixed
  rw [if_neg (not_lt.2 h)]
  have hfloor : (0 : ℤ) ≤ ⌊x * 10 ^ digits + 1 / 2⌋ := Int.floor_nonneg.2 (by positivity)
  have hcast : (0 : ℚ) ≤ ⌊x * 10 ^ digits + 1 / 2⌋ := by exact_mod_cast hfloor
  positivity

theorem toFixed_mono (digits : ℕ) {x y : ℚ} (h : x ≤ y) : toFixed digits x ≤ toFixed digits y := by
  have hpow : (0 : ℚ) < 10 ^ digits := by positivity
  by_cases hy : y < 0
  · have hx : x < 0 := h.trans_lt hy
    have hfloor : ⌊-y * 10 ^ digits + 1 / 2⌋ ≤ ⌊-x * 10 ^ digits + 1 / 2⌋ :=
      Int.floor_mono (by nlinarith)
    have hcast : (⌊-y * 10 ^ digits + 1 / 2⌋ : ℚ) ≤ ⌊-x * 10 ^ digits + 1 / 2⌋ := by
      exact_mod_cast hfloor
    simp only [toFixed, if_pos hx, if_pos hy]
    exact neg_le_neg (div_le_div_of_nonneg_right hcast hpow.le)
  · by_cases hx : x < 0
    · have hfloor : (0 : ℤ) ≤ ⌊-x * 10 ^ digits + 1 / 2⌋ :=
        Int.floor_nonneg.2 (by nlinarith)
      have hcast : (0 : ℚ) ≤ ⌊-x * 10 ^ digits + 1 / 2⌋ := by exact_mod_cast hfloor
      have hneg : toFixed digits x ≤ 0 := by
        simp only [toFixed, if_pos hx]
        exact neg_nonpos.2 (div_nonneg hcast hpow.le)
      exact hneg.trans (toFixed_nonneg (not_lt.1 hy))
    · have hfloor : ⌊x * 10 ^ digits + 1 / 2⌋ ≤ ⌊y * 10 ^ digits + 1 / 2⌋ :=
        Int.floor_mono (by nlinarith)
      have hcast : (⌊x * 10 ^ digits + 1 / 2⌋ : ℚ) ≤ ⌊y * 10 ^ digits + 1 / 2⌋ := by
        exact_mod_cast hfloor
      simp only [toFixed, if_neg hx, if_neg hy]
      exact div_le_div_of_nonneg_right hcast hpow.le

/-- An object as its own properties, in the order they were written. -/
abbrev Obj (ϕ ν : Type*) := List (ϕ × ν)

namespace Obj

variable {ϕ ν : Type*} [DecidableEq ϕ]

/-- The property's value: the last one written wins, `none` when it is no own property. -/
def get : Obj ϕ ν → ϕ → Option ν
  | [], _ => none
  | (k, v) :: o, f => (get o f).or (if k = f then some v else none)

/-- `{ ...a, ...b }` -/
def spread (a b : Obj ϕ ν) : Obj ϕ ν := a ++ b

@[simp] theorem get_nil (f : ϕ) : get ([] : Obj ϕ ν) f = none := rfl

@[simp] theorem get_cons_self (f : ϕ) (v : ν) (o : Obj ϕ ν) :
    get ((f, v) :: o) f = (get o f).or (some v) := by simp [get]

theorem get_cons_ne {k f : ϕ} (h : k ≠ f) (v : ν) (o : Obj ϕ ν) :
    get ((k, v) :: o) f = get o f := by simp [get, h]

/-- The properties of the second operand override those of the first. -/
theorem get_spread (a b : Obj ϕ ν) (f : ϕ) : (spread a b).get f = (b.get f).or (a.get f) := by
  unfold spread
  induction a with
  | nil => simp
  | cons p a ih =>
    obtain ⟨k, v⟩ := p
    simp only [List.cons_append, get, ih, Option.or_assoc]

end Obj

end Js
