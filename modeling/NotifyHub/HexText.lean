import Mathlib.Tactic

/-!
# Hexadecimal texts

Numbers in hexadecimal digits, in a fixed width, and back.
-/

namespace NotifyHub

def hexChar (digit : ℕ) : Char :=
  if digit < 10 then Char.ofNat (digit + 48) else Char.ofNat (digit + 87)

def hexDigit (char : Char) : Option ℕ :=
  if char.isDigit then some (char.toNat - 48)
  else if 'a' ≤ char ∧ char ≤ 'f' then some (char.toNat - 87)
  else if 'A' ≤ char ∧ char ≤ 'F' then some (char.toNat - 55)
  else none

/-- A number in hexadecimal digits, in a fixed width. -/
def hexText : ℕ → ℕ → List Char
  | 0, _ => []
  | width + 1, number => hexText width (number / 16) ++ [hexChar (number % 16)]

/-- `int(text, 16)`, on digits. -/
def hexNumber (text : List Char) : Option ℕ :=
  text.foldlM (fun number char =>
    (hexDigit char).map fun digit => number * 16 + digit) 0

theorem hexDigit_hexChar {digit : ℕ} (hdigit : digit < 16) :
    hexDigit (hexChar digit) = some digit := by
  revert digit
  decide

/-- The characters of a hexadecimal text. -/
theorem exists_hexChar_of_mem_hexText
    {width number : ℕ} {char : Char} (hmem : char ∈ hexText width number) :
    ∃ digit < 16, char = hexChar digit := by
  induction width generalizing number with
  | zero => cases hmem
  | succ width ih =>
      rcases List.mem_append.mp hmem with hfirst | hlast
      · exact ih hfirst
      · exact ⟨number % 16, Nat.mod_lt _ (by decide),
          List.mem_singleton.mp hlast⟩

theorem length_hexText (width number : ℕ) :
    (hexText width number).length = width := by
  induction width generalizing number with
  | zero => rfl
  | succ width ih => simp [hexText, ih]

theorem hexNumber_hexText
    {width number : ℕ} (hnumber : number < 16 ^ width) :
    hexNumber (hexText width number) = some number := by
  induction width generalizing number with
  | zero =>
      have hzero : number = 0 := by omega
      subst hzero
      rfl
  | succ width ih =>
      have hdiv : number / 16 < 16 ^ width := by
        rw [pow_succ] at hnumber
        omega
      have hread := ih hdiv
      have hmod : number % 16 < 16 := Nat.mod_lt _ (by decide)
      rw [hexNumber] at hread
      rw [hexText, hexNumber, List.foldlM_append, hread]
      simp only [List.foldlM_cons, List.foldlM_nil, hexDigit_hexChar hmod,
        Option.map_some, Option.bind_eq_bind, Option.bind_some, pure]
      rw [Nat.div_add_mod' number 16]

end NotifyHub
