import Mathlib.Tactic.Common
import Mathlib.Data.Nat.Basic

/-!
Base64 with the standard alphabet and padding: three bytes are four digits of six bits each.
-/

namespace MapBackend.Library.Base64

def digit (n : ℕ) : Char :=
  if n < 26 then Char.ofNat (65 + n)
  else if n < 52 then Char.ofNat (71 + n)
  else if n < 62 then Char.ofNat (n - 4)
  else if n = 62 then '+'
  else '/'

def bits (c : Char) : Option ℕ :=
  if 65 ≤ c.toNat ∧ c.toNat ≤ 90 then some (c.toNat - 65)
  else if 97 ≤ c.toNat ∧ c.toNat ≤ 122 then some (c.toNat - 71)
  else if 48 ≤ c.toNat ∧ c.toNat ≤ 57 then some (c.toNat + 4)
  else if c = '+' then some 62
  else if c = '/' then some 63
  else none

theorem bits_digit : ∀ n < 64, bits (digit n) = some n := by decide

theorem digit_ne_pad : ∀ n < 64, digit n ≠ '=' := by decide

def encode : List UInt8 → List Char
  | [] => []
  | [a] => [digit (a.toNat / 4), digit (a.toNat % 4 * 16), '=', '=']
  | [a, b] => [digit (a.toNat / 4), digit (a.toNat % 4 * 16 + b.toNat / 16), digit (b.toNat % 16 * 4), '=']
  | a :: b :: c :: rest =>
    digit (a.toNat / 4) :: digit (a.toNat % 4 * 16 + b.toNat / 16) :: digit (b.toNat % 16 * 4 + c.toNat / 64) ::
      digit (c.toNat % 64) :: encode rest

def decode : List Char → Option (List UInt8)
  | [] => some []
  | w :: x :: y :: z :: rest =>
    if z = '=' then
      if rest = [] then
        if y = '=' then do
          let w ← bits w
          let x ← bits x
          some [UInt8.ofNat (w * 4 + x / 16)]
        else do
          let w ← bits w
          let x ← bits x
          let y ← bits y
          some [UInt8.ofNat (w * 4 + x / 16), UInt8.ofNat (x % 16 * 16 + y / 4)]
      else none
    else do
      let w ← bits w
      let x ← bits x
      let y ← bits y
      let z ← bits z
      let later ← decode rest
      some (UInt8.ofNat (w * 4 + x / 16) :: UInt8.ofNat (x % 16 * 16 + y / 4) :: UInt8.ofNat (y % 4 * 64 + z) :: later)
  | _ => none

theorem byte_of {n : ℕ} {a : UInt8} (same : n = a.toNat) : UInt8.ofNat n = a := by
  rw [same]
  exact UInt8.ofNat_toNat

theorem decode_encode (bytes : List UInt8) : decode (encode bytes) = some bytes := by
  induction bytes using encode.induct with
  | case1 => rfl
  | case2 a =>
    have small := a.toNat_lt
    have first : a.toNat / 4 * 4 + a.toNat % 4 * 16 / 16 = a.toNat := by omega
    simp only [encode, decode, if_true, bits_digit (a.toNat / 4) (by omega), bits_digit (a.toNat % 4 * 16) (by omega),
      Option.bind_eq_bind, Option.bind_some, byte_of first]
  | case3 a b =>
    have small_a := a.toNat_lt
    have small_b := b.toNat_lt
    have first : a.toNat / 4 * 4 + (a.toNat % 4 * 16 + b.toNat / 16) / 16 = a.toNat := by omega
    have second : (a.toNat % 4 * 16 + b.toNat / 16) % 16 * 16 + b.toNat % 16 * 4 / 4 = b.toNat := by omega
    have unpadded := digit_ne_pad (b.toNat % 16 * 4) (by omega)
    simp only [encode, decode, if_true, if_neg unpadded, bits_digit (a.toNat / 4) (by omega),
      bits_digit (a.toNat % 4 * 16 + b.toNat / 16) (by omega), bits_digit (b.toNat % 16 * 4) (by omega),
      Option.bind_eq_bind, Option.bind_some, byte_of first, byte_of second]
  | case4 a b c _ ih =>
    have small_a := a.toNat_lt
    have small_b := b.toNat_lt
    have small_c := c.toNat_lt
    have first : a.toNat / 4 * 4 + (a.toNat % 4 * 16 + b.toNat / 16) / 16 = a.toNat := by omega
    have second : (a.toNat % 4 * 16 + b.toNat / 16) % 16 * 16 + (b.toNat % 16 * 4 + c.toNat / 64) / 4 = b.toNat := by omega
    have third : (b.toNat % 16 * 4 + c.toNat / 64) % 4 * 64 + c.toNat % 64 = c.toNat := by omega
    have unpadded := digit_ne_pad (c.toNat % 64) (by omega)
    simp only [encode, decode, if_neg unpadded, bits_digit (a.toNat / 4) (by omega),
      bits_digit (a.toNat % 4 * 16 + b.toNat / 16) (by omega), bits_digit (b.toNat % 16 * 4 + c.toNat / 64) (by omega),
      bits_digit (c.toNat % 64) (by omega), ih, Option.bind_eq_bind, Option.bind_some, byte_of first, byte_of second,
      byte_of third]

end MapBackend.Library.Base64
