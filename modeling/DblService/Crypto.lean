import DblService.Environment
import Mathlib.Data.List.Basic

/-!
# Hexadecimal text

`crypto::md5` prints the digest as two digits for each byte, and a token is the text
of a UUID.  Both have a fixed width, and the text determines the bytes.
-/

namespace DblService

namespace Crypto

/-- `std::hex << std::setw(2) << std::setfill('0')` of one byte. -/
def hexByte (b : UInt8) : List Char :=
  let digits := Nat.toDigits 16 b.toNat
  List.replicate (2 - digits.length) '0' ++ digits

def digitValue (c : Char) : Nat :=
  if c.toNat < 97 then c.toNat - 48 else c.toNat - 87

def byteValue (digits : List Char) : UInt8 :=
  UInt8.ofNat (digits.foldl (fun n c => 16 * n + digitValue c) 0)

private theorem hexByte_length (b : UInt8) : (hexByte b).length = 2 := by
  have h : ∀ n : Fin 256, (hexByte (UInt8.ofNat n)).length = 2 := by decide +kernel
  have hb := h b.toFin
  simpa using hb

private theorem byteValue_hexByte (b : UInt8) : byteValue (hexByte b) = b := by
  have h : ∀ n : Fin 256, byteValue (hexByte (UInt8.ofNat n)) = UInt8.ofNat n := by decide +kernel
  have hb := h b.toFin
  simpa using hb

def hex (bytes : List UInt8) : List Char := bytes.flatMap hexByte

private theorem hex_length (bytes : List UInt8) : (hex bytes).length = 2 * bytes.length := by
  induction bytes with
  | nil => rfl
  | cons b bs ih =>
    rw [hex, List.flatMap_cons, List.length_append, hexByte_length]
    change 2 + (hex bs).length = _
    rw [ih, List.length_cons]
    omega

private theorem hex_injective {xs ys : List UInt8} (h : hex xs = hex ys) : xs = ys := by
  have hlength : xs.length = ys.length := by
    have := congrArg List.length h
    rw [hex_length, hex_length] at this
    omega
  induction xs generalizing ys with
  | nil => exact (List.length_eq_zero_iff.mp hlength.symm).symm
  | cons x xs ih =>
    cases ys with
    | nil => cases hlength
    | cons y ys =>
      have hwidth : (hexByte x).length = (hexByte y).length := by
        rw [hexByte_length, hexByte_length]
      obtain ⟨hx, hxs⟩ := List.append_inj h hwidth
      have hxy : x = y := by rw [← byteValue_hexByte x, hx, byteValue_hexByte]
      rw [hxy, ih hxs (Nat.succ.inj hlength)]

end Crypto

def Env.md5 (env : Env) (input : String) : String := String.ofList (Crypto.hex (env.digest input))

namespace Env

variable (env : Env)

theorem md5_length (input : String) : (env.md5 input).length = 32 := by
  rw [md5, String.length_ofList, Crypto.hex_length, env.digest_length]

theorem md5_ne_empty (input : String) : env.md5 input ≠ "" := by
  intro h
  have hlength := env.md5_length input
  rw [h] at hlength
  cases hlength

/-- Equal texts are texts of equal digests. -/
theorem digest_eq_of_md5_eq {a b : String} (h : env.md5 a = env.md5 b) :
    env.digest a = env.digest b :=
  Crypto.hex_injective (String.ofList_injective h)

end Env

structure Uuid where
  bytes : List UInt8
  length_eq : bytes.length = 16
  deriving DecidableEq

def Uuid.zero : Uuid := ⟨List.replicate 16 0, rfl⟩

def Uuid.group (u : Uuid) (start length : Nat) : List Char :=
  Crypto.hex ((u.bytes.drop start).take length)

private theorem Uuid.group_length (u : Uuid) {start length : Nat} (h : start + length ≤ 16) :
    (u.group start length).length = 2 * length := by
  rw [group, Crypto.hex_length, List.length_take, List.length_drop, u.length_eq]
  omega

/-- The text of a UUID: the digits of its bytes in groups of 4, 2, 2, 2 and 6 bytes. -/
def Uuid.text (u : Uuid) : String :=
  String.ofList (u.group 0 4 ++ '-' :: (u.group 4 2 ++ '-' :: (u.group 6 2 ++
    '-' :: (u.group 8 2 ++ '-' :: u.group 10 6))))

theorem Uuid.text_length (u : Uuid) : u.text.length = 36 := by
  have h₀ := u.group_length (show 0 + 4 ≤ 16 by decide)
  have h₁ := u.group_length (show 4 + 2 ≤ 16 by decide)
  have h₂ := u.group_length (show 6 + 2 ≤ 16 by decide)
  have h₃ := u.group_length (show 8 + 2 ≤ 16 by decide)
  have h₄ := u.group_length (show 10 + 6 ≤ 16 by decide)
  rw [text, String.length_ofList]
  simp only [List.length_append, List.length_cons]
  omega

end DblService
