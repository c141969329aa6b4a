import Mathlib.Data.List.Basic
import Mathlib.Tactic.Common

/-!
# Cipher block chaining

Each block is mixed with the ciphertext block before it, the first one with an
initialisation vector, and then encrypted. Over any type of blocks, a mixing that undoes
itself and a cipher with a left inverse, decryption undoes encryption; with a right inverse,
encryption undoes decryption.
-/

namespace MeterLogger
namespace Cbc

variable {B : Type*}

def encrypt (mix : B → B → B) (enc : B → B) : B → List B → List B
  | _, [] => []
  | iv, b::bs => enc (mix b iv) :: encrypt mix enc (enc (mix b iv)) bs

def decrypt (mix : B → B → B) (dec : B → B) : B → List B → List B
  | _, [] => []
  | iv, c::cs => mix (dec c) iv :: decrypt mix dec c cs

@[simp] theorem encrypt_length (mix : B → B → B) (enc : B → B) (iv : B) (bs : List B) :
    (encrypt mix enc iv bs).length = bs.length := by
  induction bs generalizing iv with
  | nil => rfl
  | cons b bs ih => simp [encrypt,ih]

theorem encrypt_decrypted {mix : B → B → B} {enc dec : B → B} (hmix : ∀ a b, mix (mix a b) b = a)
    (hdec : ∀ b, dec (enc b) = b) (iv : B) (bs : List B) :
    decrypt mix dec iv (encrypt mix enc iv bs) = bs := by
  induction bs generalizing iv with
  | nil => rfl
  | cons b bs ih => rw [encrypt,decrypt,hdec,hmix,ih]

theorem decrypt_encrypted {mix : B → B → B} {enc dec : B → B} (hmix : ∀ a b, mix (mix a b) b = a)
    (henc : ∀ c, enc (dec c) = c) (iv : B) (cs : List B) :
    encrypt mix enc iv (decrypt mix dec iv cs) = cs := by
  induction cs generalizing iv with
  | nil => rfl
  | cons c cs ih => rw [decrypt,encrypt,hmix,henc,ih]

end Cbc
end MeterLogger
