import Mathlib.Data.List.Basic
import Mathlib.Data.Nat.Bitwise
import Mathlib.Tactic.Common
import Mathlib.Tactic.Ring

/-!
# Texts as literals and references to what came before

A token is a byte, or a distance back and a number of bytes to repeat from there; the bytes it
repeats may be its own. As bits, a token is a tag and the byte, or a tag, the distance and the
number, in fields of fixed width with the highest bit first. The bits of tokens, with a few bits
behind them, are decoded to the text of the tokens.
-/

namespace MeterLogger
namespace Lzss

/-- The lowest `k` bits of a number, the highest of them first. -/
def bitsOf : ℕ → ℕ → List Bool
  | 0, _ => []
  | k+1, n => n.testBit k :: bitsOf k n

def value : List Bool → ℕ
  | [] => 0
  | b::bs => 2^bs.length*b.toNat+value bs

@[simp] theorem bitsOf_length (k n : ℕ) : (bitsOf k n).length = k := by
  induction k with
  | zero => rfl
  | succ k ih => simp [bitsOf,ih]

theorem value_lt (bs : List Bool) : value bs < 2^bs.length := by
  induction bs with
  | nil => simp [value]
  | cons b bs ih =>
    rw [value,List.length_cons,Nat.pow_succ]
    cases b
    · simp
      omega
    · simp
      omega

@[simp] theorem value_bitsOf (k n : ℕ) : value (bitsOf k n) = n%2^k := by
  induction k with
  | zero => simp [bitsOf,value,Nat.mod_one]
  | succ k ih => rw [bitsOf,value,bitsOf_length,ih,Nat.toNat_testBit,Nat.mod_pow_succ,Nat.add_comm]

theorem bitsOf_mod (k n : ℕ) {j : ℕ} (h : k ≤ j) : bitsOf k (n%2^j) = bitsOf k n := by
  induction k with
  | zero => rfl
  | succ k ih => simp [bitsOf,ih (by omega),Nat.testBit_mod_two_pow,show k < j by omega]

theorem bitsOf_value (bs : List Bool) : bitsOf bs.length (value bs) = bs := by
  induction bs with
  | nil => rfl
  | cons b bs ih =>
    have hlt := value_lt bs
    have htail : bitsOf bs.length (value (b::bs)) = bs := by
      rw [← bitsOf_mod _ _ (Nat.le_refl _),value,Nat.mul_add_mod,bitsOf_mod _ _ (Nat.le_refl _),ih]
    have hhead : (value (b::bs)).testBit bs.length = b := by
      rw [value,Nat.testBit_two_pow_mul_add _ hlt,if_neg (by omega),Nat.sub_self]
      cases b <;> rfl
    rw [List.length_cons,bitsOf,htail,hhead]

theorem bitsOf_add (j k n : ℕ) : bitsOf (j+k) n = bitsOf j (n >>> k) ++ bitsOf k n := by
  induction j with
  | zero => simp [bitsOf]
  | succ j ih =>
    rw [Nat.add_right_comm,bitsOf,bitsOf,ih,Nat.testBit_shiftRight,Nat.add_comm k j,
      List.cons_append]

/-- The mask of the highest of `k` bits. -/
def bitMask : ℕ → UInt8
  | 0 => 0
  | k+1 => 1 <<< UInt8.ofNat k

theorem bitMask_toNat {k : ℕ} (hk : k < 8) : (bitMask (k+1)).toNat = 2^k := by
  have hall : ∀ i < 8, (bitMask (i+1)).toNat = 2^i := by decide
  exact hall k hk

theorem bitMask_half {k : ℕ} (hk : k < 8) : bitMask (k+1) >>> 1 = bitMask k := by
  have hall : ∀ i < 8, bitMask (i+1) >>> 1 = bitMask i := by decide
  exact hall k hk

theorem bitMask_ne_zero {k : ℕ} (hk : k < 8) : bitMask (k+1) ≠ 0 := by
  have hall : ∀ i < 8, bitMask (i+1) ≠ 0 := by decide
  exact hall k hk

theorem and_bitMask (b : UInt8) {k : ℕ} (hk : k < 8) :
    b &&& bitMask (k+1) ≠ 0 ↔ b.toNat.testBit k = true := by
  have hnat : (b &&& bitMask (k+1)).toNat = 2^k*(b.toNat.testBit k).toNat := by
    rw [UInt8.toNat_and,bitMask_toNat hk,Nat.and_two_pow,Nat.mul_comm]
  have hzero : b &&& bitMask (k+1) = 0 ↔ (b &&& bitMask (k+1)).toNat = 0 := by
    rw [← UInt8.toNat_inj]
    rfl
  rw [Ne,hzero,hnat]
  have hpos : 0 < 2^k := Nat.two_pow_pos k
  cases b.toNat.testBit k <;> simp

theorem value_append (xs ys : List Bool) : value (xs ++ ys) = 2^ys.length*value xs+value ys := by
  induction xs with
  | nil => simp [value]
  | cons x xs ih =>
    rw [List.cons_append,value,value,ih,List.length_append,Nat.pow_add]
    ring

def byteBits (bytes : List UInt8) : List Bool := bytes.flatMap fun b => bitsOf 8 b.toNat

@[simp] theorem byteBits_length (bytes : List UInt8) : (byteBits bytes).length = 8*bytes.length := by
  induction bytes with
  | nil => rfl
  | cons b bytes ih =>
    have hcons : byteBits (b::bytes) = bitsOf 8 b.toNat ++ byteBits bytes := List.flatMap_cons
    rw [hcons,List.length_append,ih,bitsOf_length,List.length_cons]
    omega

theorem byteBits_append (xs ys : List UInt8) : byteBits (xs ++ ys) = byteBits xs ++ byteBits ys :=
  List.flatMap_append

inductive Token
  | literal (b : UInt8)
  | backref (distance count : ℕ)

/-- `n` bytes from `distance` back, where the last byte of the text stands first; zeros are before
the text. -/
def copy (text : List UInt8) (distance : ℕ) : ℕ → List UInt8
  | 0 => []
  | n+1 => text.getD (distance-1) 0::copy (text.getD (distance-1) 0::text) distance n

def Token.out (text : List UInt8) : Token → List UInt8
  | literal b => [b]
  | backref distance count => copy text distance count

def expand (text : List UInt8) : List Token → List UInt8
  | [] => []
  | t::ts => t.out text ++ expand ((t.out text).reverse ++ text) ts

/-- A token with `w` bits for the distance and `l` bits for the number. -/
def Token.bits (w l : ℕ) : Token → List Bool
  | literal b => true::bitsOf 8 b.toNat
  | backref distance count => false::(bitsOf w (distance-1) ++ bitsOf l (count-1))

def Token.Fits (w l : ℕ) : Token → Prop
  | literal _ => True
  | backref distance count => 0 < distance ∧ distance ≤ 2^w ∧ 0 < count ∧ count ≤ 2^l

/-- What bits add to a text. -/
def decode (w l : ℕ) (text : List UInt8) : List Bool → List UInt8
  | [] => []
  | true::bits =>
    if 8 ≤ bits.length then
      UInt8.ofNat (value (bits.take 8))::
        decode w l (UInt8.ofNat (value (bits.take 8))::text) (bits.drop 8)
    else []
  | false::bits =>
    if w+l ≤ bits.length then
      let out := copy text (value (bits.take w)+1) (value ((bits.drop w).take l)+1)
      out ++ decode w l (out.reverse ++ text) (bits.drop (w+l))
    else []
termination_by bits => bits.length
decreasing_by
  · rw [List.length_drop,List.length_cons]
    omega
  · rw [List.length_drop,List.length_cons]
    omega

variable {w l : ℕ} (text : List UInt8)

@[simp] theorem copy_length (distance n : ℕ) : (copy text distance n).length = n := by
  induction n generalizing text with
  | zero => rfl
  | succ n ih => rw [copy,List.length_cons,ih]

theorem copy_add (distance m n : ℕ) :
    copy text distance (m+n) =
      copy text distance m ++ copy ((copy text distance m).reverse ++ text) distance n := by
  induction m generalizing text with
  | zero => simp [copy]
  | succ m ih =>
    rw [Nat.add_right_comm,copy,copy,ih,List.cons_append,List.reverse_cons,List.append_assoc,
      List.singleton_append]

theorem copy_eq {data : List UInt8} {p distance n : ℕ} (hn : p+n ≤ data.length)
    (hd : 0 < distance) (hp : distance ≤ p)
    (h : ∀ i < n, data.getD (p+i) 0 = data.getD (p+i-distance) 0) :
    copy (data.take p).reverse distance n = (data.drop p).take n := by
  induction n generalizing p with
  | zero => rfl
  | succ n ih =>
    have hlt : p < data.length := by omega
    have hback : (data.take p).reverse.getD (distance-1) 0 = data.getD p 0 := by
      have h₀ := h 0 (by omega)
      rw [Nat.add_zero] at h₀
      rw [h₀,List.getD_eq_getElem?_getD,List.getElem?_reverse (by rw [List.length_take]; omega),
        List.length_take,List.getElem?_take_of_lt (by omega),List.getD_eq_getElem?_getD]
      congr 2
      omega
    have hnext : (data.take (p+1)).reverse = data.getD p 0::(data.take p).reverse := by
      rw [List.take_add_one,List.getElem?_eq_getElem hlt,List.getD_eq_getElem _ _ hlt]
      simp
    have htail := ih (by omega : p+1+n ≤ data.length) (by omega) fun i hi => by
      have hs := h (i+1) (by omega)
      rwa [Nat.add_comm i 1,← Nat.add_assoc] at hs
    rw [copy,hback,← hnext,htail,List.drop_eq_getElem_cons hlt,List.take_succ_cons,
      List.getD_eq_getElem _ _ hlt]

theorem expand_append (ts us : List Token) :
    expand text (ts ++ us) = expand text ts ++ expand ((expand text ts).reverse ++ text) us := by
  induction ts generalizing text with
  | nil => rfl
  | cons t ts ih =>
    rw [List.cons_append,expand,expand,ih,List.append_assoc,List.reverse_append,List.append_assoc]

theorem decode_nil : decode w l text [] = [] := by rw [decode]

theorem decode_literal {byte : List Bool} (h : byte.length = 8) (bits : List Bool) :
    decode w l text (true::(byte ++ bits)) =
      UInt8.ofNat (value byte)::decode w l (UInt8.ofNat (value byte)::text) bits := by
  rw [decode,if_pos (by rw [List.length_append]; omega),List.take_left' h,List.drop_left' h]

theorem decode_backref {index count : List Bool} (hindex : index.length = w)
    (hcount : count.length = l) (bits : List Bool) :
    decode w l text (false::(index ++ count ++ bits)) =
      copy text (value index+1) (value count+1) ++
        decode w l ((copy text (value index+1) (value count+1)).reverse ++ text) bits := by
  have hfields : (index ++ count).length = w+l := by rw [List.length_append,hindex,hcount]
  have hrest : (index ++ count ++ bits).drop w = count ++ bits := by
    rw [List.append_assoc,List.drop_left' hindex]
  rw [decode,if_pos (by rw [List.length_append]; omega),List.drop_left' hfields,hrest,
    List.take_left' hcount,List.append_assoc,List.take_left' hindex]

theorem decode_open_literal {bits : List Bool} (h : bits.length < 8) :
    decode w l text (true::bits) = [] := by
  rw [decode,if_neg (by omega)]

theorem decode_open_backref {bits : List Bool} (h : bits.length < w+l) :
    decode w l text (false::bits) = [] := by
  rw [decode,if_neg (by omega)]

theorem decode_few {bits : List Bool} (h : bits.length < 8) (hwl : 7 ≤ w+l) :
    decode w l text bits = [] := by
  cases bits with
  | nil => exact decode_nil text
  | cons b bits =>
    rw [List.length_cons] at h
    cases b
    · exact decode_open_backref text (by omega)
    · exact decode_open_literal text (by omega)

theorem decode_token {t : Token} (h : t.Fits w l) (bits : List Bool) :
    decode w l text (t.bits w l ++ bits) =
      t.out text ++ decode w l ((t.out text).reverse ++ text) bits := by
  cases t with
  | literal b =>
    have hb : UInt8.ofNat (value (bitsOf 8 b.toNat)) = b := by
      rw [value_bitsOf,Nat.mod_eq_of_lt b.toNat_lt,UInt8.ofNat_toNat]
    rw [Token.bits,List.cons_append,decode_literal text (bitsOf_length _ _),hb]
    rfl
  | backref distance count =>
    obtain ⟨hd,hw,hc,hl⟩ := h
    have hdistance : value (bitsOf w (distance-1))+1 = distance := by
      rw [value_bitsOf,Nat.mod_eq_of_lt (by omega)]
      omega
    have hcount : value (bitsOf l (count-1))+1 = count := by
      rw [value_bitsOf,Nat.mod_eq_of_lt (by omega)]
      omega
    rw [Token.bits,List.cons_append,decode_backref text (bitsOf_length _ _) (bitsOf_length _ _),
      hdistance,hcount]
    rfl

theorem decode_tokens {ts : List Token} (h : ∀ t ∈ ts, t.Fits w l) {bits : List Bool}
    (hbits : bits.length < 8) (hwl : 7 ≤ w+l) :
    decode w l text (ts.flatMap (Token.bits w l) ++ bits) = expand text ts := by
  induction ts generalizing text with
  | nil => exact decode_few text hbits hwl
  | cons t ts ih =>
    rw [List.flatMap_cons,List.append_assoc,decode_token text (h t List.mem_cons_self),
      ih _ fun t' ht => h t' (List.mem_cons_of_mem _ ht)]
    rfl

end Lzss
end MeterLogger
