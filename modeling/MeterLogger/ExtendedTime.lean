import MeterLogger.UnixTime

/-!
# Extended time

Polls of `get_unix_time` while the SNTP client gives the true time modulo 2^32. The time comes out
right as long as each poll follows the one before it: it does not step back from the last 2^28
seconds of an epoch of 2^32, and it enters the next epoch from there only.
-/

namespace MeterLogger
namespace UnixTime

/-- The rollovers of the 32 bit seconds so far. -/
def epoch (t : UInt64) : ℕ := t.toNat/2^32

def sntpRaw (t : UInt64) : UInt32 := t.toUInt32

def polls (s : State) : List UInt64 → List UInt64
  | [] => []
  | t::ts =>
    let r := getUnixTime s (sntpRaw t)
    r.1::polls r.2 ts

/-- Between two polls the time advances by less than 2^31 seconds or steps back by a few. -/
def Advances (few : ℕ) (last now : UInt64) : Prop :=
  last ≤ now ∧ now.toNat-last.toNat < 2^31 ∨ now < last ∧ last.toNat-now.toNat ≤ few

/-- The first poll lies in the first epoch. -/
def Admitted (few : ℕ) (ts : List UInt64) : Prop :=
  (∀ t ∈ ts.head?, epoch t = 0) ∧ ts.IsChain (Advances few)

/-- The time is returned whenever the SNTP client does not give 0. -/
def Extended (ts : List UInt64) : Prop :=
  ∀ p ∈ ts.zip (polls init ts), sntpRaw p.1 ≠ 0 → p.2 = p.1

/-- In the same epoch the time goes on, or steps back before the last 2^28 seconds; and the next
epoch is entered from the last 2^28 seconds. -/
def Followed (last now : UInt64) : Prop :=
  if epoch now = epoch last then sntpRaw last ≤ sntpRaw now ∨ sntpRaw last ≤ 0xF0000000
  else epoch now = (epoch last+1)%2^32 ∧ sntpRaw now < sntpRaw last ∧ 0xF0000000 < sntpRaw last

/-- The variables after a poll that returned the true time. -/
structure Matches (s : State) (last : UInt64) : Prop where
  raw : s.lastSntpRaw = sntpRaw last
  offset : s.epochOverflowOffset.toNat = epoch last*2^32

section Polls

variable {s : State} {last now : UInt64} {ts : List UInt64}

theorem matches_init : Matches init 0 := ⟨rfl,rfl⟩

theorem sntpRaw_toNat (t : UInt64) : (sntpRaw t).toNat = t.toNat%2^32 := by
  rw [sntpRaw,UInt64.toNat_toUInt32]

theorem epoch_lt (t : UInt64) : epoch t < 2^32 := by
  have hlt := t.toNat_lt
  rw [epoch]
  omega

def counted (last now : UInt64) : ℕ :=
  if sntpRaw now < sntpRaw last ∧ 0xF0000000 < sntpRaw last then 1 else 0

theorem getUnixTime_offset (h : Matches s last) (hnow : sntpRaw now ≠ 0) :
    (getUnixTime s (sntpRaw now)).2.lastSntpRaw = sntpRaw now ∧
      (getUnixTime s (sntpRaw now)).2.epochOverflowOffset.toNat =
        (epoch last+counted last now)%2^32*2^32 ∧
      (getUnixTime s (sntpRaw now)).1.toNat =
        (epoch last+counted last now)%2^32*2^32+now.toNat%2^32 := by
  have hlast := epoch_lt last
  have hraw := sntpRaw_toNat now
  have hoffset : (if sntpRaw now < s.lastSntpRaw ∧ 0xF0000000 < s.lastSntpRaw then
      s.epochOverflowOffset+0x100000000 else s.epochOverflowOffset).toNat =
        (epoch last+counted last now)%2^32*2^32 := by
    have hmatch := h.offset
    rw [h.raw,counted]
    split
    · have hone : (0x100000000 : UInt64).toNat = 2^32 := by decide
      rw [UInt64.toNat_add,hmatch,hone]
      omega
    · rw [hmatch,Nat.add_zero,Nat.mod_eq_of_lt hlast]
  rw [getUnixTime,if_neg hnow]
  refine ⟨rfl,hoffset,?_⟩
  dsimp only
  rw [UInt64.toNat_add,hoffset,UInt32.toNat_toUInt64,hraw]
  omega

theorem followed_iff : Followed last now ↔ epoch now = (epoch last+counted last now)%2^32 := by
  have hlast := epoch_lt last
  rw [Followed,counted]
  by_cases hcounted : sntpRaw now < sntpRaw last ∧ 0xF0000000 < sntpRaw last
  · rw [if_pos hcounted]
    have hback : ¬(sntpRaw last ≤ sntpRaw now ∨ sntpRaw last ≤ 0xF0000000) := by
      rw [not_or,UInt32.not_le,UInt32.not_le]
      exact hcounted
    split
    · rename_i hsame
      exact iff_of_false hback (by omega)
    · exact and_iff_left hcounted
  · have hzero : (epoch last+0)%2^32 = epoch last := Nat.mod_eq_of_lt hlast
    rw [if_neg hcounted,hzero]
    split
    · rename_i hsame
      refine iff_of_true ?_ hsame
      by_contra hno
      rw [not_or,UInt32.not_le,UInt32.not_le] at hno
      exact hcounted hno
    · rename_i hother
      exact iff_of_false (fun h => hcounted h.2) hother

theorem getUnixTime_eq_iff (h : Matches s last) (hnow : sntpRaw now ≠ 0) :
    (getUnixTime s (sntpRaw now)).1 = now ↔ Followed last now := by
  obtain ⟨_,_,hvalue⟩ := getUnixTime_offset h hnow
  have hlt := epoch_lt now
  have hepoch : now.toNat/2^32 = epoch now := rfl
  rw [← UInt64.toNat_inj,hvalue,followed_iff]
  omega

theorem Matches.step (h : Matches s last) (hnow : sntpRaw now ≠ 0) (hf : Followed last now) :
    Matches (getUnixTime s (sntpRaw now)).2 now := by
  obtain ⟨hraw,hoffset,_⟩ := getUnixTime_offset h hnow
  rw [← followed_iff.mp hf] at hoffset
  exact ⟨hraw,hoffset⟩

theorem polls_iff (h : Matches s last) : (∀ p ∈ ts.zip (polls s ts), sntpRaw p.1 ≠ 0 → p.2 = p.1) ↔
    (last::ts.filter (sntpRaw · ≠ 0)).IsChain Followed := by
  induction ts generalizing s last with
  | nil => simp [polls]
  | cons t ts ih =>
    rw [polls,List.zip_cons_cons,List.forall_mem_cons]
    dsimp only
    by_cases hzero : sntpRaw t = 0
    · have hsame : (getUnixTime s (sntpRaw t)).2 = s := by
        rw [getUnixTime,if_pos hzero]
      rw [hsame,ih h,List.filter_cons_of_neg (by simpa using hzero)]
      exact and_iff_right fun hno => absurd hzero hno
    · rw [List.filter_cons_of_pos (by simpa using hzero),List.isChain_cons_cons,
        ← getUnixTime_eq_iff h hzero]
      constructor
      · rintro ⟨hfirst,hrest⟩
        have hnow := hfirst hzero
        exact ⟨hnow,(ih (h.step hzero ((getUnixTime_eq_iff h hzero).mp hnow))).mp hrest⟩
      · rintro ⟨hnow,hrest⟩
        exact ⟨fun _ => hnow,(ih (h.step hzero ((getUnixTime_eq_iff h hzero).mp hnow))).mpr hrest⟩

end Polls

/-- The extended time is exact if and only if the polls follow each other, from 0 on. -/
theorem extended_iff (ts : List UInt64) :
    Extended ts ↔ (0::ts.filter (sntpRaw · ≠ 0)).IsChain Followed := polls_iff matches_init

/-- In 2097 the clock is set back by one second. -/
theorem extended_fails : ¬∀ ts, Admitted 5 ts → Extended ts := by
  intro h
  have hfirst : ∀ t ∈ [0xF0000010,(0xF000000F : UInt64)].head?, epoch t = 0 := by
    intro t ht
    rw [List.head?_cons,Option.mem_some_iff] at ht
    rw [← ht]
    decide
  have hback : Advances 5 0xF0000010 0xF000000F := Or.inr (by decide)
  have hexact := h [0xF0000010,0xF000000F]
    ⟨hfirst,List.isChain_cons_cons.mpr ⟨hback,.singleton _⟩⟩
  have hsecond := hexact (0xF000000F,0x1F000000F) (by decide) (by decide)
  exact absurd hsecond (by decide)

end UnixTime
end MeterLogger
