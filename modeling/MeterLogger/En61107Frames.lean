import Mathlib.Data.List.Basic
import MeterLogger.En61107Progress

/-!
# Which readouts are taken

`parse_en61107_frame` looks for an STX in the frame, sums the bytes up to the first ETX and starts
the sum anew at every STX, and then checks the length of what stands before the first STX. This
gives the frames it accepts, those that come without an STX before the ETX among them, and when an
error leaves the response as it was.
-/

namespace MeterLogger
namespace En61107

open CStrings

def sum7 (bytes : List UInt8) : ℕ := (bytes.map UInt8.toNat).sum%128

/-- The sum that is received, without the parity bit. -/
def receivedBcc (frame : List UInt8) : ℕ := (frame.getLastD 0 &&& 0x7f).toNat

/-- The bytes behind the last STX before the first ETX, to that ETX, have the sum received. -/
def Sealed (frame : List UInt8) : Prop :=
  ∃ pre mid rest, frame = pre ++ 2::mid ++ 3::rest ∧ 3 ∉ pre ∧ 2 ∉ mid ∧ 3 ∉ mid ∧
    sum7 (mid ++ [3]) = receivedBcc frame

/-- There is no STX before the first ETX, and the bytes up to it have the sum received. -/
def Headless (frame : List UInt8) : Prop :=
  ∃ mid rest, frame = mid ++ 3::rest ∧ 2 ∉ mid ∧ 3 ∉ mid ∧ sum7 (mid ++ [3]) = receivedBcc frame

/-- The first STX stands before any NUL. -/
def Opens (frame : List UInt8) : Prop :=
  ∃ pre rest, frame = pre ++ 2::rest ∧ 2 ∉ pre ∧ 0 ∉ pre

/-- The identification, between the leading byte and the end of line before the first STX, fits
its field. -/
def Identified (frame : List UInt8) : Prop :=
  ∃ pre rest, frame = pre ++ 2::rest ∧ 2 ∉ pre ∧ 3 < pre.length ∧ pre.length-3 < en61107MeterTypeL

/-- What an accepted frame is to be. -/
structure Genuine (frame : List UInt8) : Prop where
  stx : 2 ∈ frame
  closed : Sealed frame
  identified : Identified frame

/-- Only genuine frames are accepted, and any other result leaves the response as it was. -/
structure Atomic (b : Build) (F : Floats) (stack : List UInt8 × F.Value) (response : Response)
    (frame : List UInt8) : Prop where
  genuine : (parseEn61107Frame b F stack response frame).2 = .ok → Genuine frame
  unchanged : (parseEn61107Frame b F stack response frame).2 ≠ .ok →
    (parseEn61107Frame b F stack response frame).1 = response

section Sum

variable {bcc sum : UInt8} {pre mid rest frame : List UInt8}

theorem toNat_mask (b : UInt8) : (b &&& 0x7f).toNat = b.toNat%128 :=
  (UInt8.toNat_and b 0x7f).trans (Nat.and_two_pow_sub_one_eq_mod b.toNat 7)

theorem toNat_sum (sum c : UInt8) : ((sum+c) &&& 0x7f).toNat = (sum.toNat+c.toNat)%128 := by
  rw [toNat_mask,UInt8.toNat_add]
  omega

theorem checkBcc_none (h : 3 ∉ frame) : checkBcc bcc sum frame = none := by
  induction frame generalizing sum with
  | nil => rfl
  | cons c cs ih =>
    rw [List.mem_cons,not_or] at h
    rw [checkBcc]
    split
    · exact ih h.2
    · rw [if_neg (Ne.symm h.1)]
      exact ih h.2

theorem checkBcc_stx (h : 3 ∉ pre) (rest : List UInt8) :
    checkBcc bcc sum (pre ++ 2::rest) = checkBcc bcc 0 rest := by
  induction pre generalizing sum with
  | nil => rfl
  | cons c pre ih =>
    rw [List.mem_cons,not_or] at h
    rw [List.cons_append,checkBcc]
    split
    · exact ih h.2
    · rw [if_neg (Ne.symm h.1)]
      exact ih h.2

theorem checkBcc_etx (h₂ : 2 ∉ mid) (h₃ : 3 ∉ mid) (rest : List UInt8) :
    checkBcc bcc sum (mid ++ 3::rest) =
      some (decide ((sum.toNat+((mid ++ [3]).map UInt8.toNat).sum)%128 = bcc.toNat)) := by
  induction mid generalizing sum with
  | nil =>
    rw [List.nil_append,checkBcc,if_neg (by decide),if_pos rfl]
    simp only [← UInt8.toNat_inj,toNat_sum,List.nil_append,List.map_cons,List.map_nil,
      List.sum_cons,List.sum_nil,Nat.add_zero,eq_comm]
  | cons c mid ih =>
    rw [List.mem_cons,not_or] at h₂ h₃
    rw [List.cons_append,checkBcc,if_neg (Ne.symm h₂.1),if_neg (Ne.symm h₃.1),ih h₂.2 h₃.2,
      toNat_sum]
    simp only [List.cons_append,List.map_cons,List.sum_cons]
    rw [Nat.mod_add_mod,Nat.add_assoc]

theorem checkBcc_iff : checkBcc bcc 0 frame = some true ↔
    (∃ pre mid rest, frame = pre ++ 2::mid ++ 3::rest ∧ 3 ∉ pre ∧ 2 ∉ mid ∧ 3 ∉ mid ∧
        sum7 (mid ++ [3]) = bcc.toNat) ∨
      ∃ mid rest, frame = mid ++ 3::rest ∧ 2 ∉ mid ∧ 3 ∉ mid ∧ sum7 (mid ++ [3]) = bcc.toNat := by
  have hblock : ∀ {mid rest : List UInt8}, 2 ∉ mid → 3 ∉ mid →
      (checkBcc bcc 0 (mid ++ 3::rest) = some true ↔ sum7 (mid ++ [3]) = bcc.toNat) := by
    intro mid rest h₂ h₃
    rw [checkBcc_etx h₂ h₃,Option.some.injEq,decide_eq_true_eq,UInt8.toNat_zero,Nat.zero_add,sum7]
  constructor
  · intro h
    by_cases h₃ : 3 ∈ frame
    · obtain ⟨block,rest,rfl,hblock₃⟩ := List.eq_append_cons_of_mem h₃
      by_cases h₂ : 2 ∈ block
      · obtain ⟨pre,mid,rfl,hmid⟩ := last_cut h₂
        rw [List.mem_append,List.mem_cons,not_or,not_or] at hblock₃
        obtain ⟨hpre,_,hmid₃⟩ := hblock₃
        rw [List.append_assoc,List.cons_append,checkBcc_stx hpre,hblock hmid hmid₃] at h
        exact Or.inl ⟨pre,mid,rest,rfl,hpre,hmid,hmid₃,h⟩
      · exact Or.inr ⟨block,rest,rfl,h₂,hblock₃,(hblock h₂ hblock₃).mp h⟩
    · rw [checkBcc_none h₃] at h
      cases h
  · rintro (⟨pre,mid,rest,rfl,hpre,h₂,h₃,hsum⟩ | ⟨mid,rest,rfl,h₂,h₃,hsum⟩)
    · rw [List.append_assoc,List.cons_append,checkBcc_stx hpre]
      exact (hblock h₂ h₃).mpr hsum
    · exact (hblock h₂ h₃).mpr hsum

theorem check_iff (frame : List UInt8) :
    checkBcc (frame.getLastD 0 &&& 0x7f) 0 frame = some true ↔ Sealed frame ∨ Headless frame :=
  checkBcc_iff

theorem not_sealed (h : Headless frame) : ¬Sealed frame := by
  rintro ⟨pre,mid,rest,hframe,hpre,_,hmid,_⟩
  obtain ⟨block,rest',hframe',hstx,hetx,_⟩ := h
  have hfree : 3 ∉ pre ++ 2::mid := by simp [hpre,hmid]
  have hblock := cut_unique hetx hfree (hframe'.symm.trans hframe)
  rw [hblock] at hstx
  exact hstx (by simp)

end Sum

section Results

variable (b : Build) (F : Floats) (stack : List UInt8 × F.Value) (response : Response)
variable {frame pre rest : List UInt8}

theorem strstr_stx (h : 2 ∉ pre) (h₀ : 0 ∉ pre) (rest : List UInt8) :
    ∃ pos, strstr (cstr (pre ++ 2::rest)) [2] = some pos ∧
      (cstr (pre ++ 2::rest)).length-pos.length = pre.length := by
  refine ⟨2::cstr rest,?_,?_⟩
  · rw [cstr_append h₀]
    exact strstr_byte h _
  · rw [cstr_append h₀]
    have hcons : cstr (2::rest) = 2::cstr rest := by simp [cstr]
    rw [hcons,List.length_append,Nat.add_sub_cancel]

theorem opens_of_mem (h : 2 ∈ cstr frame) : Opens frame := by
  obtain ⟨pre,rest,hcut,hpre⟩ := List.eq_append_cons_of_mem h
  obtain ⟨more,hmore⟩ := cstr_isInitial frame
  refine ⟨pre,rest ++ more,?_,hpre,?_⟩
  · rw [← hmore,hcut,List.append_assoc,List.cons_append]
  · intro h₀
    apply zero_not_mem_cstr frame
    rw [hcut]
    exact List.mem_append_left _ h₀

theorem parse_unopened (h : ¬Opens frame) :
    (parseEn61107Frame b F stack response frame).2 ≠ .ok ∧
      (parseEn61107Frame b F stack response frame).1 = response := by
  have hnone : strstr (cstr frame) [2] = none :=
    strstr_byte_none fun hmem => h (opens_of_mem hmem)
  rw [parseEn61107Frame,hnone]
  split <;> exact ⟨by simp,rfl⟩

theorem parse_unchecked (h : ¬(Sealed frame ∨ Headless frame)) :
    (parseEn61107Frame b F stack response frame).2 ≠ .ok ∧
      (parseEn61107Frame b F stack response frame).1 = response := by
  rw [← check_iff] at h
  rw [parseEn61107Frame]
  split
  · exact ⟨by simp,rfl⟩
  · cases strstr (cstr frame) [2] with
    | none => exact ⟨by simp,rfl⟩
    | some pos =>
      cases hcheck : checkBcc (frame.getLastD 0 &&& 0x7f) 0 frame with
      | none => exact ⟨by simp,rfl⟩
      | some passed =>
        cases passed with
        | false => exact ⟨by simp,rfl⟩
        | true => exact absurd hcheck h

/-- A frame that passes the check is accepted if the identification fits; if not the meter type
is lost. -/
theorem parse_checked (hopens : Opens frame) (hcheck : Sealed frame ∨ Headless frame) :
    (Identified frame ∧ (parseEn61107Frame b F stack response frame).2 = .ok) ∨
      (¬Identified frame ∧ parseEn61107Frame b F stack response frame =
        ({ response with meterType := [] },.meterTypeBounds)) := by
  obtain ⟨pre,rest,rfl,h₂,h₀⟩ := hopens
  obtain ⟨pos,hpos,hlen⟩ := strstr_stx h₂ h₀ rest
  have hne : ¬(pre ++ 2::rest).length = 0 := by simp
  rw [parseEn61107Frame,if_neg hne,hpos]
  simp only
  rw [(check_iff _).mpr hcheck]
  simp only
  rw [hlen]
  by_cases hfits : pre.length ≤ 3 ∨ en61107MeterTypeL ≤ pre.length-3
  · refine Or.inr ⟨?_,if_pos hfits⟩
    rintro ⟨pre',rest',heq,hpre',hlong,hshort⟩
    rw [← cut_unique h₂ hpre' heq] at hlong hshort
    omega
  · refine Or.inl ⟨⟨pre,rest,rfl,h₂,by omega,by omega⟩,?_⟩
    rw [if_neg hfits]

theorem parse_ok_iff : (parseEn61107Frame b F stack response frame).2 = .ok ↔
    Opens frame ∧ (Sealed frame ∨ Headless frame) ∧ Identified frame := by
  constructor
  · intro hok
    by_cases hopens : Opens frame
    · by_cases hcheck : Sealed frame ∨ Headless frame
      · rcases parse_checked b F stack response hopens hcheck with ⟨hident,_⟩ | ⟨_,hbounds⟩
        · exact ⟨hopens,hcheck,hident⟩
        · rw [hbounds] at hok
          cases hok
      · exact absurd hok (parse_unchecked b F stack response hcheck).1
    · exact absurd hok (parse_unopened b F stack response hopens).1
  · rintro ⟨hopens,hcheck,hident⟩
    rcases parse_checked b F stack response hopens hcheck with ⟨_,hok⟩ | ⟨hno,_⟩
    · exact hok
    · exact absurd hident hno

end Results

/-- The parser accepts only genuine frames and spares the response otherwise, if and only if the
frame is not one that would be accepted without an STX before its ETX, and does not pass the
check with an identification that does not fit while the response holds a meter type. -/
theorem parse_atomic_iff (b : Build) (F : Floats) (stack : List UInt8 × F.Value)
    (response : Response) (frame : List UInt8) :
    Atomic b F stack response frame ↔
      ¬(Opens frame ∧ Headless frame ∧ Identified frame) ∧
        (Opens frame → Sealed frame ∨ Headless frame → Identified frame ∨ response.meterType = []) := by
  constructor
  · intro h
    constructor
    · rintro ⟨hopens,hheadless,hident⟩
      have hok := (parse_ok_iff b F stack response).mpr ⟨hopens,Or.inr hheadless,hident⟩
      exact not_sealed hheadless (h.genuine hok).closed
    · intro hopens hcheck
      rcases parse_checked b F stack response hopens hcheck with ⟨hident,_⟩ | ⟨_,hbounds⟩
      · exact Or.inl hident
      · right
        have hsame := h.unchanged (by rw [hbounds]; simp)
        rw [hbounds] at hsame
        exact (congrArg Response.meterType hsame).symm
  · rintro ⟨hheaded,hfits⟩
    refine ⟨fun hok => ?_,fun hfail => ?_⟩
    · obtain ⟨hopens,hcheck,hident⟩ := (parse_ok_iff b F stack response).mp hok
      have hsealed : Sealed frame :=
        hcheck.resolve_right fun hheadless => hheaded ⟨hopens,hheadless,hident⟩
      obtain ⟨pre,rest,rfl,_⟩ := hopens
      exact ⟨by simp,hsealed,hident⟩
    · by_cases hopens : Opens frame
      · by_cases hcheck : Sealed frame ∨ Headless frame
        · rcases parse_checked b F stack response hopens hcheck with ⟨_,hok⟩ | ⟨hno,hbounds⟩
          · exact absurd hok hfail
          · rw [hbounds,← (hfits hopens hcheck).resolve_left hno]
        · exact (parse_unchecked b F stack response hcheck).2
      · exact (parse_unopened b F stack response hopens).2

-- the ETX comes before the STX
example : (parseEn61107Frame sampleBuild sampleFloats ([],(0 : ℕ)) zeroResponse [65,3,66,67,2,68]).2 = .ok := by
  decide

/-- The readout of a meter whose identification has eight bytes. -/
def longIdentification : List UInt8 :=
  ascii "/KAMSTRUP\r\n" ++ [2] ++ ascii "6.8(0012*MWh)!\r\n" ++ [3,33]

/-- A readout in between loses the meter type that was read before. -/
theorem meterType_lost :
    ¬∀ (b : Build) (F : Floats) (stack : List UInt8 × F.Value) (response : Response)
      (frame : List UInt8), frame.length ≤ en61107FrameL → Atomic b F stack response frame := by
  intro h
  have hunchanged := (h sampleBuild sampleFloats ([],(0 : ℕ))
    { zeroResponse with meterType := ascii "KAM MC" } longIdentification (by decide)).unchanged
  revert hunchanged
  decide

end En61107
end MeterLogger
