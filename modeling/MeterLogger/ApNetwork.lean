import MeterLogger.Runs
import MeterLogger.Subnet

/-!
# The network of the access point

`wifi_softap_ip_config` gives the soft access point a network of 24 bits. If the uplink has the
same address, its third octet goes up by one; that is all that keeps the two apart.
-/

namespace MeterLogger
namespace ApNetwork

open Subnet Runs

/-- The first octet of an address is the highest byte. -/
def ip4Addr (a b c d : ℕ) : BitVec 32 :=
  BitVec.ofNat 8 a ++ BitVec.ofNat 8 b ++ BitVec.ofNat 8 c ++ BitVec.ofNat 8 d

def apNetwork : BitVec 32 := ip4Addr 10 0 5 0

def mask24 : BitVec 32 := ip4Addr 255 255 255 0

/-- `ip4_addr4(&a) = n` -/
def setAddr4 (a : BitVec 32) (n : ℕ) : BitVec 32 := a &&& mask24 ||| ip4Addr 0 0 0 n

/-- `ip4_addr3(&a) += 1` -/
def incAddr3 (a : BitVec 32) : BitVec 32 :=
  a &&& ip4Addr 255 255 0 255 ||| (a+ip4Addr 0 0 1 0) &&& ip4Addr 0 0 255 0

structure IpInfo where
  ip : BitVec 32
  gw : BitVec 32
  netmask : BitVec 32
  deriving DecidableEq

structure DhcpsLease where
  startIp : BitVec 32
  endIp : BitVec 32
  deriving DecidableEq

/-- The variables of `wifi.c`, and what the interface and its server were given. -/
structure State where
  staNetworkAddr : BitVec 32
  staNetworkMask : BitVec 32
  apNetworkAddr : BitVec 32
  dnsIp : BitVec 32
  ipInfo : Option IpInfo
  lease : Option DhcpsLease
  deriving DecidableEq

def boot : State := ⟨0,0,0,0,none,none⟩

/-- Whether there is an interface of the access point, and what `dns_getserver` gives. -/
structure Env where
  netif : Bool
  dns : BitVec 32

/-- The default as long as there is no network yet. -/
def State.ap (s : State) : BitVec 32 := if s.apNetworkAddr = 0 then apNetwork else s.apNetworkAddr

def State.newAp (s : State) : BitVec 32 := if s.staNetworkAddr = s.ap then incAddr3 s.ap else s.ap

def wifiSoftapIpConfig (env : Env) (s : State) : State :=
  if env.netif then
    { s with
      apNetworkAddr := s.newAp
      dnsIp := if env.dns = 0 then ip4Addr 8 8 8 8 else env.dns
      ipInfo := some ⟨setAddr4 s.newAp 1,setAddr4 s.newAp 1,mask24⟩
      lease := some ⟨setAddr4 s.newAp 2,setAddr4 s.newAp 254⟩ }
  else s

/-- `EVENT_STAMODE_GOT_IP` -/
def gotIp (ip mask : BitVec 32) (env : Env) (s : State) : State :=
  wifiSoftapIpConfig env { s with staNetworkAddr := ip &&& mask, staNetworkMask := mask }

/-- Other callers configure the access point as well. -/
inductive Event
  | gotIp (ip mask : BitVec 32) (env : Env)
  | softapIpConfig (env : Env)

def next (s : State) : Event → State
  | .gotIp ip mask env => gotIp ip mask env s
  | .softapIpConfig env => wifiSoftapIpConfig env s

/-- The network that is configured for the access point and the uplink have no address in
common. -/
def Clear (ip mask : BitVec 32) (s : State) : Prop :=
  ∀ info ∈ s.ipInfo, (Subnet.of info.ip info.netmask).Disjoint (Subnet.of ip mask)

/-- The addresses differ in a bit that both masks cover. -/
def Apart (ap uplink mask : BitVec 32) : Prop := ap &&& mask ≠ uplink &&& mask24

/-- The network of the access point is free already, or it has the address of the uplink, and the
uplink has a network of at most 24 bits. -/
def Free (ip : BitVec 32) (p : ℕ) (env : Env) (s : State) : Prop :=
  if env.netif then
    if ip &&& prefixMask p = s.ap then 24 ≤ p else Apart s.ap (ip &&& prefixMask p) (prefixMask p)
  else s.ipInfo = none ∨ Apart s.apNetworkAddr (ip &&& prefixMask p) (prefixMask p)

/-- The address that is configured is that of the network, which ends with 0. -/
structure Inv (s : State) : Prop where
  ends : s.apNetworkAddr &&& mask24 = s.apNetworkAddr
  info : ∀ info ∈ s.ipInfo, info.ip = setAddr4 s.apNetworkAddr 1 ∧ info.netmask = mask24

section Octets

variable {a m : BitVec 32} {p : ℕ}

theorem setAddr4_mask24 : setAddr4 a 1 &&& mask24 = a &&& mask24 := by
  rw [setAddr4,BitVec.and_or_distrib_right,and_mask,
    show ip4Addr 0 0 0 1 &&& mask24 = 0#32 by decide,BitVec.or_zero]

theorem incAddr3_mask24 (h : a &&& mask24 = a) : incAddr3 a &&& mask24 = incAddr3 a := by
  rw [incAddr3,BitVec.and_or_distrib_right,BitVec.and_assoc,
    BitVec.and_comm (ip4Addr 255 255 0 255),← BitVec.and_assoc,h,BitVec.and_assoc (a+_),
    show ip4Addr 0 0 255 0 &&& mask24 = ip4Addr 0 0 255 0 by decide]

theorem incAddr3_even (h : a &&& ip4Addr 0 0 1 0 = 0#32) : incAddr3 a = a ||| ip4Addr 0 0 1 0 := by
  rw [incAddr3,BitVec.add_eq_or_of_and_eq_zero a _ h,BitVec.and_or_distrib_right,
    ← BitVec.or_assoc,← BitVec.and_or_distrib_left,
    show ip4Addr 255 255 0 255 ||| ip4Addr 0 0 255 0 = BitVec.allOnes 32 by decide,
    BitVec.and_allOnes]
  rfl

/-- A network of less than 24 bits that has the address `a` contains the next one. -/
theorem incAddr3_short (h : a &&& prefixMask p = a) (hp : p < 24) :
    incAddr3 a &&& prefixMask p = a := by
  have hfree : (prefixMask p : BitVec 32) &&& ip4Addr 0 0 1 0 = 0#32 := by
    refine BitVec.eq_of_getLsbD_eq fun i hi => ?_
    rw [BitVec.getLsbD_and,prefixMask_bit]
    by_cases hlow : 32-p ≤ i
    · have hzero : ∀ i < 32, 8 < i → (ip4Addr 0 0 1 0).getLsbD i = false := by decide
      rw [hzero i hi (by omega),Bool.and_false,BitVec.getLsbD_zero]
    · simp [hlow]
  have heven : a &&& ip4Addr 0 0 1 0 = 0#32 := by
    rw [← h,BitVec.and_assoc,hfree,BitVec.and_zero]
  rw [incAddr3_even heven,BitVec.and_or_distrib_right,h,BitVec.and_comm (ip4Addr 0 0 1 0),hfree,
    BitVec.or_zero]

theorem incAddr3_bit : (incAddr3 a).getLsbD 8 = !a.getLsbD 8 := by
  have hcarry : BitVec.carry 8 a (ip4Addr 0 0 1 0) false = false := by
    rw [BitVec.carry,decide_eq_false_iff_not,
      show (ip4Addr 0 0 1 0).toNat % 2^8 = 0 by decide]
    have hlt := Nat.mod_lt a.toNat (show 0 < 2^8 by decide)
    rw [Bool.toNat_false]
    omega
  rw [incAddr3,BitVec.getLsbD_or,BitVec.getLsbD_and,BitVec.getLsbD_and,
    BitVec.getLsbD_add (by decide),hcarry,
    show (ip4Addr 255 255 0 255).getLsbD 8 = false by decide,
    show (ip4Addr 0 0 255 0).getLsbD 8 = true by decide,
    show (ip4Addr 0 0 1 0).getLsbD 8 = true by decide]
  simp

theorem incAddr3_long (hp : 24 ≤ p) : incAddr3 a &&& prefixMask p ≠ a := by
  intro heq
  have hbit : (incAddr3 a &&& prefixMask p).getLsbD 8 = a.getLsbD 8 := by rw [heq]
  rw [BitVec.getLsbD_and,incAddr3_bit,prefixMask_bit,decide_eq_true (by decide),
    decide_eq_true (by omega),Bool.and_true,Bool.and_true] at hbit
  cases h : a.getLsbD 8 <;> rw [h] at hbit <;> cases hbit

end Octets

section Steps

variable {s : State} {ip : BitVec 32} {env : Env} {p : ℕ}

theorem State.ap_ends (h : Inv s) : s.ap &&& mask24 = s.ap := by
  rw [State.ap]
  split
  · decide
  · exact h.ends

theorem State.newAp_ends (h : Inv s) : s.newAp &&& mask24 = s.newAp := by
  rw [State.newAp]
  split
  · exact incAddr3_mask24 (s.ap_ends h)
  · exact s.ap_ends h

theorem inv_config (h : Inv s) : Inv (wifiSoftapIpConfig env s) := by
  rw [wifiSoftapIpConfig]
  split
  · refine ⟨s.newAp_ends h,?_⟩
    rintro info ⟨⟩
    exact ⟨rfl,rfl⟩
  · exact h

theorem inv_next (h : Inv s) (e : Event) : Inv (next s e) := by
  cases e with
  | gotIp ip mask env => exact inv_config ⟨h.ends,h.info⟩
  | softapIpConfig env => exact inv_config h

/-- What is configured is clear of the uplink just when their addresses differ in a bit that both
masks cover. -/
theorem clear_iff {mask : BitVec 32} (h : Inv s) {info : IpInfo} (hinfo : s.ipInfo = some info) :
    Clear ip mask s ↔ Apart s.apNetworkAddr (ip &&& mask) mask := by
  obtain ⟨hip,hnetmask⟩ := h.info info hinfo
  have haddr : info.ip &&& info.netmask = s.apNetworkAddr := by
    rw [hip,hnetmask,setAddr4_mask24,h.ends]
  rw [Clear,hinfo,Apart]
  constructor
  · intro hclear
    have hdisjoint := of_disjoint_iff.mp (hclear info rfl)
    rwa [haddr,hnetmask] at hdisjoint
  · rintro hapart _ ⟨⟩
    rw [of_disjoint_iff,haddr,hnetmask]
    exact hapart

theorem config_eq (h : env.netif = true) :
    (wifiSoftapIpConfig env s).apNetworkAddr = s.newAp ∧
      (wifiSoftapIpConfig env s).ipInfo = some ⟨setAddr4 s.newAp 1,setAddr4 s.newAp 1,mask24⟩ := by
  rw [wifiSoftapIpConfig,if_pos h]
  exact ⟨rfl,rfl⟩

theorem config_same (h : env.netif ≠ true) : wifiSoftapIpConfig env s = s := if_neg h

/-- After an uplink has got an address the networks are clear of each other just when the access
point's was free. -/
theorem clear_gotIp (h : Inv s) :
    Clear ip (prefixMask p) (gotIp ip (prefixMask p) env s) ↔ Free ip p env s := by
  have hinv : Inv (gotIp ip (prefixMask p) env s) := inv_next h (.gotIp ip (prefixMask p) env)
  rw [gotIp] at hinv ⊢
  rw [Free]
  by_cases hnetif : env.netif = true
  · obtain ⟨hap,hinfo⟩ := config_eq hnetif
      (s := { s with staNetworkAddr := ip &&& prefixMask p, staNetworkMask := prefixMask p })
    rw [if_pos hnetif,clear_iff hinv hinfo,hap,State.newAp]
    show Apart (if ip &&& prefixMask p = s.ap then incAddr3 s.ap else s.ap) _ _ ↔ _
    split
    · rename_i heq
      have hmasked : s.ap &&& prefixMask p = s.ap := by
        rw [← heq]
        exact and_mask ip _
      rw [Apart,heq,s.ap_ends h]
      exact ⟨fun hne => Nat.le_of_not_lt fun hlt => hne (incAddr3_short hmasked hlt),incAddr3_long⟩
    · exact Iff.rfl
  · rw [if_neg hnetif,config_same hnetif] at *
    rcases Option.eq_none_or_eq_some s.ipInfo with hinfo | ⟨info,hinfo⟩
    · exact ⟨fun _ => Or.inl hinfo,fun _ info hmem => nomatch hinfo.symm.trans hmem⟩
    · rw [clear_iff hinv hinfo,or_iff_right (fun hnone => nomatch hnone.symm.trans hinfo)]

end Steps

/-- After any history, the access point and an uplink that gets an address have no address in
common just when the access point's network was free. -/
theorem uplink_disjoint {es : List Event} {s : State} (h : Run (ofFun next) boot es s)
    (ip : BitVec 32) (p : ℕ) (env : Env) :
    Clear ip (prefixMask p) (gotIp ip (prefixMask p) env s) ↔ Free ip p env s := by
  have hboot : Inv boot := ⟨by decide,fun _ hinfo => nomatch hinfo⟩
  have hinv : Inv s := by
    refine h.invariant (I := Inv) ?_ hboot
    rintro s e t hs rfl
    exact inv_next hs e
  exact clear_gotIp hinv

def withAp : Env := ⟨true,0⟩

/-- The uplink has the network of the access point and 24 bits. -/
theorem uplink_disjoint_same : Clear (ip4Addr 10 0 5 20) (prefixMask 24)
    (gotIp (ip4Addr 10 0 5 20) (prefixMask 24) withAp
      (gotIp (ip4Addr 192 168 1 10) (prefixMask 24) withAp boot)) := by
  have hrun : Run (ofFun next) boot [.gotIp (ip4Addr 192 168 1 10) (prefixMask 24) withAp]
      (gotIp (ip4Addr 192 168 1 10) (prefixMask 24) withAp boot) := .single rfl
  have hsame : ip4Addr 10 0 5 20 &&& prefixMask 24 =
      (gotIp (ip4Addr 192 168 1 10) (prefixMask 24) withAp boot).ap := by decide
  have hfree : Free (ip4Addr 10 0 5 20) 24 withAp
      (gotIp (ip4Addr 192 168 1 10) (prefixMask 24) withAp boot) := by
    simp [Free,withAp,hsame]
  exact (uplink_disjoint hrun _ 24 withAp).mpr hfree

/-- An uplink with half of the network of the access point goes unnoticed. -/
theorem uplink_overlaps : ¬∀ (es : List Event) (s : State), Run (ofFun next) boot es s →
    ∀ (ip : BitVec 32) (p : ℕ) (env : Env), p ≤ 32 →
      Clear ip (prefixMask p) (gotIp ip (prefixMask p) env s) := by
  intro h
  have hclear := h [] boot (.nil boot) (ip4Addr 10 0 5 130) 25 withAp (by decide)
  refine hclear ⟨ip4Addr 10 0 5 1,ip4Addr 10 0 5 1,mask24⟩ (by decide) (ip4Addr 10 0 5 130) ?_ ?_
  · rw [mem_iff]
    decide
  · rw [mem_iff]
    decide

end ApNetwork
end MeterLogger
