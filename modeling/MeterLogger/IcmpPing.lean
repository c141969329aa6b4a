import Mathlib.Algebra.Order.BigOperators.Group.List
import Mathlib.Data.List.DropRight
import Mathlib.Data.Rat.Floor
import MeterLogger.Ring

/-!
# The quality of the network

`icmp_ping.c` keeps two moving averages, one entry a minute: whether a ping was lost, for every
result, and how long it took, for the successful ones. Each average is taken over a ring buffer of
its own, and the two advance at different rates. The average is a division of floats, here of
rationals.
-/

namespace MeterLogger
namespace IcmpPing

def movingAverageBufferSize : ℕ := 60

/-- `ring_buffer_t`; the counters are of one byte. -/
structure RingBuffer where
  buffer : ℕ → UInt32
  fillCount : ℕ
  h : ℕ
  t : ℕ

/-- `i++` with the test against the end of the buffer. -/
def bump (i : ℕ) : ℕ :=
  let i := (i+1)%256
  if i = movingAverageBufferSize then 0 else i

def ringBufferPut (rb : RingBuffer) (c : UInt32) : RingBuffer × Bool :=
  if rb.fillCount ≠ movingAverageBufferSize then
    ({ rb with
      buffer := Function.update rb.buffer (rb.h%movingAverageBufferSize) c
      h := bump rb.h
      fillCount := (rb.fillCount+1)%256 },true)
  else (rb,false)

def ringBufferRemoveLast (rb : RingBuffer) : RingBuffer × Bool :=
  if rb.fillCount ≠ 0 then ({ rb with t := bump rb.t, fillCount := rb.fillCount-1 },true)
  else (rb,false)

/-- What `*c` holds afterwards; `data` is what it held. -/
def ringBufferSnoop (rb : RingBuffer) (data : UInt32) (pos : ℕ) : UInt32 × Bool :=
  if rb.fillCount > pos then (rb.buffer ((rb.t+pos)%movingAverageBufferSize),true)
  else (data,false)

/-- What `icmp_ping_recv` reads of a `struct ping_resp`. -/
structure PingResp where
  respTime : UInt32
  pingErr : ℤ

/-- The variables of the file. -/
structure Ping where
  averageResponseTimeMs : ℚ
  averagePacketLoss : ℚ
  responseTime : RingBuffer
  packetLoss : RingBuffer

/-- The variables as the program starts, the ring buffers without memory. -/
def boot : Ping := ⟨0,0,⟨fun _ => 0,0,0,0⟩,⟨fun _ => 0,0,0,0⟩⟩

def initIcmpPing (responseTimeBuffer packetLossBuffer : ℕ → UInt32) (p : Ping) : Ping :=
  { p with responseTime := ⟨responseTimeBuffer,0,0,0⟩, packetLoss := ⟨packetLossBuffer,0,0,0⟩ }

/-- A full buffer loses its oldest entry before the new one is put. -/
def record (rb : RingBuffer) (c : UInt32) : RingBuffer :=
  let rb := if rb.fillCount = movingAverageBufferSize then (ringBufferRemoveLast rb).1 else rb
  (ringBufferPut rb c).1

/-- The summing loop, `n` entries from `i` on; `data` is the variable the entries pass through. -/
def sumLoop (rb : RingBuffer) : ℕ → ℕ → UInt32 → UInt32 → UInt32 × UInt32
  | 0, _, data, sum => (data,sum)
  | n+1, i, data, sum =>
    let data := (ringBufferSnoop rb data i).1
    sumLoop rb n (i+1) data (sum+data)

/-- The average of a ring buffer, of which an empty one leaves the old, and the variable. The rounding
of the division of floats is left out. -/
def average (rb : RingBuffer) (data : UInt32) (old : ℚ) : ℚ × UInt32 :=
  if rb.fillCount > 0 then
    let r := sumLoop rb rb.fillCount 0 data 0
    ((r.2.toNat : ℚ)/rb.fillCount,r.1)
  else (old,data)

def icmpPingRecv (p : Ping) (pingResp : PingResp) : Ping :=
  let (p,data) :=
    if pingResp.pingErr = -1 then ({ p with packetLoss := record p.packetLoss 1 },0)
    else
      let p := { p with
        packetLoss := record p.packetLoss 0
        responseTime := record p.responseTime pingResp.respTime }
      let r := average p.responseTime 0 p.averageResponseTimeMs
      ({ p with averageResponseTimeMs := r.1 },r.2)
  { p with averagePacketLoss := (average p.packetLoss data p.averagePacketLoss).1 }

/-- A lost ping counts one. -/
def lossIndicator (pingResp : PingResp) : UInt32 := if pingResp.pingErr = -1 then 1 else 0

/-- Only the pings that were answered have a time. -/
def responseTimes (rs : List PingResp) : List UInt32 :=
  (rs.filter fun r => r.pingErr ≠ -1).map PingResp.respTime

def recent (xs : List UInt32) : List UInt32 := xs.rtake movingAverageBufferSize

def total (xs : List UInt32) : ℕ := (xs.map UInt32.toNat).sum

def mean (xs : List UInt32) : ℚ := (total xs : ℚ)/xs.length

def entries (rb : RingBuffer) : List UInt32 :=
  Ring.window rb.buffer movingAverageBufferSize rb.t rb.fillCount

/-- What `ring_buffer_snoop` gives of a list. -/
def entryAt (xs : List UInt32) (data : UInt32) (pos : ℕ) : UInt32 × Bool :=
  match xs[pos]? with
  | some x => (x,true)
  | none => (data,false)

/-- After the results `rs` each buffer holds the last entries, reads give nothing else, and the
averages are the means. -/
structure Averages (rs : List PingResp) (p : Ping) : Prop where
  losses : entries p.packetLoss = recent (rs.map lossIndicator)
  times : entries p.responseTime = recent (responseTimes rs)
  lossReads : ∀ data pos,
    ringBufferSnoop p.packetLoss data pos = entryAt (recent (rs.map lossIndicator)) data pos
  timeReads : ∀ data pos,
    ringBufferSnoop p.responseTime data pos = entryAt (recent (responseTimes rs)) data pos
  packetLoss : p.averagePacketLoss = mean (recent (rs.map lossIndicator))
  responseTime : total (recent (responseTimes rs)) < 2^32 →
    p.averageResponseTimeMs = mean (recent (responseTimes rs))

/-- The tail lies in the buffer, and the head as many entries after it as there are. -/
structure Valid (rb : RingBuffer) : Prop where
  fill_le : rb.fillCount ≤ movingAverageBufferSize
  tail_lt : rb.t < movingAverageBufferSize
  head_eq : rb.h = Ring.advance movingAverageBufferSize rb.t rb.fillCount

section OneBuffer

variable {rb : RingBuffer}

theorem bump_eq_next {i : ℕ} (h : i < movingAverageBufferSize) :
    bump i = Ring.next movingAverageBufferSize i := by
  have hbyte : (i+1)%256 = i+1 := Nat.mod_eq_of_lt (by rw [movingAverageBufferSize] at h; omega)
  rw [bump,hbyte,Ring.next]
  split <;> split <;> omega

@[simp] theorem entries_length (rb : RingBuffer) : (entries rb).length = rb.fillCount :=
  Ring.window_length _ _ _ _

theorem valid_init (buffer : ℕ → UInt32) : Valid ⟨buffer,0,0,0⟩ :=
  ⟨Nat.zero_le _,(by decide : 0 < movingAverageBufferSize),rfl⟩

theorem ringBufferPut_room (hrb : Valid rb) (hroom : rb.fillCount < movingAverageBufferSize)
    (c : UInt32) : Valid (ringBufferPut rb c).1 ∧
      entries (ringBufferPut rb c).1 = entries rb ++ [c] := by
  obtain ⟨-,htail,hhead⟩ := hrb
  have hlt : rb.h < movingAverageBufferSize := by
    rw [hhead]
    exact Ring.advance_lt _ htail
  have hfill : (rb.fillCount+1)%256 = rb.fillCount+1 :=
    Nat.mod_eq_of_lt (by rw [movingAverageBufferSize] at hroom; omega)
  rw [ringBufferPut,if_pos hroom.ne,hfill]
  refine ⟨⟨hroom,htail,?_⟩,?_⟩
  · simp only
    rw [bump_eq_next hlt,hhead,Ring.advance_succ]
  · simp only [entries]
    rw [Nat.mod_eq_of_lt hlt,hhead]
    exact Ring.window_push rb.buffer htail hroom c

theorem ringBufferRemoveLast_pos (hrb : Valid rb) (hpos : 0 < rb.fillCount) :
    Valid (ringBufferRemoveLast rb).1 ∧
      entries (ringBufferRemoveLast rb).1 = (entries rb).tail ∧
      (ringBufferRemoveLast rb).1.fillCount = rb.fillCount-1 := by
  obtain ⟨hle,htail,hhead⟩ := hrb
  obtain ⟨n,hn⟩ : ∃ n, rb.fillCount = n+1 := ⟨rb.fillCount-1,by omega⟩
  have hnext : n = rb.fillCount-1 := by omega
  rw [ringBufferRemoveLast,if_pos hpos.ne',bump_eq_next htail,← hnext]
  refine ⟨⟨by simp only; omega,Ring.next_lt (by decide),?_⟩,?_,rfl⟩
  · simp only
    rw [hhead,hn]
    rfl
  · simp only [entries,hn]
    rfl

theorem recent_concat_room {xs : List UInt32} (h : (recent xs).length < movingAverageBufferSize)
    (c : UInt32) : recent (xs ++ [c]) = recent xs ++ [c] := by
  rw [recent,List.rtake,List.length_drop] at h
  rw [recent,recent,List.rtake,List.rtake,List.length_append,List.length_singleton,
    List.drop_append_of_le_length (by omega)]
  congr 2
  omega

theorem recent_concat_full {xs : List UInt32} (h : (recent xs).length = movingAverageBufferSize)
    (c : UInt32) : recent (xs ++ [c]) = (recent xs).tail ++ [c] := by
  have hpos : 0 < movingAverageBufferSize := by decide
  rw [recent,List.rtake,List.length_drop] at h
  rw [recent,recent,List.rtake,List.rtake,List.length_append,List.length_singleton,
    List.drop_append_of_le_length (by omega),List.tail_drop]
  congr 2
  omega

theorem record_entries (hrb : Valid rb) {xs : List UInt32} (hentries : entries rb = recent xs)
    (c : UInt32) : Valid (record rb c) ∧ entries (record rb c) = recent (xs ++ [c]) := by
  have hlen := entries_length rb
  rw [hentries] at hlen
  rw [record]
  by_cases hfull : rb.fillCount = movingAverageBufferSize
  · have hpos : 0 < rb.fillCount := hfull ▸ (by decide : 0 < movingAverageBufferSize)
    obtain ⟨hvalid,htail,hfill⟩ := ringBufferRemoveLast_pos hrb hpos
    obtain ⟨hvalid',hput⟩ := ringBufferPut_room hvalid (by omega) c
    rw [if_pos hfull]
    refine ⟨hvalid',hput.trans ?_⟩
    rw [htail,hentries,recent_concat_full (hlen.trans hfull)]
  · have hroom : rb.fillCount < movingAverageBufferSize := Nat.lt_of_le_of_ne hrb.fill_le hfull
    obtain ⟨hvalid,hput⟩ := ringBufferPut_room hrb hroom c
    rw [if_neg hfull]
    refine ⟨hvalid,hput.trans ?_⟩
    rw [hentries,recent_concat_room (hlen ▸ hroom)]

theorem ringBufferSnoop_eq (hrb : Valid rb) (data : UInt32) (pos : ℕ) :
    ringBufferSnoop rb data pos = entryAt (entries rb) data pos := by
  rw [ringBufferSnoop,entryAt]
  by_cases hpos : pos < rb.fillCount
  · rw [if_pos hpos,entries,Ring.window_getElem? hrb.tail_lt hpos]
  · rw [if_neg hpos,List.getElem?_eq_none (by rw [entries_length]; omega)]

theorem sumLoop_eq (hrb : Valid rb) {n i : ℕ} (h : i+n = rb.fillCount) (data sum : UInt32) :
    (sumLoop rb n i data sum).2 = ((entries rb).drop i).foldl (· + ·) sum := by
  induction n generalizing i data sum with
  | zero =>
    rw [List.drop_eq_nil_of_le (by rw [entries_length]; omega)]
    rfl
  | succ n ih =>
    have hi : i < (entries rb).length := by
      rw [entries_length]
      omega
    have hread : (ringBufferSnoop rb data i).1 = (entries rb)[i] := by
      rw [ringBufferSnoop_eq hrb,entryAt,List.getElem?_eq_getElem hi]
    rw [sumLoop,hread,ih (by omega),List.drop_eq_getElem_cons hi,List.foldl_cons]

end OneBuffer

theorem foldl_toNat {xs : List UInt32} {sum : UInt32} (h : sum.toNat+total xs < 2^32) :
    (xs.foldl (· + ·) sum).toNat = sum.toNat+total xs := by
  induction xs generalizing sum with
  | nil => rfl
  | cons x xs ih =>
    rw [total,List.map_cons,List.sum_cons] at h
    have hadd : (sum+x).toNat = sum.toNat+x.toNat := by
      rw [UInt32.toNat_add]
      exact Nat.mod_eq_of_lt (by omega)
    rw [List.foldl_cons,ih (by rw [hadd,total]; omega),hadd,total,total,List.map_cons,
      List.sum_cons,Nat.add_assoc]

theorem average_eq {rb : RingBuffer} (hrb : Valid rb) {xs : List UInt32} (hentries : entries rb = xs)
    (hne : xs ≠ []) (hfits : total xs < 2^32) (data : UInt32) (old : ℚ) :
    (average rb data old).1 = mean xs := by
  have hlen : xs.length = rb.fillCount := hentries ▸ entries_length rb
  have hpos : 0 < rb.fillCount := hlen ▸ List.length_pos_of_ne_nil hne
  have hsum : (sumLoop rb rb.fillCount 0 data 0).2.toNat = total xs := by
    have hzero : (0 : UInt32).toNat = 0 := rfl
    rw [sumLoop_eq hrb (Nat.zero_add _),hentries,List.drop_zero,foldl_toNat (by omega),hzero,
      Nat.zero_add]
  rw [average,if_pos hpos,mean,hlen]
  simp only [hsum]

theorem recent_ne_nil (xs : List UInt32) (c : UInt32) : recent (xs ++ [c]) ≠ [] := by
  rw [recent,movingAverageBufferSize,List.rtake_concat_succ]
  exact List.append_ne_nil_of_right_ne_nil _ (List.cons_ne_nil c [])

theorem total_losses (rs : List PingResp) : total (recent (rs.map lossIndicator)) < 2^32 := by
  have hone : ∀ x ∈ (recent (rs.map lossIndicator)).map UInt32.toNat, x ≤ 1 := by
    intro x hx
    obtain ⟨y,hy,rfl⟩ := List.mem_map.1 hx
    obtain ⟨r,-,rfl⟩ := List.mem_map.1 (List.mem_of_mem_drop hy)
    rw [lossIndicator]
    split
    · exact le_rfl
    · exact Nat.zero_le 1
  have hsum := List.sum_le_card_nsmul _ 1 hone
  have hlen : (recent (rs.map lossIndicator)).length ≤ 60 := by
    rw [recent,List.rtake,List.length_drop,movingAverageBufferSize]
    omega
  rw [List.length_map,Nat.nsmul_eq_mul,Nat.mul_one] at hsum
  exact lt_of_le_of_lt (hsum.trans hlen) (by norm_num)

/-- What the results keep: both buffers are valid and hold the last entries, and the averages are
their means. -/
structure Kept (rs : List PingResp) (p : Ping) : Prop where
  lossValid : Valid p.packetLoss
  timeValid : Valid p.responseTime
  losses : entries p.packetLoss = recent (rs.map lossIndicator)
  times : entries p.responseTime = recent (responseTimes rs)
  packetLoss : p.averagePacketLoss = mean (recent (rs.map lossIndicator))
  responseTime : total (recent (responseTimes rs)) < 2^32 →
    p.averageResponseTimeMs = mean (recent (responseTimes rs))

theorem kept_init (responseTimeBuffer packetLossBuffer : ℕ → UInt32) :
    Kept [] (initIcmpPing responseTimeBuffer packetLossBuffer boot) where
  lossValid := valid_init packetLossBuffer
  timeValid := valid_init responseTimeBuffer
  losses := rfl
  times := rfl
  packetLoss := by
    have hmean : mean [] = 0 := div_zero _
    exact hmean.symm
  responseTime _ := by
    have hmean : mean [] = 0 := div_zero _
    exact hmean.symm

section OneResult

variable {rs : List PingResp} {p : Ping}

theorem responseTimes_lost {pingResp : PingResp} (h : pingResp.pingErr = -1) :
    responseTimes (rs ++ [pingResp]) = responseTimes rs := by
  rw [responseTimes,List.filter_append]
  simp [responseTimes,h]

theorem responseTimes_answered {pingResp : PingResp} (h : pingResp.pingErr ≠ -1) :
    responseTimes (rs ++ [pingResp]) = responseTimes rs ++ [pingResp.respTime] := by
  rw [responseTimes,List.filter_append]
  simp [responseTimes,h]

theorem losses_concat (hp : Kept rs p) (pingResp : PingResp) :
    Valid (record p.packetLoss (lossIndicator pingResp)) ∧
      entries (record p.packetLoss (lossIndicator pingResp)) =
        recent ((rs ++ [pingResp]).map lossIndicator) := by
  rw [List.map_append,List.map_singleton]
  exact record_entries hp.lossValid hp.losses _

theorem packetLoss_concat (hp : Kept rs p) (pingResp : PingResp) (data : UInt32) (old : ℚ) :
    (average (record p.packetLoss (lossIndicator pingResp)) data old).1 =
      mean (recent ((rs ++ [pingResp]).map lossIndicator)) := by
  obtain ⟨hvalid,hentries⟩ := losses_concat hp pingResp
  refine average_eq hvalid hentries ?_ (total_losses _) data old
  rw [List.map_append,List.map_singleton]
  exact recent_ne_nil _ _

theorem icmpPingRecv_kept (hp : Kept rs p) (pingResp : PingResp) :
    Kept (rs ++ [pingResp]) (icmpPingRecv p pingResp) := by
  by_cases hlost : pingResp.pingErr = -1
  · have hind : lossIndicator pingResp = 1 := if_pos hlost
    have hrecv : icmpPingRecv p pingResp = { p with
        packetLoss := record p.packetLoss 1
        averagePacketLoss := (average (record p.packetLoss 1) 0 p.averagePacketLoss).1 } := by
      rw [icmpPingRecv,if_pos hlost]
    obtain ⟨hvalid,hentries⟩ := losses_concat hp pingResp
    have hmean := packetLoss_concat hp pingResp 0 p.averagePacketLoss
    rw [hind] at hvalid hentries hmean
    rw [hrecv]
    constructor
    · exact hvalid
    · exact hp.timeValid
    · exact hentries
    · rw [responseTimes_lost hlost]
      exact hp.times
    · exact hmean
    · rw [responseTimes_lost hlost]
      exact hp.responseTime
  · have hind : lossIndicator pingResp = 0 := if_neg hlost
    have hrecv : icmpPingRecv p pingResp =
        { averageResponseTimeMs := (average (record p.responseTime pingResp.respTime) 0
            p.averageResponseTimeMs).1
          averagePacketLoss := (average (record p.packetLoss 0)
            (average (record p.responseTime pingResp.respTime) 0 p.averageResponseTimeMs).2
            p.averagePacketLoss).1
          responseTime := record p.responseTime pingResp.respTime
          packetLoss := record p.packetLoss 0 } := by
      rw [icmpPingRecv,if_neg hlost]
    obtain ⟨hvalid,hentries⟩ := losses_concat hp pingResp
    have hmean := packetLoss_concat hp pingResp
      (average (record p.responseTime pingResp.respTime) 0 p.averageResponseTimeMs).2
      p.averagePacketLoss
    rw [hind] at hvalid hentries hmean
    obtain ⟨htimeValid,htimes⟩ := record_entries hp.timeValid hp.times pingResp.respTime
    rw [← responseTimes_answered hlost] at htimes
    rw [hrecv]
    constructor
    · exact hvalid
    · exact htimeValid
    · exact hentries
    · exact htimes
    · exact hmean
    · intro hfits
      refine average_eq htimeValid htimes ?_ hfits 0 p.averageResponseTimeMs
      rw [responseTimes_answered hlost]
      exact recent_ne_nil _ _

end OneResult

theorem run_kept {before : List PingResp} {p : Ping} (hp : Kept before p) (rs : List PingResp) :
    Kept (before ++ rs) (rs.foldl icmpPingRecv p) := by
  induction rs generalizing before p with
  | nil => exact (List.append_nil before).symm ▸ hp
  | cons r rs ih =>
    have hstep := ih (icmpPingRecv_kept hp r)
    rwa [List.append_assoc,List.singleton_append] at hstep

/-- Whatever the memory of the buffers held and whatever the pings gave, the averages are the means
of the last sixty results and of the last sixty times. -/
theorem averages_recent (responseTimeBuffer packetLossBuffer : ℕ → UInt32) (rs : List PingResp) :
    Averages rs (rs.foldl icmpPingRecv (initIcmpPing responseTimeBuffer packetLossBuffer boot)) := by
  have hp := run_kept (kept_init responseTimeBuffer packetLossBuffer) rs
  rw [List.nil_append] at hp
  constructor
  · exact hp.losses
  · exact hp.times
  · intro data pos
    rw [ringBufferSnoop_eq hp.lossValid,hp.losses]
  · intro data pos
    rw [ringBufferSnoop_eq hp.timeValid,hp.times]
  · exact hp.packetLoss
  · exact hp.responseTime

end IcmpPing
end MeterLogger
