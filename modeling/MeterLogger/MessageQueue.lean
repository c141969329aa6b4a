import Mathlib.Tactic.Linarith
import MeterLogger.Ringbuf
import MeterLogger.Stuffing

/-!
# The message queue of the MQTT client

Packets are framed (`0x7E`, the bytes with `0x7D`, `0x7E` and `0x7F` escaped, `0x7F`)
and pushed byte by byte into the byte ring; they are parsed back byte by byte. A put
that runs out of room restores the ring's pointers but not its memory. The queue is
shown to be a first-in first-out list of packets.
-/

namespace MeterLogger
namespace MessageQueue

open Ringbuf

/-- The largest packet the client hands to the queue, `MQTT_BUF_SIZE`. -/
def mqttBufSize : ℕ := 2048

/-- The value of a C expression stored in an `I16`. -/
def toI16 (n : ℕ) : ℤ := Int.bmod n 65536

/-- `PROTO_PARSER`. The first `dataLen` bytes of its buffer are `buf`. -/
structure ProtoParser where
  buf : List UInt8
  bufSize : ℕ
  isEsc : Bool
  isBegin : Bool

/-- `PROTO_Init`. It does not set `isBegin`, which starts with whatever the stack held. -/
def protoInit (bufSize : ℕ) (isBegin : Bool) : ProtoParser := ⟨[],bufSize,false,isBegin⟩

/-- `PROTO_ParseByte`; the flag is set when it returns 0. -/
def protoParseByte (parser : ProtoParser) (value : UInt8) : ProtoParser × Bool :=
  if value = 0x7D then ({ parser with isEsc := true },false)
  else if value = 0x7E then
    ({ parser with buf := [], isEsc := false, isBegin := true },false)
  else if value = 0x7F then ({ parser with isBegin := false },true)
  else if parser.isBegin = false then (parser,false)
  else
    let v := if parser.isEsc then value ^^^ 0x20 else value
    let parser := { parser with isEsc := false }
    if parser.buf.length < parser.bufSize then
      ({ parser with buf := parser.buf ++ [v] },false)
    else (parser,false)

/-- The loop of `PROTO_ParseRb`; every turn takes one of the `fillCnt` bytes. -/
def protoParseLoop : ℕ → Ringbuf → ProtoParser → Ringbuf × Option (List UInt8)
  | 0, rb, _ => (rb,none)
  | n+1, rb, parser =>
    match rb.ringbufGet with
    | none => (rb,none)
    | some (c,rb) =>
      let p := protoParseByte parser c
      if p.2 then (rb,some p.1.buf) else protoParseLoop n rb p.1

/-- `PROTO_ParseRb`: the bytes and length stored for the caller, or `none` for -1. -/
def protoParseRb (rb : Ringbuf) (maxBufLen : ℕ) (isBegin : Bool) : Ringbuf × Option (List UInt8) :=
  protoParseLoop rb.fillCnt.toNat rb (protoInit maxBufLen isBegin)

/-- The loop of `PROTO_AddRb` and the closing byte. -/
def protoAddLoop : Ringbuf → List UInt8 → ℕ → Ringbuf × ℤ
  | rb, [], i =>
    let r := rb.ringbufPut 0x7F
    if r.2 = -1 then (r.1,-1) else (r.1,toI16 i)
  | rb, c::packet, i =>
    if c = 0x7D ∨ c = 0x7E ∨ c = 0x7F then
      let r := rb.ringbufPut 0x7D
      if r.2 = -1 then (r.1,-1)
      else
        let s := r.1.ringbufPut (c ^^^ 0x20)
        if s.2 = -1 then (s.1,-1) else protoAddLoop s.1 packet (i+2)
    else
      let r := rb.ringbufPut c
      if r.2 = -1 then (r.1,-1) else protoAddLoop r.1 packet (i+1)

def protoAddRb (rb : Ringbuf) (packet : List UInt8) : Ringbuf × ℤ :=
  let r := rb.ringbufPut 0x7E
  if r.2 = -1 then (r.1,-1) else protoAddLoop r.1 packet 2

/-- `QUEUE`: the allocated buffer, if any, and its ring. -/
structure Queue where
  buf : Bool
  rb : Ringbuf

def Queue.zero : Queue := ⟨false,Ringbuf.zero⟩

/-- `QUEUE_Init`; `alloc` says whether `os_zalloc` found memory. -/
def queueInit (queue : Queue) (bufferSize : ℤ) (alloc : Bool) : Queue :=
  ⟨alloc,(ringbufInit queue.rb (if alloc then some (fun _ => 0) else none) bufferSize).1⟩

/-- `QUEUE_Puts`: on failure the three pointers are rolled back. -/
def queuePuts (queue : Queue) (buffer : List UInt8) : Queue × ℤ :=
  let r := protoAddRb queue.rb buffer
  if r.2 = -1 then
    ({ queue with rb := { r.1 with
        pR := queue.rb.pR, pW := queue.rb.pW, fillCnt := queue.rb.fillCnt } },-1)
  else ({ queue with rb := r.1 },r.2)

def queueGets (queue : Queue) (maxLen : ℕ) (isBegin : Bool) : Queue × Option (List UInt8) :=
  let r := protoParseRb queue.rb maxLen isBegin
  ({ queue with rb := r.1 },r.2)

def queueIsEmpty (queue : Queue) : Bool := decide (queue.rb.fillCnt ≤ 0)

/-- The escape code of the queue: `0x7D` protects the three marker bytes. -/
def protoCode : StuffingCode UInt8 where
  esc := 0x7D
  reserved x := decide (x = 0x7D ∨ x = 0x7E ∨ x = 0x7F)
  mask x := x ^^^ 0x20
  esc_reserved := rfl
  mask_mask x := by rw [UInt8.xor_assoc]; simp
  mask_free x hx := by
    rcases of_decide_eq_true hx with rfl | rfl | rfl <;> rfl

/-- A packet as it lies in the ring. -/
def frame (packet : List UInt8) : List UInt8 := 0x7E :: (protoCode.stuff packet ++ [0x7F])

theorem frame_length_pos (packet : List UInt8) : 0 < (frame packet).length := by simp [frame]

theorem protoAddLoop_eq (rb : Ringbuf) (packet : List UInt8) (i : ℕ) :
    protoAddLoop rb packet i =
      let r := rb.putAll (protoCode.stuff packet ++ [0x7F])
      (r.1,if r.2 then toI16 (i+(protoCode.stuff packet).length) else -1) := by
  induction packet generalizing rb i with
  | nil =>
    by_cases h : (rb.ringbufPut 0x7F).2 = -1 <;> simp [protoAddLoop,putAll,h]
  | cons c packet ih =>
    by_cases hc : c = 0x7D ∨ c = 0x7E ∨ c = 0x7F
    · have hs : protoCode.stuffOne c = [0x7D,c ^^^ 0x20] := by
        simp [StuffingCode.stuffOne,protoCode,hc]
      rw [StuffingCode.stuff_cons,hs]
      by_cases h₁ : (rb.ringbufPut 0x7D).2 = -1
      · simp [protoAddLoop,putAll,hc,h₁]
      · by_cases h₂ : ((rb.ringbufPut 0x7D).1.ringbufPut (c ^^^ 0x20)).2 = -1
        · simp [protoAddLoop,putAll,hc,h₁,h₂]
        · have hi : i+2+(protoCode.stuff packet).length =
              i+((protoCode.stuff packet).length+1+1) := by omega
          simp [protoAddLoop,putAll,hc,h₁,h₂,ih,hi]
    · have hs : protoCode.stuffOne c = [c] := by
        simp [StuffingCode.stuffOne,protoCode,hc]
      rw [StuffingCode.stuff_cons,hs]
      by_cases h₁ : (rb.ringbufPut c).2 = -1
      · simp [protoAddLoop,putAll,hc,h₁]
      · simp [protoAddLoop,putAll,hc,h₁,ih,Nat.add_assoc,Nat.add_comm]

theorem protoAddRb_eq (rb : Ringbuf) (packet : List UInt8) :
    protoAddRb rb packet =
      let r := rb.putAll (frame packet)
      (r.1,if r.2 then toI16 (2+(protoCode.stuff packet).length) else -1) := by
  by_cases h : (rb.ringbufPut 0x7E).2 = -1
  · simp [protoAddRb,frame,putAll,h]
  · simp [protoAddRb,frame,putAll,h,protoAddLoop_eq]

/-- The parser run on a list of bytes: the packet found and the bytes left over. -/
def parseBytes : ProtoParser → List UInt8 → Option (List UInt8 × List UInt8)
  | _, [] => none
  | parser, c::cs =>
    let p := protoParseByte parser c
    if p.2 then some (p.1.buf,cs) else parseBytes p.1 cs

theorem protoParseLoop_some {n : ℕ} {rb : Ringbuf} {parser : ProtoParser} (hr : rb.Valid)
    (hn : rb.contents.length ≤ n) {packet rest : List UInt8}
    (h : parseBytes parser rb.contents = some (packet,rest)) :
    ∃ rb', protoParseLoop n rb parser = (rb',some packet) ∧ rb'.Valid ∧ rb'.contents = rest := by
  generalize hxs : rb.contents = xs at hn h
  induction xs generalizing n rb parser with
  | nil => simp [parseBytes] at h
  | cons c cs ih =>
    obtain ⟨rb₁,hget,hv,hcont⟩ := ringbufGet_cons hr hxs
    cases n with
    | zero => simp at hn
    | succ n =>
      by_cases hp : (protoParseByte parser c).2 = true
      · simp only [parseBytes,hp,if_true,Option.some.injEq,Prod.mk.injEq] at h
        exact ⟨rb₁,by simp [protoParseLoop,hget,hp,h.1],hv,by rw [hcont,h.2]⟩
      · simp only [parseBytes,hp] at h
        obtain ⟨rb₂,hloop,hv₂,hcont₂⟩ := ih hv hcont (by simpa using hn) h
        exact ⟨rb₂,by simp [protoParseLoop,hget,hp,hloop],hv₂,hcont₂⟩

theorem protoParseLoop_frame (n : ℕ) (rb : Ringbuf) (parser : ProtoParser) :
    { (protoParseLoop n rb parser).1 with pR := rb.pR, fillCnt := rb.fillCnt } = rb := by
  induction n generalizing rb parser with
  | zero => rfl
  | succ n ih =>
    cases hget : rb.ringbufGet with
    | none => simp [protoParseLoop,hget]
    | some cr =>
      obtain ⟨c,rb₁⟩ := cr
      have hf := ringbufGet_frame hget
      by_cases hp : (protoParseByte parser c).2 = true
      · simpa [protoParseLoop,hget,hp] using hf
      · have hih := ih rb₁ (protoParseByte parser c).1
        simp only [protoParseLoop,hget,hp]
        rw [Ringbuf.mk.injEq] at hih
        rw [← hf]
        simp only [Ringbuf.mk.injEq,true_and]
        exact ⟨hih.1,hih.2.2.1,hih.2.2.2.2⟩

theorem parseBytes_stuff (parser : ProtoParser) (packet rest : List UInt8)
    (hb : parser.isBegin = true) (he : parser.isEsc = false)
    (hl : parser.buf.length+packet.length ≤ parser.bufSize) :
    parseBytes parser (protoCode.stuff packet ++ 0x7F::rest) =
      some (parser.buf ++ packet,rest) := by
  induction packet generalizing parser with
  | nil => simp [parseBytes,protoParseByte]
  | cons c packet ih =>
    simp only [List.length_cons] at hl
    have hlt : parser.buf.length < parser.bufSize := by omega
    have hnext := ih { parser with buf := parser.buf ++ [c], isEsc := false } hb rfl
      (by simp only [List.length_append,List.length_cons,List.length_nil]; omega)
    rw [StuffingCode.stuff_cons,List.append_assoc]
    by_cases hc : c = 0x7D ∨ c = 0x7E ∨ c = 0x7F
    · have hs : protoCode.stuffOne c = [0x7D,c ^^^ 0x20] := by
        simp [StuffingCode.stuffOne,protoCode,hc]
      have hfree : ¬(c ^^^ 0x20 = 0x7D ∨ c ^^^ 0x20 = 0x7E ∨ c ^^^ 0x20 = 0x7F) := by
        rcases hc with rfl | rfl | rfl <;> decide
      have hback : c ^^^ 0x20 ^^^ 0x20 = c := protoCode.mask_mask c
      simp only [not_or] at hfree
      simpa [hs,parseBytes,protoParseByte,hfree,hb,hlt,hback] using hnext
    · have hs : protoCode.stuffOne c = [c] := by
        simp [StuffingCode.stuffOne,protoCode,hc]
      simp only [not_or] at hc
      simpa [hs,parseBytes,protoParseByte,hc,hb,he,hlt] using hnext

/-- A frame at the head of the ring is parsed whatever `isBegin` started with. -/
theorem parseBytes_frame (maxLen : ℕ) (isBegin : Bool) (packet rest : List UInt8)
    (hl : packet.length ≤ maxLen) :
    parseBytes (protoInit maxLen isBegin) (frame packet ++ rest) = some (packet,rest) := by
  have h := parseBytes_stuff ⟨[],maxLen,false,true⟩ packet rest rfl rfl (by simpa using hl)
  simpa [frame,parseBytes,protoParseByte,protoInit] using h

/-- The ring holds exactly the frames of `packets`, oldest first. -/
structure Represents (queue : Queue) (packets : List (List UInt8)) : Prop where
  valid : queue.rb.Valid
  contents_eq : queue.rb.contents = packets.flatMap frame
  bounded : ∀ p ∈ packets, p.length ≤ mqttBufSize

theorem queueInit_represents {queue : Queue} (h : Represents queue []) (bufferSize : ℤ)
    (alloc : Bool) : Represents (queueInit queue bufferSize alloc) [] where
  valid := ringbufInit_valid h.valid _ _
  contents_eq := ringbufInit_contents h.contents_eq _ _
  bounded := by simp

theorem zero_represents : Represents Queue.zero [] where
  valid := Ringbuf.valid_zero
  contents_eq := rfl
  bounded := by simp

theorem Represents.room_eq {queue : Queue} {packets : List (List UInt8)}
    (h : Represents queue packets) :
    queue.rb.room = queue.rb.size.toNat-(packets.flatMap frame).length := by
  have hl := contents_length h.valid
  rw [h.contents_eq] at hl
  unfold room
  omega

theorem toI16_stuff {packet : List UInt8} (hp : packet.length ≤ mqttBufSize) :
    toI16 (2+(protoCode.stuff packet).length) = (frame packet).length := by
  have h := protoCode.stuff_length_le packet
  simp only [frame,List.length_cons,List.length_append,List.length_nil]
  unfold mqttBufSize at hp
  unfold toI16
  rw [Int.bmod_def]
  split <;> omega

theorem queuePuts_room {queue : Queue} {packets : List (List UInt8)} (h : Represents queue packets)
    {packet : List UInt8} (hp : packet.length ≤ mqttBufSize)
    (hroom : (frame packet).length ≤ queue.rb.room) :
    (queuePuts queue packet).2 = (frame packet).length ∧
      (queuePuts queue packet).1.rb.size = queue.rb.size ∧
      Represents (queuePuts queue packet).1 (packets ++ [packet]) := by
  obtain ⟨hok,hgrow⟩ := putAll_fits h.valid (frame packet) hroom
  have hne : ((frame packet).length : ℤ) ≠ -1 := by omega
  simp only [queuePuts,protoAddRb_eq,hok,if_true,toI16_stuff hp,hne,if_false]
  refine ⟨trivial,hgrow.size_eq,hgrow.valid,?_,?_⟩
  · rw [hgrow.contents_eq,h.contents_eq]
    simp
  · intro p hmem
    rcases List.mem_append.mp hmem with hm | hm
    · exact h.bounded p hm
    · rw [List.mem_singleton.mp hm]
      exact hp

theorem queuePuts_full {queue : Queue} {packets : List (List UInt8)} (h : Represents queue packets)
    {packet : List UInt8} (hroom : queue.rb.room < (frame packet).length) :
    (queuePuts queue packet).2 = -1 ∧ (queuePuts queue packet).1.rb.size = queue.rb.size ∧
      Represents (queuePuts queue packet).1 packets := by
  obtain ⟨hok,ys,hgrow⟩ := putAll_overflows h.valid (frame packet) hroom
  obtain ⟨hv,hcont⟩ := hgrow.rollback h.valid
  simp only [queuePuts,protoAddRb_eq,hok]
  exact ⟨rfl,hgrow.size_eq,hv,hcont.trans h.contents_eq,h.bounded⟩

theorem queuePuts_ret_iff {queue : Queue} {packets : List (List UInt8)}
    (h : Represents queue packets) {packet : List UInt8} (hp : packet.length ≤ mqttBufSize) :
    (queuePuts queue packet).2 = -1 ↔ queue.rb.room < (frame packet).length := by
  rcases Nat.lt_or_ge queue.rb.room (frame packet).length with hroom | hroom
  · exact iff_of_true (queuePuts_full h hroom).1 hroom
  · have hret := (queuePuts_room h hp hroom).1
    exact iff_of_false (by omega) (by omega)

theorem queueGets_cons {queue : Queue} {packet : List UInt8} {packets : List (List UInt8)}
    (h : Represents queue (packet::packets)) {maxLen : ℕ} (hm : mqttBufSize ≤ maxLen)
    (isBegin : Bool) :
    (queueGets queue maxLen isBegin).2 = some packet ∧
      Represents (queueGets queue maxLen isBegin).1 packets := by
  have hl := h.bounded packet (by simp)
  have hc := h.contents_eq
  rw [List.flatMap_cons] at hc
  have hparse := parseBytes_frame maxLen isBegin packet (packets.flatMap frame) (hl.trans hm)
  rw [← hc] at hparse
  have hfill : queue.rb.contents.length ≤ queue.rb.fillCnt.toNat := by simp [contents]
  obtain ⟨rb',hloop,hv,hcont⟩ := protoParseLoop_some h.valid hfill hparse
  have hgets : queueGets queue maxLen isBegin = ({ queue with rb := rb' },some packet) := by
    simp only [queueGets,protoParseRb,hloop]
  rw [hgets]
  exact ⟨rfl,hv,hcont,fun p hp => h.bounded p (by simp [hp])⟩

theorem queueGets_nil {queue : Queue} (h : Represents queue []) (maxLen : ℕ) (isBegin : Bool) :
    queueGets queue maxLen isBegin = (queue,none) := by
  have hget := ringbufGet_nil h.valid (by simpa using h.contents_eq)
  unfold queueGets protoParseRb
  cases queue.rb.fillCnt.toNat with
  | zero => rfl
  | succ n => simp [protoParseLoop,hget]

theorem queueGets_rollback (queue : Queue) (maxLen : ℕ) (isBegin : Bool) :
    let q := (queueGets queue maxLen isBegin).1
    { q with rb := { q.rb with pR := queue.rb.pR, fillCnt := queue.rb.fillCnt } } = queue := by
  have h := protoParseLoop_frame queue.rb.fillCnt.toNat queue.rb (protoInit maxLen isBegin)
  simp only [queueGets,protoParseRb,h]

example : (queueGets (queuePuts (queueInit Queue.zero 8 true) [0x7D,0x01]).1 2048 false).2 =
    some [0x7D,0x01] := by decide

/-- A packet the client may queue. -/
structure Packet where
  data : List UInt8
  nonempty : data ≠ []
  bounded : data.length ≤ mqttBufSize

/-- A call of the queue's interface. The caller's buffer takes any packet; `isBegin` is
the stack byte the parser starts with. -/
inductive QueueCall
  | puts (packet : Packet)
  | gets (maxLen : { n : ℕ // mqttBufSize ≤ n ∧ n < 65536 }) (isBegin : Bool)

inductive QueueReply
  | ret (value : ℤ)
  | got (packet : Option (List UInt8))

def queueStep (queue : Queue) : QueueCall → Queue × QueueReply
  | .puts packet => ((queuePuts queue packet.data).1,.ret (queuePuts queue packet.data).2)
  | .gets maxLen isBegin =>
    ((queueGets queue maxLen isBegin).1,.got (queueGets queue maxLen isBegin).2)

def queueTrace : Queue → List QueueCall → List (QueueCall × QueueReply)
  | _, [] => []
  | queue, call::calls =>
    (call,(queueStep queue call).2) :: queueTrace (queueStep queue call).1 calls

/-- The replies a list of packets gives in a buffer of `size` bytes: a put whose frame
does not fit beside those of the list returns -1 and is as if it had not been called, any
other put appends, a get returns and removes the oldest packet or fails on the empty
list. -/
def FifoTrace (size : ℕ) : List (List UInt8) → List (QueueCall × QueueReply) → Prop
  | _, [] => True
  | packets, (.puts packet,.ret value)::trace =>
    if size < (packets.flatMap frame).length+(frame packet.data).length then
      value = -1 ∧ FifoTrace size packets trace
    else value = (frame packet.data).length ∧ FifoTrace size (packets ++ [packet.data]) trace
  | packets, (.gets _ _,.got reply)::trace =>
    reply = packets.head? ∧ FifoTrace size packets.tail trace
  | _, _::_ => False

theorem queueGets_size (queue : Queue) (maxLen : ℕ) (isBegin : Bool) :
    (queueGets queue maxLen isBegin).1.rb.size = queue.rb.size := by
  have h := protoParseLoop_frame queue.rb.fillCnt.toNat queue.rb (protoInit maxLen isBegin)
  simpa [queueGets,protoParseRb] using congrArg Ringbuf.size h

theorem queueTrace_fifo {queue : Queue} {packets : List (List UInt8)} {size : ℕ}
    (h : Represents queue packets) (hs : queue.rb.size.toNat = size) (calls : List QueueCall) :
    FifoTrace size packets (queueTrace queue calls) := by
  induction calls generalizing queue packets with
  | nil => exact trivial
  | cons call calls ih =>
    cases call with
    | puts packet =>
      have hroom := h.room_eq
      rw [hs] at hroom
      simp only [queueTrace,queueStep,FifoTrace]
      split
      case isTrue hfull =>
        have hpos := frame_length_pos packet.data
        have hover : queue.rb.room < (frame packet.data).length := by omega
        obtain ⟨hret,hsize,hrep⟩ := queuePuts_full h hover
        exact ⟨hret,ih hrep (by rw [hsize,hs])⟩
      case isFalse hfit =>
        obtain ⟨hret,hsize,hrep⟩ := queuePuts_room h packet.bounded (by omega)
        exact ⟨hret,ih hrep (by rw [hsize,hs])⟩
    | gets maxLen isBegin =>
      have hsize := queueGets_size queue maxLen isBegin
      simp only [queueTrace,queueStep,FifoTrace]
      cases packets with
      | nil =>
        have hnil := queueGets_nil h maxLen isBegin
        simpa [hnil] using ih h hs
      | cons packet packets =>
        obtain ⟨hgot,hrep⟩ := queueGets_cons h maxLen.property.1 isBegin
        exact ⟨hgot,ih hrep (by rw [hsize,hs])⟩

/-- What `QUEUE_Init` makes usable of a cleared queue: nothing where the allocation fails
or `RINGBUF_Init` refuses the size. -/
def capacity (bufferSize : ℤ) (alloc : Bool) : ℕ :=
  if alloc ∧ 2 ≤ bufferSize then bufferSize.toNat else 0

theorem queueInit_size (bufferSize : ℤ) (alloc : Bool) :
    (queueInit Queue.zero bufferSize alloc).rb.size.toNat = capacity bufferSize alloc := by
  unfold capacity
  by_cases hs : bufferSize < 2
  · cases alloc <;> simp [queueInit,ringbufInit,Queue.zero,Ringbuf.zero,hs]
  · cases alloc
    · rfl
    · have hle : 2 ≤ bufferSize := by omega
      simp [queueInit,ringbufInit,hs,hle]

/-- For every buffer size and every sequence of calls the queue is a first-in first-out
list of packets, and a put fails only where the buffer is full part-way. -/
theorem queue_refines_fifo (bufferSize : ℤ) (alloc : Bool) (calls : List QueueCall) :
    FifoTrace (capacity bufferSize alloc) []
      (queueTrace (queueInit Queue.zero bufferSize alloc) calls) :=
  queueTrace_fifo (queueInit_represents zero_represents bufferSize alloc)
    (queueInit_size bufferSize alloc) calls

end MessageQueue
end MeterLogger
