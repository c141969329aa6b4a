import MeterLogger.Buffers
import MeterLogger.Bytes
import MeterLogger.Decimal
import MeterLogger.OtaHeader

/-!
# Reading the crash log

`read_stack_trace` answers with 128 bytes of the partition as hexadecimal digits. The offset asked
for is taken modulo the size of the partition, so a client that goes on at the end begins again and
never sees an empty answer.
-/

namespace MeterLogger
namespace StackTrace

open Buffers CStrings Decimal

def stackTraceN : ℕ := 0x4000
def stackTraceSec : ℕ := 0xF8
def spiFlashSecSize : ℕ := 0x1000
def mqttMessageL : ℕ := 512

/-- One pair of the parameters; the value is stored in a `uint32_t`. -/
def readOffset (offset : ℕ) (token : List UInt8) : ℕ :=
  match segments 0x3d token with
  | key::value::_ => if key.take 6 = ascii "offset" then (atoi value%2^32).toNat else offset
  | _ => offset

/-- The offset asked for; `none` is a null pointer. -/
def parsedOffset (params : Option (List UInt8)) : ℕ :=
  match params with
  | none => 0
  | some params => (segments 0x26 (params.take 127)).foldl readOffset 0

/-- The boundary wrap: modulo the size, the lowest two bits cleared. -/
def wrapOffset (offset : ℕ) : ℕ := offset%stackTraceN/4*4

def readLen (offset : ℕ) : ℕ := if offset+128 > stackTraceN then stackTraceN-offset else 128

def hexDigit (n : ℕ) : UInt8 := UInt8.ofNat (if n < 10 then 48+n else 87+n)

/-- `%02x` -/
def hexOf (b : UInt8) : List UInt8 := [hexDigit (b.toNat/16),hexDigit (b.toNat%16)]

/-- `strncat` to the text, of which an array of `MQTT_MESSAGE_L` bytes has room for the rest. -/
def appendHex (cleartext : List UInt8) (b : UInt8) : List UInt8 :=
  cleartext ++ (hexOf b).take (mqttMessageL-cleartext.length-1)

/-- The reply of `mqtt_rpc_read_stack_trace`, before it is encrypted. -/
def mqttRpcReadStackTrace (flash : Buf) (params : Option (List UInt8)) : List UInt8 :=
  let offset := wrapOffset (parsedOffset params)
  let rawFlash := load flash (stackTraceSec*spiFlashSecSize+offset) (readLen offset)
  let cleartext := (ascii "offset=" ++ decimal offset ++ ascii "&data=").take (mqttMessageL-1)
  rawFlash.foldl appendHex cleartext

def contents (flash : Buf) : List UInt8 := load flash (stackTraceSec*spiFlashSecSize) stackTraceN

/-- What is asked for at an offset. -/
def request (offset : ℕ) : List UInt8 := ascii "offset=" ++ decimal offset

/-- The bytes the answer gives: the digits behind `data=`. -/
def dataOf (reply : List UInt8) : List UInt8 :=
  match strchr reply 0x26 with
  | none => []
  | some rest => (OtaHeader.hexToBytes (rest.drop 6)).getD []

/-- The next offset and the bytes received, after `k` calls. -/
def page (flash : Buf) : ℕ → ℕ × List UInt8
  | 0 => (0,[])
  | k+1 =>
    let (offset,received) := page flash k
    let block := dataOf (mqttRpcReadStackTrace flash (some (request offset)))
    (offset+block.length,received ++ block)

/-- The partition, again and again. -/
def repeated (flash : Buf) : Buf := fun i => flash (stackTraceSec*spiFlashSecSize+i%stackTraceN)

theorem wrapOffset_le (offset : ℕ) : wrapOffset offset+4 ≤ stackTraceN := by
  rw [wrapOffset,stackTraceN]
  omega

theorem readLen_bounds (offset : ℕ) :
    4 ≤ readLen (wrapOffset offset) ∧ readLen (wrapOffset offset) ≤ 128 ∧
      wrapOffset offset+readLen (wrapOffset offset) ≤ stackTraceN := by
  have hle := wrapOffset_le offset
  rw [readLen]
  rw [stackTraceN] at hle ⊢
  split <;> omega

theorem hexToBytes_hexOf (bs : List UInt8) : OtaHeader.hexToBytes (bs.flatMap hexOf) = some bs := by
  have hdigit : ∀ n < 16, OtaHeader.hexCharToVal (hexDigit n) = some n := by decide
  induction bs with
  | nil => exact rfl
  | cons b bs ih =>
    have hlt := b.toNat_lt
    have hbyte : UInt8.ofNat (b.toNat/16*16+b.toNat%16) = b := by
      rw [Nat.div_add_mod',UInt8.ofNat_toNat]
    rw [List.flatMap_cons,hexOf,List.cons_append,List.cons_append,List.nil_append,
      OtaHeader.hexToBytes,hdigit _ (by omega),hdigit _ (by omega),ih]
    exact congrArg (fun b => some (b::bs)) hbyte

theorem foldl_appendHex {text : List UInt8} (bs : List UInt8)
    (h : text.length+2*bs.length < mqttMessageL) :
    bs.foldl appendHex text = text ++ bs.flatMap hexOf := by
  induction bs generalizing text with
  | nil => exact (List.append_nil text).symm
  | cons b bs ih =>
    rw [List.length_cons] at h
    have htake : (hexOf b).take (mqttMessageL-text.length-1) = hexOf b :=
      List.take_of_length_le (by simp only [hexOf,List.length_cons,List.length_nil]; omega)
    have hlen : (text ++ hexOf b).length = text.length+2 := by
      rw [List.length_append]
      exact rfl
    rw [List.foldl_cons,appendHex,htake,ih (by rw [hlen]; omega),List.flatMap_cons,
      List.append_assoc]

theorem not_mem_decimal {b : UInt8} (hb : isDigit b = false) (n : ℕ) : b ∉ decimal n := fun h => by
  rw [isDigit_of_mem_decimal h] at hb
  cases hb

theorem dataOf_text {name : List UInt8} (hfree : 38 ∉ name) (bs : List UInt8) :
    dataOf (name ++ (ascii "&data=" ++ bs.flatMap hexOf)) = bs := by
  have hamp : ascii "&data=" = 38::ascii "data=" := rfl
  have hdrop : ∀ hex, (38::(ascii "data=" ++ hex)).drop 6 = hex := fun _ => rfl
  rw [dataOf,hamp,List.cons_append,strchr_first hfree]
  simp only [hdrop,hexToBytes_hexOf,Option.getD_some]

theorem dataOf_reply (flash : Buf) (params : Option (List UInt8)) :
    dataOf (mqttRpcReadStackTrace flash params) =
      load flash (stackTraceSec*spiFlashSecSize+wrapOffset (parsedOffset params))
        (readLen (wrapOffset (parsedOffset params))) := by
  obtain ⟨-,hlen,-⟩ := readLen_bounds (parsedOffset params)
  have hle := wrapOffset_le (parsedOffset params)
  rw [mqttRpcReadStackTrace]
  generalize wrapOffset (parsedOffset params) = offset at hlen hle ⊢
  have hdec : (decimal offset).length ≤ 5 := by
    rw [stackTraceN] at hle
    exact decimal_length_le (by omega) (by decide)
  have hsize : (ascii "offset=" ++ decimal offset ++ ascii "&data=").length ≤ 18 := by
    have hname : (ascii "offset=").length = 7 := by decide
    have hkey : (ascii "&data=").length = 6 := by decide
    rw [List.length_append,List.length_append,hname,hkey]
    omega
  have hfree : (38 : UInt8) ∉ ascii "offset=" ++ decimal offset := by
    rw [List.mem_append,not_or]
    exact ⟨by decide,not_mem_decimal (by decide) _⟩
  have htake : (ascii "offset=" ++ decimal offset ++ ascii "&data=").take (mqttMessageL-1) =
      ascii "offset=" ++ decimal offset ++ ascii "&data=" :=
    List.take_of_length_le (by rw [mqttMessageL]; omega)
  have hroom : (ascii "offset=" ++ decimal offset ++ ascii "&data=").length+2*(load flash
      (stackTraceSec*spiFlashSecSize+offset) (readLen offset)).length < mqttMessageL := by
    rw [load_length,mqttMessageL]
    omega
  rw [htake,foldl_appendHex _ hroom,List.append_assoc,dataOf_text hfree]

theorem dataOf_ne_nil (flash : Buf) (params : Option (List UInt8)) :
    dataOf (mqttRpcReadStackTrace flash params) ≠ [] := by
  intro h
  have hlen := congrArg List.length h
  rw [dataOf_reply,load_length,List.length_nil] at hlen
  have hpos := (readLen_bounds (parsedOffset params)).1
  omega

theorem parsedOffset_request {n : ℕ} (hn : n < 2^31) : parsedOffset (some (request n)) = n := by
  have hdec : (decimal n).length ≤ 10 := decimal_length_le (by omega) (by decide)
  have htake : (request n).take 127 = request n := by
    refine List.take_of_length_le ?_
    have hname : (ascii "offset=").length = 7 := by decide
    rw [request,List.length_append,hname]
    omega
  have hpair : segments 0x26 (request n) = [request n] := by
    refine segments_token (List.append_ne_nil_of_left_ne_nil (by decide) _) ?_
    intro b hb
    rcases List.mem_append.1 hb with hb | hb
    · exact ne_of_free (by decide) b hb
    · exact ne_of_free (not_mem_decimal (by decide) n) b hb
  have hvalue : segments 0x3d (request n) = [ascii "offset",decimal n] := by
    have hsplit : request n = ascii "offset" ++ 0x3d::decimal n := rfl
    rw [hsplit,segments_cons (by decide) (ne_of_free (by decide)),
      segments_token (decimal_ne_nil n) (ne_of_free (not_mem_decimal (by decide) n))]
  have hatoi : (atoi (decimal n)%2^32).toNat = n := by
    rw [atoi_numeral (isNumeral_decimal n)]
    omega
  simp only [parsedOffset]
  rw [htake,hpair,List.foldl_cons,List.foldl_nil,readOffset,hvalue]
  simp only
  rw [if_pos (by decide),hatoi]

theorem page_repeated (flash : Buf) {k : ℕ} (hk : 128*k ≤ 2^31) :
    page flash k = (128*k,load (repeated flash) 0 (128*k)) := by
  induction k with
  | zero => exact rfl
  | succ k ih =>
    have hblock : dataOf (mqttRpcReadStackTrace flash (some (request (128*k)))) =
        load (repeated flash) (128*k) 128 := by
      have hwrap : wrapOffset (128*k) = 128*k%stackTraceN := by
        rw [wrapOffset,stackTraceN]
        omega
      have hlen : readLen (128*k%stackTraceN) = 128 := by
        rw [readLen,stackTraceN,if_neg (by omega)]
      rw [dataOf_reply,parsedOffset_request (by omega),hwrap,hlen]
      apply List.map_congr_left
      intro i hi
      have hi := List.mem_range.1 hi
      have hmod : (128*k+i)%stackTraceN = 128*k%stackTraceN+i := by
        rw [stackTraceN]
        omega
      rw [repeated,hmod,Nat.add_assoc]
    rw [page,ih (by omega)]
    simp only [hblock]
    rw [load_length,Nat.mul_succ,load_add,Nat.zero_add]

theorem repeated_contents (flash : Buf) : load (repeated flash) 0 stackTraceN = contents flash := by
  rw [contents,load,load]
  apply List.map_congr_left
  intro i hi
  rw [repeated,Nat.zero_add,Nat.mod_eq_of_lt (List.mem_range.1 hi)]

theorem load_drop_take (b : Buf) (i n m k : ℕ) :
    ((load b i n).drop m).take k = load b (i+m) (min k (n-m)) := by
  apply List.ext_getElem
  · simp
  · intro j hj hj'
    rw [List.getElem_take,List.getElem_drop,load_getElem,load_getElem,Nat.add_assoc]

/-- For every partition: 128 calls give its contents, but no answer is ever empty, and a request at
or past the end is answered from the beginning. -/
theorem stack_trace_wraps (flash : Buf) :
    page flash 128 = (stackTraceN,contents flash) ∧
      (∀ params, dataOf (mqttRpcReadStackTrace flash params) ≠ []) ∧
      ∀ n < 2^31, dataOf (mqttRpcReadStackTrace flash (some (request n))) =
        ((contents flash).drop (n%stackTraceN/4*4)).take 128 := by
  refine ⟨?_,dataOf_ne_nil flash,?_⟩
  · have hwhole : 128*128 = stackTraceN := rfl
    rw [page_repeated flash (by omega),hwhole,repeated_contents]
  · intro n hn
    have hlen : readLen (wrapOffset n) = min 128 (stackTraceN-wrapOffset n) := by
      have hle := wrapOffset_le n
      rw [readLen]
      split <;> omega
    rw [dataOf_reply,parsedOffset_request hn,contents,load_drop_take,hlen,wrapOffset]

/-- The client that waits for an empty answer does not stop, whatever the partition holds: here it
holds zeros, and a request at the end gets 128 of them. -/
theorem stack_trace_endless :
    (∀ k, dataOf (mqttRpcReadStackTrace (fun _ => 0) (some (request (page (fun _ => 0) k).1))) ≠ []) ∧
      dataOf (mqttRpcReadStackTrace (fun _ => 0) (some (request stackTraceN))) ≠ [] :=
  ⟨fun _ => dataOf_ne_nil _ _,dataOf_ne_nil _ _⟩

end StackTrace
end MeterLogger
