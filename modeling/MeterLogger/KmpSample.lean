import Mathlib.Tactic.Linarith
import Mathlib.Tactic.NormNum
import MeterLogger.KmpText

/-!
# Samples from decoded replies

`kmp_received_task` behind the call of `kmp_decode_frame`: a reply without a serial number is
taken for the eight registers that were requested, published as a sample and its energy kept.
The registers are read by their place in the reply. This gives which replies are published
under the right names, and when the energy kept is that of the meter.
-/

namespace MeterLogger
namespace KmpSample

open CStrings Decimal Kmp KmpText Buffers

/-- The keys of a sample. -/
inductive Key
  | t1 | t2 | tdif | flow1 | effect1 | hr | v1 | e1
  deriving DecidableEq, Repr

def Key.name : Key → List UInt8
  | .t1 => ascii "t1"
  | .t2 => ascii "t2"
  | .tdif => ascii "tdif"
  | .flow1 => ascii "flow1"
  | .effect1 => ascii "effect1"
  | .hr => ascii "hr"
  | .v1 => ascii "v1"
  | .e1 => ascii "e1"

def Key.position : Key → ℕ
  | .t1 => 3
  | .t2 => 4
  | .tdif => 5
  | .flow1 => 6
  | .effect1 => 7
  | .hr => 2
  | .v1 => 1
  | .e1 => 0

def Key.rid : Key → ℤ
  | .t1 => 0x56
  | .t2 => 0x57
  | .tdif => 0x59
  | .flow1 => 0x4A
  | .effect1 => 0x50
  | .hr => 0x3EC
  | .v1 => 0x44
  | .e1 => 0x3c

def keys : List Key := [.t1,.t2,.tdif,.flow1,.effect1,.hr,.v1,.e1]

/-- The registers that `kmp_get_register_timer_func` requests. -/
def registerList : List UInt16 := [0x3c,0x44,0x3EC,0x56,0x57,0x59,0x4A,0x50]

/-- A key with the value and the unit published for it. -/
structure Field where
  key : Key
  value : List UInt8
  unit : List UInt8
  deriving DecidableEq

def Field.text (f : Field) : List UInt8 :=
  f.key.name ++ ascii "=" ++ f.value ++ ascii " " ++ f.unit ++ ascii "&"

/-- What `MQTT_Publish` is given, before encryption. -/
structure Sample where
  topic : List UInt8
  heap : ℕ
  fields : List Field
  deriving DecidableEq

/-- `heap=12345&t1=23.45 C&...` -/
def Sample.text (s : Sample) : List UInt8 :=
  ascii "heap=" ++ decimal s.heap ++ ascii "&" ++ s.fields.flatMap Field.text

/-- The globals of `kmp_request.c`, with `e1_kwh` as an exact number, and what was
published. -/
structure Request where
  kmpSerial : ℕ
  e1Kwh : ℚ
  mqttClient : Bool
  published : List Sample

/-- What the task finds: the bytes of the message buffer and of `kmp_value_string`, and what
the system functions return. -/
structure Env where
  buffer : Buf
  valueString : List UInt8
  heapSize : ℕ
  unixTime : ℕ

/-- The text of every key in turn, and what `kmp_value_string` holds in the end. -/
def render (registers : ℕ → Register) :
    List Key → List UInt8 → Option (List Field × List UInt8)
  | [], valueString => some ([],valueString)
  | k::ks, valueString =>
    let r := registers k.position
    match kmpValueToString r.value r.siEx with
    | .overrun => none
    | .refused =>
      (render registers ks valueString).map fun p =>
        (⟨k,ascii "NaN",kmpUnitToString r.unit⟩::p.1,p.2)
    | .text s =>
      (render registers ks s).map fun p => (⟨k,s,kmpUnitToString r.unit⟩::p.1,p.2)

/-- `/sample/v2/serial/unix_time` -/
def sampleTopic (serial unixTime : ℕ) : List UInt8 :=
  ascii "/sample/v2/" ++ decimal serial ++ ascii "/" ++ decimal unixTime

def messageFrame (env : Env) (message : List UInt8) : Buf := store env.buffer 0 message

/-- The frame that `kmp_decode_frame` works on behind the unstuffing. -/
def unstuffed (frame : Buf) (n : ℕ) : Frame := kmpByteUnstuff ⟨frame,n,0⟩

def replyRegisters (frame : Buf) (n : ℕ) : List Register :=
  if (unstuffed frame n).frame 2 = 0x10 then
    (List.range (((unstuffed frame n).frameLength-4-2)/9)).map fun i =>
      registerAt (unstuffed frame n).frame (9*i+3)
  else []

/-- `kmp_register_list` has eight entries. -/
def registerListLength : ℕ := 8

/-- The sample is printed and its energy kept. -/
def takeSample (env : Env) (s : Request) (registers : ℕ → Register) : Option Request :=
  (render registers keys env.valueString).map fun p =>
    let e1Kwh := (scanFloat p.2).getD s.e1Kwh
    let mwh := (ascii "MWh").isPrefixOf (kmpUnitToString (registers Key.e1.position).unit)
    { s with
      e1Kwh := if mwh then e1Kwh*1000 else e1Kwh
      published :=
        if s.mqttClient ∧ s.kmpSerial ≠ 0 then
          s.published ++ [⟨sampleTopic s.kmpSerial env.unixTime,env.heapSize,p.1⟩]
        else s.published }

/-- `kmp_received_task` from the call of `kmp_decode_frame` on; `none` when it writes behind
the register list or runs over `leading_zeroes`. -/
def kmpReceivedTask (env : Env) (s : Request) (message : List UInt8) : Option Request :=
  let decoded := kmpDecodeFrame (messageFrame env message) message.length
  if 0 < decoded.1 then
    if registerListLength < (replyRegisters (messageFrame env message) message.length).length then none
    else if decoded.2.serial ≠ 0 then some { s with kmpSerial := decoded.2.serial }
    else takeSample env s decoded.2.registers
  else some s

def valueText (r : Register) : List UInt8 :=
  match kmpValueToString r.value r.siEx with
  | .text s => s
  | _ => ascii "NaN"

def Overruns (r : Register) : Prop := fraction r.siEx = true ∧ exponent r.siEx = 0

instance (r : Register) : Decidable (Overruns r) := inferInstanceAs (Decidable (_ ∧ _))

/-- The text of the last value printed. -/
def lastText (registers : ℕ → Register) (ks : List Key) (valueString : List UInt8) : List UInt8 :=
  ks.foldl (fun text k =>
    match kmpValueToString (registers k.position).value (registers k.position).siEx with
    | .text s => s
    | _ => text) valueString

theorem mem_keys (k : Key) : k ∈ keys := by
  cases k <;> decide

theorem render_none {registers : ℕ → Register} {ks : List Key} {k : Key} (hk : k ∈ ks)
    (h : Overruns (registers k.position)) (valueString : List UInt8) :
    render registers ks valueString = none := by
  induction ks generalizing valueString with
  | nil => exact absurd hk List.not_mem_nil
  | cons j ks ih =>
    rw [render]
    cases hr : kmpValueToString (registers j.position).value (registers j.position).siEx with
    | overrun => rfl
    | _ =>
      have hne : k ≠ j := by
        rintro rfl
        rw [(kmpValueToString_overrun_iff _ _).mpr h] at hr
        cases hr
      simp only
      rw [ih ((List.mem_cons.mp hk).resolve_left hne)]
      rfl

theorem render_some {registers : ℕ → Register} {ks : List Key}
    (h : ∀ k ∈ ks, ¬Overruns (registers k.position)) (valueString : List UInt8) :
    render registers ks valueString =
      some (ks.map fun k =>
          ⟨k,valueText (registers k.position),kmpUnitToString (registers k.position).unit⟩,
        lastText registers ks valueString) := by
  induction ks generalizing valueString with
  | nil => rfl
  | cons k ks ih =>
    have hk := h k (by simp)
    have hks : ∀ j ∈ ks, ¬Overruns (registers j.position) := fun j hj => h j (by simp [hj])
    rw [render,lastText,List.foldl_cons,List.map_cons,valueText]
    cases hr : kmpValueToString (registers k.position).value (registers k.position).siEx with
    | overrun => exact absurd ((kmpValueToString_overrun_iff _ _).mp hr) hk
    | refused =>
      simp only
      rw [ih hks]
      rfl
    | text s =>
      simp only
      rw [ih hks]
      rfl

theorem kmpDecodeFrame_pos {frame : Buf} {n : ℕ} (h : 0 < (kmpDecodeFrame frame n).1) :
    kmpDecodeFrame frame n = decodeData (unstuffed frame n) := by
  rw [kmpDecodeFrame] at h ⊢
  split at h
  · exact absurd h (lt_irrefl 0)
  · rename_i hlen
    split at h
    · rename_i hstop
      rw [if_neg hlen,if_pos hstop]
      simp only at h ⊢
      split at h
      · rename_i hcrc
        rw [if_pos hcrc]
        rfl
      · exact absurd h (by decide)
    · exact absurd h (lt_irrefl 0)

/-- The registers of the response are those of the reply, with zeros behind them. -/
theorem decoded_registers {frame : Buf} {n : ℕ} (h : 0 < (kmpDecodeFrame frame n).1) :
    (kmpDecodeFrame frame n).2.registers =
      fun p => (replyRegisters frame n).getD p Register.zero := by
  have hdecode := kmpDecodeFrame_pos h
  rw [hdecode] at h ⊢
  funext p
  rw [decodeData] at h ⊢
  simp only at h ⊢
  rw [replyRegisters]
  by_cases hreg : (unstuffed frame n).frame 2 = 0x10
  · have h₁ : ¬(unstuffed frame n).frame 2 = 0x01 := by rw [hreg]; decide
    have h₂ : ¬(unstuffed frame n).frame 2 = 0x02 := by rw [hreg]; decide
    rw [if_neg h₁,if_neg h₂,if_pos hreg] at h ⊢
    rw [if_pos hreg]
    split at h
    · rename_i hdata
      rw [if_pos hdata]
      simp only [List.getD_eq_getElem?_getD,List.getElem?_map]
      by_cases hp : p < ((unstuffed frame n).frameLength-4-2)/9
      · simp [hp]
      · simp [hp]
    · exact absurd h (lt_irrefl 0)
  · rw [if_neg hreg,if_neg hreg,List.getD_nil]
    split <;> try split
    all_goals try split
    all_goals rfl

theorem decoded_serial {frame : Buf} {n : ℕ} (h : 0 < (kmpDecodeFrame frame n).1)
    (hreg : (unstuffed frame n).frame 2 = 0x10) : (kmpDecodeFrame frame n).2.serial = 0 := by
  rw [kmpDecodeFrame_pos h,decodeData]
  have h₁ : ¬(unstuffed frame n).frame 2 = 0x01 := by rw [hreg]; decide
  have h₂ : ¬(unstuffed frame n).frame 2 = 0x02 := by rw [hreg]; decide
  simp only
  rw [if_neg h₁,if_neg h₂,if_pos hreg]
  split <;> rfl

section Labels

variable (env : Env) (s : Request) (message : List UInt8)

def IsRegisterReply : Prop :=
  0 < (kmpDecodeFrame (messageFrame env message) message.length).1 ∧
    (unstuffed (messageFrame env message) message.length).frame 2 = 0x10

/-- The registers in the reply. -/
def registersIn : List Register := replyRegisters (messageFrame env message) message.length

/-- The register at a place of the register list. -/
def entry (p : ℕ) : Register := (registersIn env message).getD p Register.zero

/-- The field shows the register requested for its key, or no number when the reply lacks it. -/
def Labelled (registers : List Register) (f : Field) : Prop :=
  (∃ r ∈ registers, r.rid = f.key.rid ∧ f.value = valueText r ∧ f.unit = kmpUnitToString r.unit) ∨
    ((∀ r ∈ registers, r.rid ≠ f.key.rid) ∧ f.value = ascii "NaN")

/-- What the message makes the task publish is labelled as the registers of the reply are, and
comes of a register reply. -/
def SamplesLabelled : Prop :=
  ∀ t new, kmpReceivedTask env s message = some t → t.published = s.published ++ new →
    ∀ sample ∈ new, IsRegisterReply env message ∧
      ∀ f ∈ sample.fields, Labelled (registersIn env message) f

/-- The message is decoded, taken for a sample, printed and published. -/
structure Publishes : Prop where
  decoded : 0 < (kmpDecodeFrame (messageFrame env message) message.length).1
  no_serial : (kmpDecodeFrame (messageFrame env message) message.length).2.serial = 0
  fits : (registersIn env message).length ≤ registerListLength
  printed : ∀ k : Key, ¬Overruns (entry env message k.position)
  client : s.mqttClient = true
  serial : s.kmpSerial ≠ 0

/-- At the place read for a key stands the register requested for it, or one that prints the
same; when the reply lacks the requested one, a register with an exponent above 9. -/
def InPlace (k : Key) : Prop :=
  (∃ r ∈ registersIn env message, r.rid = k.rid ∧
      valueText (entry env message k.position) = valueText r ∧
      kmpUnitToString (entry env message k.position).unit = kmpUnitToString r.unit) ∨
    ((∀ r ∈ registersIn env message, r.rid ≠ k.rid) ∧ 9 < exponent (entry env message k.position).siEx)

variable {env s message}

theorem valueText_nan_iff {r : Register} (h : ¬Overruns r) :
    valueText r = ascii "NaN" ↔ 9 < exponent r.siEx := by
  rw [valueText,← kmpValueToString_refused_iff r.value]
  cases hr : kmpValueToString r.value r.siEx with
  | refused => simp
  | text t => simpa using text_ne_nan hr
  | overrun => exact absurd ((kmpValueToString_overrun_iff _ _).mp hr) h

theorem takeSample_spec {registers : ℕ → Register} (h : ∀ k : Key, ¬Overruns (registers k.position)) :
    takeSample env s registers = some
      { s with
        e1Kwh :=
          if (ascii "MWh").isPrefixOf (kmpUnitToString (registers Key.e1.position).unit) then
            (scanFloat (lastText registers keys env.valueString)).getD s.e1Kwh*1000
          else (scanFloat (lastText registers keys env.valueString)).getD s.e1Kwh
        published :=
          if s.mqttClient ∧ s.kmpSerial ≠ 0 then
            s.published ++ [⟨sampleTopic s.kmpSerial env.unixTime,env.heapSize,keys.map fun k =>
              ⟨k,valueText (registers k.position),kmpUnitToString (registers k.position).unit⟩⟩]
          else s.published } := by
  rw [takeSample,render_some fun k _ => h k]
  rfl

theorem takeSample_none {registers : ℕ → Register} {k : Key} (h : Overruns (registers k.position)) :
    takeSample env s registers = none := by
  rw [takeSample,render_none (mem_keys k) h]
  rfl

theorem decoded_entries (h : 0 < (kmpDecodeFrame (messageFrame env message) message.length).1) :
    (kmpDecodeFrame (messageFrame env message) message.length).2.registers = entry env message :=
  decoded_registers h

theorem kmpReceivedTask_sample
    (hdecoded : 0 < (kmpDecodeFrame (messageFrame env message) message.length).1)
    (hserial : (kmpDecodeFrame (messageFrame env message) message.length).2.serial = 0)
    (hfits : (registersIn env message).length ≤ registerListLength) :
    kmpReceivedTask env s message = takeSample env s (entry env message) := by
  have hfits' : ¬registerListLength <
      (replyRegisters (messageFrame env message) message.length).length := Nat.not_lt.mpr hfits
  rw [kmpReceivedTask,if_pos hdecoded,if_neg hfits',if_neg (not_not.mpr hserial),
    decoded_entries hdecoded]

theorem kmpReceivedTask_publishes (h : Publishes env s message) :
    ∃ t, kmpReceivedTask env s message = some t ∧
      t.published = s.published ++ [⟨sampleTopic s.kmpSerial env.unixTime,env.heapSize,
        keys.map fun k =>
          ⟨k,valueText (entry env message k.position),kmpUnitToString (entry env message k.position).unit⟩⟩] := by
  rw [kmpReceivedTask_sample h.decoded h.no_serial h.fits,takeSample_spec h.printed]
  exact ⟨_,rfl,if_pos ⟨h.client,h.serial⟩⟩

theorem kmpReceivedTask_silent (h : ¬Publishes env s message) {t : Request}
    (ht : kmpReceivedTask env s message = some t) : t.published = s.published := by
  rw [kmpReceivedTask] at ht
  split at ht
  · rename_i hdecoded
    split at ht
    · cases ht
    rename_i hfits
    split at ht
    · cases ht
      rfl
    rename_i hserial
    rw [decoded_entries hdecoded] at ht
    by_cases hprinted : ∀ k : Key, ¬Overruns (entry env message k.position)
    · rw [takeSample_spec hprinted] at ht
      cases ht
      apply if_neg
      rintro ⟨hclient,hknown⟩
      exact h ⟨hdecoded,not_not.mp hserial,Nat.not_lt.mp hfits,hprinted,hclient,hknown⟩
    · push Not at hprinted
      obtain ⟨k,hk⟩ := hprinted
      rw [takeSample_none hk] at ht
      cases ht
  · cases ht
    rfl

theorem samplesLabelled_of_inPlace
    (h : Publishes env s message → IsRegisterReply env message ∧ ∀ k, InPlace env message k) :
    SamplesLabelled env s message := by
  intro t new ht hnew sample hsample
  by_cases hpub : Publishes env s message
  · obtain ⟨hreply,hplace⟩ := h hpub
    obtain ⟨t',ht',hnew'⟩ := kmpReceivedTask_publishes hpub
    cases ht.symm.trans ht'
    rw [List.append_cancel_left (hnew.symm.trans hnew')] at hsample
    refine ⟨hreply,fun f hf => ?_⟩
    rw [List.mem_singleton.mp hsample] at hf
    obtain ⟨k,_,rfl⟩ := List.mem_map.mp hf
    rcases hplace k with ⟨r,hr,hrid,hvalue,hunit⟩ | ⟨hno,hexp⟩
    · exact Or.inl ⟨r,hr,hrid,hvalue,hunit⟩
    · exact Or.inr ⟨hno,(valueText_nan_iff (hpub.printed k)).mpr hexp⟩
  · have hnil : new = [] := by
      have hsilent := kmpReceivedTask_silent hpub ht
      rw [hnew] at hsilent
      exact List.append_right_eq_self.mp hsilent
    rw [hnil] at hsample
    exact absurd hsample List.not_mem_nil

/-- The samples are labelled right if and only if every message that is published is a
register reply with each requested register in its place. -/
theorem samples_labelled_iff (env : Env) (s : Request) (message : List UInt8) :
    SamplesLabelled env s message ↔
      (Publishes env s message → IsRegisterReply env message ∧ ∀ k, InPlace env message k) := by
  constructor
  · intro h hpub
    obtain ⟨t,ht,hnew⟩ := kmpReceivedTask_publishes hpub
    obtain ⟨hreply,hfields⟩ := h t _ ht hnew _ (List.mem_singleton.mpr rfl)
    refine ⟨hreply,fun k => ?_⟩
    rcases hfields _ (List.mem_map.mpr ⟨k,mem_keys k,rfl⟩) with ⟨r,hr,hrid,hvalue,hunit⟩ | ⟨hno,hnan⟩
    · exact Or.inl ⟨r,hr,hrid,hvalue,hunit⟩
    · exact Or.inr ⟨hno,(valueText_nan_iff (hpub.printed k)).mp hnan⟩
  · exact samplesLabelled_of_inPlace

theorem samples_labelled_of_order
    (hrids : (registersIn env message).map Register.rid =
      registerList.map fun rid => (rid.toNat : ℤ))
    (hreply : IsRegisterReply env message) : SamplesLabelled env s message := by
  apply samplesLabelled_of_inPlace
  refine fun _ => ⟨hreply,fun k => Or.inl ⟨entry env message k.position,?_,?_,rfl,rfl⟩⟩
  · have hlen := congrArg List.length hrids
    have hlt : k.position < (registersIn env message).length := by
      simp only [List.length_map] at hlen
      rw [hlen]
      cases k <;> decide
    rw [entry,List.getD_eq_getElem _ _ hlt]
    exact List.getElem_mem hlt
  · have hget := congrArg (fun l => l.getD k.position 0) hrids
    have hzero : (0 : ℤ) = Register.zero.rid := rfl
    rw [hzero,List.getD_map] at hget
    rw [entry,hget]
    cases k <;> rfl

end Labels

/-- The answer of a meter that returns the volume only, 12.34 m3. -/
def volumeReply : List UInt8 := wire 0x40 (checked (replyBody [⟨0x44,0x28,0x42,1234⟩]))

/-- The volume is published as the energy. -/
theorem samples_mislabelled :
    ¬∀ (env : Env) (s : Request) (message : List UInt8), SamplesLabelled env s message := by
  intro h
  have hpub : Publishes ⟨fun _ => 0,[],30000,1700000000⟩ ⟨6543210,0,true,[]⟩ volumeReply := by
    refine ⟨?_,?_,?_,?_,rfl,?_⟩
    · decide
    · decide
    · decide
    · intro k
      cases k <;> decide
    · decide
  obtain ⟨t,ht,hnew⟩ := kmpReceivedTask_publishes hpub
  have hfields := (h _ _ _ t _ ht hnew _ (List.mem_singleton.mpr rfl)).2
  have hregisters : registersIn ⟨fun _ => 0,[],30000,1700000000⟩ volumeReply =
      [⟨0x44,0x28,4,0x42,1234⟩] := by
    decide
  have henergy := hfields _ (List.mem_map.mpr ⟨.e1,mem_keys .e1,rfl⟩)
  rw [hregisters] at henergy
  rcases henergy with ⟨r,hr,hrid,_⟩ | ⟨_,hnan⟩
  · rw [List.mem_singleton.mp hr] at hrid
    exact absurd hrid (by decide)
  · revert hnan
    decide

end KmpSample
end MeterLogger
