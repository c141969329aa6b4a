import Mathlib.Algebra.Order.Group.Abs
import MeterLogger.Decimal
import MeterLogger.MqttDataCb
import MeterLogger.UnixTime

/-!
# The time window of commands

The rest of `mqtt_data_cb`: the topic is cut at its slashes, its fourth segment is the time the
command was sent, and a command that is not of now is dropped. The time is read with `atoi`, and
half an hour is subtracted from it as from an unsigned number.
-/

namespace MeterLogger
namespace ReplayWindow

open AesCbc Buffers Crypto CStrings Decimal MqttDataCb UnixTime

def functionNameL : ℕ := 32

/-- `'/'` -/
def slash : UInt8 := 47

/-- `strncpy` to an array of `n` bytes. -/
def strncpy (str : List UInt8) (n : ℕ) : List UInt8 :=
  str.take n ++ List.replicate (n-str.length) 0

/-- The loop over the segments from the `i`th on: the time received and the name of the
function. -/
def parseTopic : ℕ → UInt8 → List UInt8 → UInt64 × List UInt8 → UInt64 × List UInt8
  | 0, _, _, found => found
  | fuel+1, i, str, (received,name) =>
    match strtok str slash with
    | none => (received,name)
    | some (token,rest) =>
      parseTopic fuel (i+1) rest
        (if i = 3 then UInt64.ofInt (atoi token) else received,strncpy token functionNameL)

/-- What `mqtt_data_cb` is called with: `ota_in_progress`, its arrays, `function_name` before it is
written, the clock, and what the SNTP client gives at each of the two calls. -/
structure Env where
  otaInProgress : Bool
  locals : Locals
  functionName : List UInt8
  unixTime : State
  sntpRaw : UInt32
  sntpRaw' : UInt32

def parsedMem (p : Primitives) (keys : Keys) (e : Env) (m : Publish) (mem : Buf) : Buf :=
  store (decrypted p keys e.locals m mem).1 e.locals.mqttMessage
    (List.replicate (mqttMessageL+aesHmacOverhead) 0)

/-- The string in `mqtt_topic` then. -/
def topicAt (p : Primitives) (keys : Keys) (e : Env) (m : Publish) (mem : Buf) : List UInt8 :=
  cstr (load (parsedMem p keys e m mem) e.locals.mqttTopic mqttTopicL)

/-- `mqtt_data_cb` up to the dispatcher; what that is given, if it is reached: the name of the
function and the memory with the cleartext. -/
def mqttDataCb (p : Primitives) (keys : Keys) (e : Env) (m : Publish) (mem : Buf) :
    Option (List UInt8 × Buf) × State :=
  if e.otaInProgress then (none,e.unixTime)
  else if !accepted m then (none,e.unixTime)
  else if (decrypted p keys e.locals m mem).2 = 0 then (none,e.unixTime)
  else
    let str := topicAt p keys e m mem
    let (received,name) := parseTopic str.length 0 str (0,e.functionName)
    let (now,unixTime) := getUnixTime e.unixTime e.sntpRaw
    if received < now-1800 then (none,unixTime)
    else
      let (now,unixTime) := getUnixTime unixTime e.sntpRaw'
      if now+1800 < received then (none,unixTime)
      else
        (some (name,store (parsedMem p keys e m mem) e.locals.mqttTopic
          (List.replicate mqttTopicL 0)),unixTime)

theorem parseTopic_received {fuel : ℕ} {str : List UInt8} (hfuel : str.length ≤ fuel) {i : UInt8}
    (hi : i.toNat+str.length < 256) (received : UInt64) (name : List UInt8) :
    (parseTopic fuel i str (received,name)).1 =
      if i.toNat ≤ 3 then
        ((segments slash str)[3-i.toNat]?).elim received fun s => UInt64.ofInt (atoi s)
      else received := by
  induction fuel generalizing i str received name with
  | zero =>
    rw [List.eq_nil_of_length_eq_zero (by omega : str.length = 0)]
    simp [parseTopic]
  | succ fuel ih =>
    rw [parseTopic]
    rcases htok : strtok str slash with _ | ⟨token,rest⟩
    · simp [strtok_none htok]
    · obtain ⟨hseg,hlt⟩ := strtok_some htok
      have hnext : (i+1).toNat = i.toNat+1 := by
        rw [UInt8.toNat_add]
        exact Nat.mod_eq_of_lt (show i.toNat+1 < 256 by omega)
      have hfuel' : rest.length ≤ fuel := by omega
      have hi' : (i+1).toNat+rest.length < 256 := by omega
      have hrest := ih hfuel' hi' (if i = 3 then UInt64.ofInt (atoi token) else received)
        (strncpy token functionNameL)
      have hthird : i = 3 ↔ i.toNat = 3 := ⟨fun h => by rw [h]; rfl,fun h => UInt8.toNat_inj.mp h⟩
      rw [hrest,hnext,hseg]
      by_cases h₃ : i.toNat = 3
      · rw [if_neg (by omega),if_pos (hthird.mpr h₃),if_pos (by omega),h₃]
        rfl
      · rw [if_neg (mt hthird.mp h₃)]
        by_cases hlt₃ : i.toNat < 3
        · obtain ⟨k,hk⟩ : ∃ k, 3-i.toNat = k+1 := ⟨3-i.toNat-1,by omega⟩
          have hk' : 3-(i.toNat+1) = k := by omega
          rw [if_pos (by omega),if_pos (by omega),hk,hk',List.getElem?_cons_succ]
        · rw [if_neg (by omega),if_neg (by omega)]

def reading (topic : List UInt8) : ℤ := ((segments slash topic)[3]?).elim 0 atoi

/-- A topic that the array has room for is not cut in so many segments that the counter
overflows. -/
theorem parseTopic_reading {topic : List UInt8} (hlen : topic.length ≤ mqttTopicL)
    (name : List UInt8) :
    (parseTopic topic.length 0 topic (0,name)).1 = UInt64.ofInt (reading topic) := by
  have hi : (0 : UInt8).toNat+topic.length < 256 := by
    show 0+topic.length < 256
    rw [mqttTopicL] at hlen
    omega
  rw [parseTopic_received (Nat.le_refl _) hi,reading]
  show ((segments slash topic)[3]?).elim 0 _ = _
  cases (segments slash topic)[3]? with
  | none => rfl
  | some s => rfl

theorem topicAt_length (p : Primitives) (keys : Keys) (e : Env) (m : Publish) (mem : Buf) :
    (topicAt p keys e m mem).length ≤ mqttTopicL := by
  have hle := (cstr_isInitial (load (parsedMem p keys e m mem) e.locals.mqttTopic mqttTopicL)).length_le
  rwa [load_length] at hle

/-- A time sent that is let in: in the ring of the 64 bit numbers, and not where half an hour
less, or more, than now wraps around. -/
def LetIn (sent : ℤ) (n : ℕ) : Prop := 1800 ≤ n ∧ n+1800 < 2^64 ∧ |sent%2^64-n| ≤ 1800

theorem toNat_ofInt (x : ℤ) : (UInt64.ofInt x).toNat = (x%2^64).toNat := by
  rw [UInt64.ofInt,UInt64.toNat_ofNat']
  apply Nat.mod_eq_of_lt
  omega

theorem letIn_iff (sent : ℤ) (now : UInt64) :
    ¬UInt64.ofInt sent < now-1800 ∧ ¬now+1800 < UInt64.ofInt sent ↔ LetIn sent now.toNat := by
  have hnow := now.toNat_lt
  have hsent := toNat_ofInt sent
  have hadd : (now+1800).toNat = (now.toNat+1800)%2^64 := UInt64.toNat_add now 1800
  have hsub : (now-1800).toNat = (2^64-1800+now.toNat)%2^64 := UInt64.toNat_sub now 1800
  rw [UInt64.lt_iff_toNat_lt,UInt64.lt_iff_toNat_lt,hadd,hsub,hsent,LetIn,abs_le]
  omega

section Dispatch

variable (p : Primitives) (keys : Keys) (e : Env) (m : Publish) (mem : Buf)

/-- The message was decrypted, and the topic is parsed. -/
structure Authenticated : Prop where
  idle : e.otaInProgress = false
  guarded : accepted m = true
  nonempty : (decrypted p keys e.locals m mem).2 ≠ 0

def Dispatched : Prop := (mqttDataCb p keys e m mem).1.isSome = true

/-- `get_unix_time` returns `now`, at both calls. -/
def Returns (now : UInt64) : Prop :=
  (getUnixTime e.unixTime e.sntpRaw).1 = now ∧
    (getUnixTime (getUnixTime e.unixTime e.sntpRaw).2 e.sntpRaw').1 = now

end Dispatch

section Window

variable {p : Primitives} {keys : Keys} {e : Env} {m : Publish} {mem : Buf} {now : UInt64}

theorem returns_of_eq (h : e.sntpRaw' = e.sntpRaw) : Returns e (getUnixTime e.unixTime e.sntpRaw).1 :=
  ⟨rfl,by rw [h,getUnixTime_again]⟩

theorem dispatched_iff (h : Authenticated p keys e m mem) (hnow : Returns e now) :
    Dispatched p keys e m mem ↔ LetIn (reading (topicAt p keys e m mem)) now.toNat := by
  obtain ⟨hfirst,hsecond⟩ := hnow
  have hread := parseTopic_reading (topicAt_length p keys e m mem) e.functionName
  rw [← letIn_iff,Dispatched,mqttDataCb]
  simp only [h.idle,h.guarded,h.nonempty,hfirst,hsecond,hread,Bool.not_true,Bool.false_eq_true,
    if_false]
  by_cases hearly : UInt64.ofInt (reading (topicAt p keys e m mem)) < now-1800
  · simp [hearly]
  · by_cases hlate : now+1800 < UInt64.ofInt (reading (topicAt p keys e m mem))
    · simp [hearly,hlate]
    · simp [hearly,hlate]

theorem decryptSpan_le {n : ℕ} (h : n ≤ 496) : decryptSpan n ≤ 512 := by
  rw [decryptSpan,rounds]
  split <;> omega

/-- The topic that is parsed is the one received, as far as the decryption stays within the
cleartext. -/
theorem topicAt_eq (hl : Layout e.locals m) (hm : accepted m = true) (hlen : m.dataLen ≤ 544) :
    topicAt p keys e m mem = cstr (load mem m.topic m.topicLen) := by
  obtain ⟨hpos,hlt,_⟩ := accepted_iff.mp hm
  have h₁ := hl.cleartext_topic
  have h₂ := hl.topic_message
  simp only [Apart,mqttTopicL,mqttMessageL,aesHmacOverhead] at h₁ h₂
  have hspan : decryptSpan (m.dataLen-48) ≤ 512 := decryptSpan_le (by omega)
  have hparsed : load (parsedMem p keys e m mem) e.locals.mqttTopic mqttTopicL =
      load (received e.locals m mem) e.locals.mqttTopic mqttTopicL := by
    apply load_congr
    intro k hk
    rw [mqttTopicL] at hk
    rw [parsedMem,store_out (by simp only [List.length_replicate,mqttMessageL,aesHmacOverhead]; omega),
      decrypted,decryptAesHmacCombined_out (by omega)]
  obtain ⟨n,hn⟩ : ∃ n, mqttTopicL = m.topicLen+(n+1) := ⟨127-m.topicLen,by rw [mqttTopicL]; omega⟩
  rw [topicAt,hparsed,hn,load_add,load_succ,received_topicEnd hl hm,cstr_append_nul,
    received_topic hl hm]

end Window

/-- The command is let in if and only if it was sent within half an hour of now, and not at all
if its topic has no time. -/
structure Enforced (topic : List UInt8) (now : ℕ) (dispatched : Prop) : Prop where
  numeral : ∀ s t, (segments slash topic)[3]? = some s → IsNumeral s t →
    (dispatched ↔ now ≠ 0 ∧ |(t : ℤ)-now| ≤ 1800)
  other : (∀ s t, (segments slash topic)[3]? = some s → ¬IsNumeral s t) → ¬dispatched

/-- In the first half hour of the epoch nothing is let in. A time from 2038 on is read as the last
second that an `int` has room for: what was sent long after now is let in around that second,
and behind it nothing is. -/
def Misjudged (t now : ℕ) : Prop :=
  0 < now ∧ now < 1800 ∧ t ≤ now+1800 ∨
    2^31 ≤ t ∧ 2^31-1801 ≤ now ∧ now ≤ 2^31+1799 ∧ now+1800 < t ∨
    2^31 ≤ t ∧ 2^31+1799 < now ∧ now ≤ t+1800 ∧ t ≤ now+1800

/-- Topics and times for which it comes out right: what is no numeral must not begin with the
time. -/
structure Regular (topic : List UInt8) (now : ℕ) : Prop where
  numeral : ∀ s t, (segments slash topic)[3]? = some s → IsNumeral s t → ¬Misjudged t now
  other : (∀ s t, (segments slash topic)[3]? = some s → ¬IsNumeral s t) →
    ¬LetIn (reading topic) now

theorem letIn_numeral_iff (t now : ℕ) :
    (LetIn (min (2^31-1) (t : ℤ)) now ↔ now ≠ 0 ∧ |(t : ℤ)-now| ≤ 1800) ↔ ¬Misjudged t now := by
  rw [LetIn,abs_le,abs_le,Misjudged]
  by_cases ht : t < 2^31
  · rw [min_eq_right (by omega)]
    omega
  · rw [min_eq_left (by omega)]
    omega

theorem reading_numeral {topic s : List UInt8} {t : ℕ} (hs : (segments slash topic)[3]? = some s)
    (ht : IsNumeral s t) : reading topic = min (2^31-1) (t : ℤ) := by
  rw [reading,hs]
  exact atoi_numeral ht

theorem enforced_letIn_iff (topic : List UInt8) (now : ℕ) :
    Enforced topic now (LetIn (reading topic) now) ↔ Regular topic now := by
  constructor
  · intro h
    constructor
    · intro s t hs ht
      rw [← letIn_numeral_iff,← reading_numeral hs ht]
      exact h.numeral s t hs ht
    · exact h.other
  · intro h
    constructor
    · intro s t hs ht
      rw [reading_numeral hs ht,letIn_numeral_iff]
      exact h.numeral s t hs ht
    · exact h.other

theorem regular_numeral {topic s : List UInt8} {t : ℕ} (hs : (segments slash topic)[3]? = some s)
    (ht : IsNumeral s t) (now : ℕ) : Regular topic now ↔ ¬Misjudged t now := by
  constructor
  · intro h
    exact h.numeral s t hs ht
  · intro h
    constructor
    · intro s' t' hs' ht'
      have hsame : s' = s := Option.some.inj (hs'.symm.trans hs)
      rw [hsame] at ht'
      rwa [← ht'.2.2,ht.2.2]
    · intro hnone
      exact absurd ht (hnone s t hs)

/-- For every authenticated command the window is enforced if and only if its topic is regular
at that time. -/
theorem enforced_iff {p : Primitives} {keys : Keys} {e : Env} {m : Publish} {mem : Buf}
    {now : UInt64} (h : Authenticated p keys e m mem) (hnow : Returns e now) :
    Enforced (topicAt p keys e m mem) now.toNat (Dispatched p keys e m mem) ↔
      Regular (topicAt p keys e m mem) now.toNat := by
  rw [← enforced_letIn_iff,propext (dispatched_iff h hnow)]

namespace Sample

/-- What the tag is taken over when `topic` is sent with the message of `Crypto.Sample`. -/
def body (topic : List UInt8) : List UInt8 :=
  topic ++ (Crypto.Sample.iv ++ Crypto.Sample.ciphertext)

def topic2023 : List UInt8 := ascii "/config/v2/6543210/1700000000/ping"

def topic2039 : List UInt8 := ascii "/config/v2/6543210/2200000000/ping"

def tag2023 : List UInt8 :=
  [0x6d,0x64,0x3a,0x61,0x69,0x5e,0x78,0x75,0xff,0xdd,0xa2,0x97,0xd7,0x95,0x19,0x69,
    0x1b,0x0e,0xbc,0x02,0xf1,0x16,0xf4,0x90,0x97,0x23,0x53,0x34,0x6c,0x3d,0x7c,0x34]

def tag2039 : List UInt8 :=
  [0xd9,0x6b,0x26,0xc8,0xab,0xe8,0x5e,0x89,0x4d,0x28,0x1d,0x18,0x19,0x11,0x43,0x25,
    0x53,0x15,0xd5,0x31,0x82,0x28,0xa5,0x3d,0xa2,0x7e,0x56,0x60,0xe0,0xca,0x26,0x9c]

/-- `Crypto.Sample.primitives` with the tags of these topics. -/
def primitives : Primitives :=
  { Crypto.Sample.primitives with
    hmacSha256 := fun key input =>
      if key = Crypto.Sample.digest.drop 16 ∧ input = body topic2023 then tag2023
      else if key = Crypto.Sample.digest.drop 16 ∧ input = body topic2039 then tag2039
      else List.replicate 32 0
    hmacSha256_length := fun key input => by
      split
      · rfl
      · split <;> rfl }

def keys : Keys := initAesHmacCombined primitives Crypto.Sample.masterKey

def packet (tag : List UInt8) : List UInt8 :=
  tag ++ (Crypto.Sample.iv ++ Crypto.Sample.ciphertext)

def publish : Publish := ⟨1300,34,1400,64⟩

def mem (topic tag : List UInt8) : Buf :=
  store (store (fun _ => 0) 1300 topic) 1400 (packet tag)

def env (sntpRaw : UInt32) : Env := ⟨false,sampleLocals,List.replicate 32 0,init,sntpRaw,sntpRaw⟩

theorem layout : Layout sampleLocals publish where
  cleartext_topic := (samplePublish_layout 64).cleartext_topic
  cleartext_message := (samplePublish_layout 64).cleartext_message
  topic_message := (samplePublish_layout 64).topic_message
  topic_cleartext := Or.inl (show 512 ≤ 1300 by decide)
  topic_mqttTopic := Or.inl (show 640 ≤ 1300 by decide)
  topic_mqttMessage := Or.inl (show 1216 ≤ 1300 by decide)
  data_cleartext := (samplePublish_layout 64).data_cleartext
  data_mqttTopic := (samplePublish_layout 64).data_mqttTopic
  data_mqttMessage := (samplePublish_layout 64).data_mqttMessage

theorem authenticated {topic tag : List UInt8} (sntpRaw : UInt32)
    (h : load (mem topic tag) 1400 64 = sealed primitives keys
      (blockOf Crypto.Sample.iv) (load (mem topic tag) 1300 34) [0x31,0]) :
    Authenticated primitives keys (env sntpRaw) publish (mem topic tag) where
  idle := rfl
  guarded := by decide
  nonempty := by
    have hlength := (decrypted_sealed layout (by decide) (by decide) h).1
    show (decrypted primitives keys sampleLocals publish (mem topic tag)).2 ≠ 0
    rw [hlength]
    decide

theorem topic_eq (topic tag : List UInt8) (sntpRaw : UInt32) :
    topicAt primitives keys (env sntpRaw) publish (mem topic tag) =
      cstr (load (mem topic tag) 1300 34) :=
  topicAt_eq layout (by decide) (by decide)

theorem returns {sntpRaw : UInt32} {now : UInt64} (h : (getUnixTime init sntpRaw).1 = now) :
    Returns (env sntpRaw) now := by
  rw [← h]
  exact returns_of_eq (e := env sntpRaw) rfl

theorem sealed2023 : load (mem topic2023 tag2023) 1400 64 = sealed primitives keys
    (blockOf Crypto.Sample.iv) (load (mem topic2023 tag2023) 1300 34) [0x31,0] := by
  decide

theorem sealed2039 : load (mem topic2039 tag2039) 1400 64 = sealed primitives keys
    (blockOf Crypto.Sample.iv) (load (mem topic2039 tag2039) 1300 34) [0x31,0] := by
  decide

theorem fourth2023 : (segments slash (cstr (load (mem topic2023 tag2023) 1300 34)))[3]? =
    some (decimal 1700000000) := by
  decide

theorem fourth2039 : (segments slash (cstr (load (mem topic2039 tag2039) 1300 34)))[3]? =
    some (decimal 2200000000) := by
  decide

end Sample

open Sample in
/-- Sent at the second 1700000000 and received then. -/
theorem enforced_sample :
    Enforced (topicAt Sample.primitives keys (env 1700000000) publish (mem topic2023 tag2023))
      (1700000000 : UInt64).toNat
      (Dispatched Sample.primitives keys (env 1700000000) publish (mem topic2023 tag2023)) := by
  refine (enforced_iff (authenticated _ sealed2023) (returns (by decide))).mpr ?_
  rw [topic_eq,regular_numeral fourth2023 (isNumeral_decimal _)]
  show ¬Misjudged 1700000000 1700000000
  rw [Misjudged]
  omega

open Sample in
/-- Sent at the second 2200000000, in 2039, and received then: it is not let in. -/
theorem enforced_fails : ¬∀ (p : Primitives) (keys : Keys) (e : Env) (m : Publish) (mem : Buf)
    (now : UInt64), Authenticated p keys e m mem → Returns e now →
      Enforced (topicAt p keys e m mem) now.toNat (Dispatched p keys e m mem) := by
  intro h
  have hauth := authenticated 2200000000 sealed2039
  have hnow : Returns (env 2200000000) 2200000000 := returns (by decide)
  have henforced := h _ _ _ _ _ _ hauth hnow
  rw [propext (dispatched_iff hauth hnow),topic_eq,enforced_letIn_iff,
    regular_numeral fourth2039 (isNumeral_decimal _)] at henforced
  apply henforced
  show Misjudged 2200000000 2200000000
  rw [Misjudged]
  omega

end ReplayWindow
end MeterLogger
