import MeterLogger.CStrings
import MeterLogger.Crypto

/-!
# Commands received by MQTT

`mqtt_data_cb` up to the dispatch: topic and message are copied to arrays on the stack and the
message is decrypted to a third one. The guard lets in messages that the copy leaves out, and
what is authenticated then is what the stack held before.
-/

namespace MeterLogger
namespace MqttDataCb

open AesCbc Buffers Crypto

def mqttTopicL : ℕ := 128
def mqttMessageL : ℕ := 512
def aesHmacOverhead : ℕ := 64

/-- The addresses of the arrays on the stack. -/
structure Locals where
  cleartext : ℕ
  mqttTopic : ℕ
  mqttMessage : ℕ

/-- A received publish: the addresses and lengths that the callback gets. -/
structure Publish where
  topic : ℕ
  topicLen : ℕ
  data : ℕ
  dataLen : ℕ

def accepted (m : Publish) : Bool :=
  !(m.topicLen = 0 || mqttTopicL ≤ m.topicLen || m.dataLen = 0 ||
    mqttMessageL+aesHmacOverhead ≤ m.dataLen)

def copyTopic (loc : Locals) (m : Publish) (mem : Buf) : Buf :=
  let mem := store mem loc.mqttTopic (List.replicate mqttTopicL 0)
  if m.topicLen < mqttTopicL ∧ 0 < m.topicLen then
    store (store mem loc.mqttTopic (load mem m.topic m.topicLen)) (loc.mqttTopic+m.topicLen) [0]
  else mem

def copyMessage (loc : Locals) (m : Publish) (mem : Buf) : Buf :=
  if m.dataLen < mqttMessageL ∧ 0 < m.dataLen then
    store (store mem loc.mqttMessage (load mem m.data m.dataLen)) (loc.mqttMessage+m.dataLen) [0]
  else mem

/-- The memory that `decrypt_aes_hmac_combined` is called with. -/
def received (loc : Locals) (m : Publish) (mem : Buf) : Buf :=
  store (copyMessage loc m (copyTopic loc m mem)) loc.cleartext (List.replicate mqttMessageL 0)

def decrypted (p : Primitives) (keys : Keys) (loc : Locals) (m : Publish) (mem : Buf) : Buf × ℕ :=
  decryptAesHmacCombined p keys (received loc m mem) loc.cleartext loc.mqttTopic m.topicLen
    loc.mqttMessage m.dataLen

/-- The arrays, and what was received, lie apart. -/
structure Layout (loc : Locals) (m : Publish) : Prop where
  cleartext_topic : Apart loc.cleartext mqttMessageL loc.mqttTopic mqttTopicL
  cleartext_message :
    Apart loc.cleartext mqttMessageL loc.mqttMessage (mqttMessageL+aesHmacOverhead)
  topic_message : Apart loc.mqttTopic mqttTopicL loc.mqttMessage (mqttMessageL+aesHmacOverhead)
  topic_cleartext : Apart loc.cleartext mqttMessageL m.topic m.topicLen
  topic_mqttTopic : Apart loc.mqttTopic mqttTopicL m.topic m.topicLen
  topic_mqttMessage : Apart loc.mqttMessage (mqttMessageL+aesHmacOverhead) m.topic m.topicLen
  data_cleartext : Apart loc.cleartext mqttMessageL m.data m.dataLen
  data_mqttTopic : Apart loc.mqttTopic mqttTopicL m.data m.dataLen
  data_mqttMessage : Apart loc.mqttMessage (mqttMessageL+aesHmacOverhead) m.data m.dataLen

/-- An address outside the arrays. -/
def Outside (loc : Locals) (x : ℕ) : Prop :=
  (x < loc.cleartext ∨ loc.cleartext+mqttMessageL ≤ x) ∧
    (x < loc.mqttTopic ∨ loc.mqttTopic+mqttTopicL ≤ x) ∧
    (x < loc.mqttMessage ∨ loc.mqttMessage+(mqttMessageL+aesHmacOverhead) ≤ x)

/-- The bytes authenticated are those received, nothing is written outside the arrays, the
cleartext ends with a NUL, and what was encrypted by `encrypt_aes_hmac_combined` is there. -/
structure Authentic (p : Primitives) (keys : Keys) (loc : Locals) (m : Publish) (mem : Buf) :
    Prop where
  message_eq : load (received loc m mem) loc.mqttMessage m.dataLen = load mem m.data m.dataLen
  topic_eq : load (received loc m mem) loc.mqttTopic m.topicLen = load mem m.topic m.topicLen
  outside : ∀ x, Outside loc x → (decrypted p keys loc m mem).1 x = mem x
  nul : ∃ k < mqttMessageL, (decrypted p keys loc m mem).1 (loc.cleartext+k) = 0
  decrypts : ∀ (random : Block) (text : List UInt8), text.length ≤ mqttMessageL →
    load mem m.data m.dataLen = sealed p keys random (load mem m.topic m.topicLen) text →
      (decrypted p keys loc m mem).2 = text.length ∧
        load (decrypted p keys loc m mem).1 loc.cleartext text.length = text

section Received

variable {p : Primitives} {keys : Keys} {loc : Locals} {m : Publish} {mem : Buf}

theorem accepted_iff : accepted m = true ↔
    0 < m.topicLen ∧ m.topicLen < 128 ∧ 0 < m.dataLen ∧ m.dataLen < 576 := by
  show (!(m.topicLen = 0 || 128 ≤ m.topicLen || m.dataLen = 0 || 576 ≤ m.dataLen)) = true ↔ _
  simp only [Bool.not_eq_true',Bool.or_eq_false_iff,decide_eq_false_iff_not]
  omega

theorem copyTopic_out {x : ℕ} (h : x < loc.mqttTopic ∨ loc.mqttTopic+mqttTopicL ≤ x) :
    copyTopic loc m mem x = mem x := by
  have hclear : store mem loc.mqttTopic (List.replicate mqttTopicL 0) x = mem x :=
    store_out (by rwa [List.length_replicate])
  rw [copyTopic]
  split
  · rename_i hlen
    rw [store_out (by rw [List.length_singleton]; omega),store_out (by rw [load_length]; omega)]
    exact hclear
  · exact hclear

theorem copyMessage_out {x : ℕ}
    (h : x < loc.mqttMessage ∨ loc.mqttMessage+(mqttMessageL+aesHmacOverhead) ≤ x) :
    copyMessage loc m mem x = mem x := by
  rw [copyMessage]
  split
  · rename_i hlen
    rw [store_out (by rw [List.length_singleton]; omega),store_out (by rw [load_length]; omega)]
  · rfl

theorem received_out {x : ℕ} (h : Outside loc x) : received loc m mem x = mem x := by
  rw [received,store_out (by rw [List.length_replicate]; exact h.1),copyMessage_out h.2.2,
    copyTopic_out h.2.1]

theorem load_copied (mem : Buf) (dst src n : ℕ) :
    load (store (store mem dst (load mem src n)) (dst+n) [0]) dst n = load mem src n := by
  have hlen : (load mem src n).length = n := load_length _ _ _
  have hcopy := load_store mem dst (load mem src n)
  rw [hlen] at hcopy
  rw [load_store_other (by omega),hcopy]

theorem received_copyTopic (hl : Layout loc m) {k : ℕ} (hk : k < mqttTopicL) :
    received loc m mem (loc.mqttTopic+k) = copyTopic loc m mem (loc.mqttTopic+k) := by
  have h₁ := hl.cleartext_topic
  have h₂ := hl.topic_message
  simp only [Apart,mqttTopicL,mqttMessageL,aesHmacOverhead] at h₁ h₂ hk
  rw [received,store_out (by simp only [List.length_replicate,mqttMessageL]; omega),
    copyMessage_out (by simp only [mqttMessageL,aesHmacOverhead]; omega)]

theorem received_topic (hl : Layout loc m) (hm : accepted m = true) :
    load (received loc m mem) loc.mqttTopic m.topicLen = load mem m.topic m.topicLen := by
  obtain ⟨hpos,hlt,_⟩ := accepted_iff.mp hm
  have h₃ := hl.topic_mqttTopic
  simp only [Apart,mqttTopicL] at h₃
  have hcopy : load (received loc m mem) loc.mqttTopic m.topicLen =
      load (copyTopic loc m mem) loc.mqttTopic m.topicLen :=
    load_congr fun k hk => received_copyTopic hl (Nat.lt_trans hk hlt)
  have hclear : load (store mem loc.mqttTopic (List.replicate mqttTopicL 0)) m.topic m.topicLen =
      load mem m.topic m.topicLen :=
    load_store_other (by simp only [List.length_replicate,mqttTopicL]; omega)
  rw [hcopy,copyTopic,if_pos ⟨hlt,hpos⟩,load_copied,hclear]

theorem received_topicEnd (hl : Layout loc m) (hm : accepted m = true) :
    received loc m mem (loc.mqttTopic+m.topicLen) = 0 := by
  obtain ⟨hpos,hlt,_⟩ := accepted_iff.mp hm
  rw [received_copyTopic hl hlt,copyTopic,if_pos ⟨hlt,hpos⟩]
  exact store_in (k := 0) (by simp)

theorem received_message (hl : Layout loc m) (hm : accepted m = true) (hlen : m.dataLen < 512) :
    load (received loc m mem) loc.mqttMessage m.dataLen = load mem m.data m.dataLen := by
  obtain ⟨_,_,hpos,_⟩ := accepted_iff.mp hm
  have h₁ := hl.cleartext_message
  have h₂ := hl.data_mqttTopic
  simp only [Apart,mqttTopicL,mqttMessageL,aesHmacOverhead] at h₁ h₂
  have hdata : load (copyTopic loc m mem) m.data m.dataLen = load mem m.data m.dataLen := by
    apply load_congr
    intro k hk
    exact copyTopic_out (by simp only [mqttTopicL]; omega)
  rw [received,load_store_other (by simp only [List.length_replicate,mqttMessageL]; omega),
    copyMessage,if_pos ⟨hlen,hpos⟩,load_copied,hdata]

theorem received_stale (hl : Layout loc m) (hlen : 512 ≤ m.dataLen) :
    received loc m mem loc.mqttMessage = mem loc.mqttMessage := by
  have h₁ := hl.cleartext_message
  have h₂ := hl.topic_message
  simp only [Apart,mqttTopicL,mqttMessageL,aesHmacOverhead] at h₁ h₂
  have hshort : ¬(m.dataLen < mqttMessageL ∧ 0 < m.dataLen) := by
    rw [mqttMessageL]
    omega
  rw [received,store_out (by simp only [List.length_replicate,mqttMessageL]; omega),copyMessage,
    if_neg hshort,copyTopic_out (by simp only [mqttTopicL]; omega)]

/-- The bytes that the decryption of a short message may write lie in the array. -/
theorem decryptSpan_short (hlen : m.dataLen < 512) : decryptSpan (m.dataLen-48) ≤ 480 := by
  rw [decryptSpan,rounds]
  split <;> omega

theorem decrypted_nul (hlen : m.dataLen < 512) :
    (decrypted p keys loc m mem).1 (loc.cleartext+511) = 0 := by
  have hspan := decryptSpan_short hlen
  have hcleared : store (copyMessage loc m (copyTopic loc m mem)) loc.cleartext
      (List.replicate mqttMessageL 0) (loc.cleartext+511) = 0 := by
    rw [store_in (by rw [List.length_replicate]; decide),List.getElem_replicate]
  rw [decrypted,decryptAesHmacCombined_out (by omega),received]
  exact hcleared

theorem decrypted_sealed (hl : Layout loc m) (hm : accepted m = true) (hlen : m.dataLen < 512)
    {random : Block} {text : List UInt8}
    (h : load mem m.data m.dataLen = sealed p keys random (load mem m.topic m.topicLen) text) :
    (decrypted p keys loc m mem).2 = text.length ∧
      load (decrypted p keys loc m mem).1 loc.cleartext text.length = text := by
  have hdata : m.dataLen = 48+16*(text.length/16+1) := by
    have hcount := congrArg List.length h
    rwa [load_length,sealed_length] at hcount
  have h₁ := hl.cleartext_message
  simp only [Apart,mqttMessageL,aesHmacOverhead] at h₁
  rw [← received_message hl hm hlen,← received_topic hl hm] at h
  rw [hdata] at h
  have hapart : Apart loc.cleartext (16*(text.length/16+1)) loc.mqttMessage
      (48+16*(text.length/16+1)) := by
    rw [Apart]
    omega
  obtain ⟨hret,htext⟩ := decryptAesHmacCombined_sealed h hapart
  rw [decrypted,hdata]
  refine ⟨hret,?_⟩
  generalize (decryptAesHmacCombined p keys (received loc m mem) loc.cleartext loc.mqttTopic
    m.topicLen loc.mqttMessage (48+16*(text.length/16+1))).1 = mem' at htext
  rw [padded] at htext
  exact (load_append htext).1

theorem authentic_of_short (hl : Layout loc m) (hm : accepted m = true) (hlen : m.dataLen < 512) :
    Authentic p keys loc m mem where
  message_eq := received_message hl hm hlen
  topic_eq := received_topic hl hm
  outside := by
    intro x hx
    have hspan := decryptSpan_short hlen
    have hclear := hx.1
    rw [mqttMessageL] at hclear
    rw [decrypted,decryptAesHmacCombined_out (by omega),received_out hx]
  nul := ⟨511,by decide,decrypted_nul hlen⟩
  decrypts := fun _ _ _ h => decrypted_sealed hl hm hlen h

theorem not_authentic_of_long (hl : Layout loc m) (hm : accepted m = true) (hlen : 512 ≤ m.dataLen) :
    ∃ mem, ¬Authentic p keys loc m mem := by
  refine ⟨fun x => if x = loc.mqttMessage then 1 else 0,fun h => ?_⟩
  obtain ⟨_,_,hpos,hmax⟩ := accepted_iff.mp hm
  have h₁ := hl.data_mqttMessage
  simp only [Apart,mqttMessageL,aesHmacOverhead] at h₁
  have heq := h.message_eq
  obtain ⟨n,hn⟩ : ∃ n, m.dataLen = n+1 := ⟨m.dataLen-1,by omega⟩
  rw [hn,load_succ,load_succ,received_stale hl hlen,if_pos rfl,if_neg (by omega)] at heq
  exact absurd (List.cons.inj heq).1 (by decide)

end Received

/-- For every content of the stack the bytes authenticated are those received, and so on, if and
only if the message has less than `MQTT_MESSAGE_L` bytes. -/
theorem authentic_iff (p : Primitives) (keys : Keys) {loc : Locals} {m : Publish}
    (hl : Layout loc m) (hm : accepted m = true) :
    (∀ mem, Authentic p keys loc m mem) ↔ m.dataLen < mqttMessageL := by
  constructor
  · intro h
    by_contra hlen
    obtain ⟨mem,hmem⟩ := @not_authentic_of_long p keys _ _ hl hm (Nat.not_lt.mp hlen)
    exact hmem (h mem)
  · intro hlen mem
    exact authentic_of_short hl hm hlen

/-- Arrays one behind the other, and what was received behind them. -/
def sampleLocals : Locals := ⟨0,512,640⟩

def samplePublish (dataLen : ℕ) : Publish := ⟨1300,2,1400,dataLen⟩

theorem samplePublish_layout (dataLen : ℕ) : Layout sampleLocals (samplePublish dataLen) where
  cleartext_topic := Or.inl (by decide)
  cleartext_message := Or.inl (by decide)
  topic_message := Or.inl (by decide)
  topic_cleartext := Or.inl (show 512 ≤ 1300 by decide)
  topic_mqttTopic := Or.inl (show 640 ≤ 1300 by decide)
  topic_mqttMessage := Or.inl (show 1216 ≤ 1300 by decide)
  data_cleartext := Or.inl (show 512 ≤ 1400 by decide)
  data_mqttTopic := Or.inl (show 640 ≤ 1400 by decide)
  data_mqttMessage := Or.inl (show 1216 ≤ 1400 by decide)

/-- The message of `Crypto.Sample` under its topic, as it was received. -/
def sampleMem : Buf :=
  store (store (fun _ => 0) 1300 [0x2f,0x61]) 1400 (Sample.tag ++ Sample.iv ++ Sample.ciphertext)

/-- A message of 64 bytes, one block encrypted. -/
theorem authentic_sample : Authentic Sample.primitives
    (initAesHmacCombined Sample.primitives Sample.masterKey) sampleLocals (samplePublish 64)
    sampleMem :=
  (authentic_iff _ _ (samplePublish_layout 64) (by decide)).mpr (by decide) sampleMem

/-- A payload of 512 bytes passes the guard and is not copied. -/
theorem authentic_fails : ¬∀ (p : Primitives) (keys : Keys) (loc : Locals) (m : Publish) (mem : Buf),
    Layout loc m → accepted m = true → Authentic p keys loc m mem := by
  intro h
  obtain ⟨mem,hmem⟩ := not_authentic_of_long (samplePublish_layout 512) (by decide) (by decide)
  exact hmem (h Sample.primitives
    (initAesHmacCombined Sample.primitives Sample.masterKey) _ _ mem (samplePublish_layout 512)
    (by decide))

end MqttDataCb
end MeterLogger
