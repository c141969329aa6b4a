import MeterLogger.MqttSession

/-!
# Moves of the client's functions

What each function of the client means for the exchange under way: it leaves it alone,
starts it, advances it or ends it, or it clears the pending fields of a connection that is
gone.
-/

namespace MeterLogger
namespace MqttSession

open MessageQueue MqttMessage MqttClient MqttBroker

def Plain (packet : List UInt8) : Prop := isRequest packet = false

theorem requestsSent_append (xs ys : List Action) :
    requestsSent (xs ++ ys) = requestsSent xs ++ requestsSent ys := by
  rw [requestsSent,sentPackets_append,List.filter_append]
  rfl

theorem requestsSent_plain {new : List Action} (h : ∀ packet, .send packet ∈ new → Plain packet) :
    requestsSent new = [] := by
  rw [requestsSent,List.filter_eq_nil_iff]
  intro packet hmem
  obtain ⟨a,ha,hsent⟩ := List.mem_filterMap.mp hmem
  cases a with
  | send p =>
    cases hsent
    exact Bool.eq_false_iff.mp (h packet ha)
  | _ => cases hsent

theorem mqttMsgAck_plain {type id : ℕ} {c : MqttConnection} {packet : List UInt8}
    (ht : type ∈ [pubackType,pubrecType,pubcompType])
    (h : (mqttMsgAck type 0 c id).message = some packet) : Plain packet := by
  simp only [List.mem_cons,List.not_mem_nil,or_false] at ht
  have hlt : type < 16 := by
    rcases ht with rfl | rfl | rfl <;> decide
  rw [Plain,isRequest,mqttMsgAck_type hlt (by decide) h]
  rcases ht with rfl | rfl | rfl <;> simp [publishType,pubackType,pubrecType,pubrelType,pubcompType,
    subscribeType,unsubscribeType]

theorem mqttMsgEmpty_plain {type : ℕ} {c : MqttConnection} {packet : List UInt8}
    (ht : type ∈ [pingreqType,pingrespType]) (h : (mqttMsgEmpty type c).message = some packet) :
    Plain packet := by
  simp only [List.mem_cons,List.not_mem_nil,or_false] at ht
  have hlt : type < 16 := by
    rcases ht with rfl | rfl <;> decide
  cases h
  rw [Plain,isRequest,finiMessage_type _ hlt (by decide) (by decide)]
  rcases ht with rfl | rfl <;> simp [publishType,pubrelType,subscribeType,unsubscribeType,
    pingreqType,pingrespType]

/-- The receive buffer is empty and a connection there was is aborted. -/
def Cut (c c' : Client) : Prop :=
  c'.inBuffer = [] ∧ (c.pCon = true → .abort ∈ newActions c c')

section Moves

variable {acked cut : Prop} {c m c' : Client} {packets : List (List UInt8)}

theorem Move.mono {c₁ : Client} {new : List Action} {acked' cut' : Prop}
    (h : Move acked cut c c₁ packets new) (hp : pending c' = pending c₁) (hack : acked → acked')
    (hcut : cut → cut') : Move acked' cut' c c' packets new := by
  have hp' := hp
  simp only [pending,Prod.mk.injEq] at hp'
  obtain ⟨_,ht,_,hw⟩ := hp'
  cases h with
  | same h₁ h₂ h₃ => exact .same (hp.trans h₁) h₂ h₃
  | cleared h₁ h₂ why =>
    exact .cleared (hw.trans h₁) h₂
      (why.imp_right (.imp_right (.imp (.imp_left hack) (.imp_left hcut))))
  | started h₁ h₂ h₃ h₄ h₅ h₆ => exact .started h₁ h₂ (hw.trans h₃) (ht.trans h₄) h₅ h₆
  | advanced h₁ h₂ h₃ h₄ h₅ h₆ => exact .advanced (hack h₁) h₂ h₃ (hp.trans h₄) h₅ h₆

theorem move_after (xs : List Action) (hn : Neutral Plain m c') (hg : Grows m c')
    (hlog : m.log = c.log ++ xs) (hpend : pending m = pending c) (hpc : m.pCon = c.pCon)
    (hxs : requestsSent xs = []) (hrel : released xs = []) :
    Move acked (Cut c c') c c' packets (newActions c c') := by
  obtain ⟨new,htame,hf⟩ := hn
  obtain ⟨new',hnew⟩ := hg
  have hsame : new' = new := List.append_cancel_left (hnew.log_eq.symm.trans htame.log_eq)
  subst hsame
  have hall : newActions c c' = xs ++ new' := by
    refine newActions_eq ?_
    rw [htame.log_eq,hlog,List.append_assoc]
  have hs : requestsSent (newActions c c') = [] := by
    rw [hall,requestsSent_append,hxs,requestsSent_plain htame.sends,List.append_nil]
  have hr : released (newActions c c') = [] := by
    rw [hall,released_append,hrel,hnew.released_eq,List.append_nil]
  rcases hf with ⟨_,hp⟩ | ⟨hreset,ha⟩
  · exact .same (hp.trans hpend) hs hr
  · refine .cleared hreset.isWaiting_eq hs (Or.inr (Or.inr (Or.inr ⟨⟨hreset.inBuffer_eq,?_⟩,hr⟩)))
    intro hp
    rw [hall]
    exact List.mem_append_right _ (ha (hpc.trans hp))

theorem move_after_cleared (xs : List Action) (hn : Neutral Plain m c')
    (hlog : m.log = c.log ++ xs) (hw : m.isWaitingForAck = false) (hxs : requestsSent xs = [])
    (why : c.isWaitingForAck = false ∨ c.pendingMsgType ∈ [connectType,pingreqType] ∨
      (acked ∧ released (newActions c c') ≠ [])) :
    Move acked cut c c' packets (newActions c c') := by
  obtain ⟨new,htame,hf⟩ := hn
  have hall : newActions c c' = xs ++ new := by
    refine newActions_eq ?_
    rw [htame.log_eq,hlog,List.append_assoc]
  have hs : requestsSent (newActions c c') = [] := by
    rw [hall,requestsSent_append,hxs,requestsSent_plain htame.sends,List.append_nil]
  refine .cleared ?_ hs (why.imp_right (.imp_right Or.inl))
  rcases hf with ⟨_,hp⟩ | ⟨hreset,_⟩
  · simp only [pending,Prod.mk.injEq] at hp
    exact hp.2.2.2.trans hw
  · exact hreset.isWaiting_eq

theorem move_finishPending (h : Held c packets) (env : Env) {packet : List UInt8}
    (hwait : c.isWaitingForAck = true) (hne : c.pendingMsgType ≠ connectType) (hacked : acked) :
    Move acked cut c ((c.emit (.handled packet)).finishPending env) packets
      (newActions c ((c.emit (.handled packet)).finishPending env)) := by
  obtain ⟨_,head,rest,rfl,_,_⟩ := h.head hne (Or.inl hwait)
  obtain ⟨hgot,_⟩ := queueGets_cons h.represents (le_refl mqttBufSize) env.isBegin
  have hnew : newActions c ((c.emit (.handled packet)).finishPending env) =
      [.handled packet,.release head] := by
    refine newActions_eq ?_
    simp [Client.finishPending,Client.emit,hgot]
  rw [hnew]
  exact .cleared rfl rfl (Or.inr (Or.inr (Or.inl ⟨hacked,by simp [released,releasedBy]⟩)))

theorem move_handled (packet : List UInt8) :
    Move acked cut c (c.emit (.handled packet)) packets
      (newActions c (c.emit (.handled packet))) := by
  have hnew : newActions c (c.emit (.handled packet)) = [.handled packet] := newActions_eq rfl
  rw [hnew]
  exact .same rfl rfl rfl

theorem move_handleAck (h : Held c packets) (env : Env) {packet : List UInt8} (pendingType : ℕ)
    (hacked : acked) (hne : pendingType ≠ connectType)
    (hwait : c.pendingMsgType = pendingType → c.pendingMsgId = mqttGetId packet packet.length →
      c.isWaitingForAck = true) :
    Move acked cut c
      (Client.handleAck pendingType (c.emit (.handled packet)) (mqttGetId packet packet.length) env)
      packets (newActions c (Client.handleAck pendingType (c.emit (.handled packet))
        (mqttGetId packet packet.length) env)) := by
  unfold Client.handleAck
  split
  · rename_i hmatch
    exact move_finishPending h env (hwait hmatch.1 hmatch.2)
      (fun he => hne (hmatch.1.symm.trans he)) hacked
  · exact move_handled packet

theorem sendBuilt_pending (c : Client) (built : Built) (sendOk : Bool) :
    pending (c.sendBuilt built sendOk) = pending c := by
  unfold Client.sendBuilt Client.mqttSendDirect
  split
  · rfl
  · cases built.message with
    | none => rfl
    | some packet =>
      unfold Client.espconnSend
      simp only
      split
      · rfl
      · rfl

theorem sendBuilt_log (c : Client) (built : Built) (sendOk : Bool) :
    (c.sendBuilt built sendOk).log = c.log ∨ ∃ packet, built.message = some packet ∧
      (c.sendBuilt built sendOk).log = c.log ++ [.send packet] := by
  unfold Client.sendBuilt Client.mqttSendDirect
  split
  · exact Or.inl rfl
  · cases built.message with
    | none => exact Or.inl rfl
    | some packet =>
      unfold Client.espconnSend
      simp only
      split
      · exact Or.inr ⟨packet,rfl,rfl⟩
      · exact Or.inl rfl

theorem mqttGetId_lt (packet : List UInt8) : mqttGetId packet packet.length < 65536 := by
  by_cases h : mqttGetId packet packet.length = 0
  · rw [h]
    decide
  · rw [mqttGetId_packetId packet h]
    exact packetId_lt packet

theorem move_handlePubrec (env : Env) {packet : List UInt8} (hacked : acked) :
    Move acked cut c ((c.emit (.handled packet)).handlePubrec (mqttGetId packet packet.length) env)
      packets (newActions c
        ((c.emit (.handled packet)).handlePubrec (mqttGetId packet packet.length) env)) := by
  have hid := mqttGetId_lt packet
  unfold Client.handlePubrec
  split
  · rename_i hmatch
    obtain ⟨hw,hi,ht⟩ := hmatch
    have hw : c.isWaitingForAck = true := hw
    have hi : c.pendingMsgId = mqttGetId packet packet.length := hi
    simp only
    generalize hm : ({ c.emit (.handled packet) with
      pendingMsgType := pubrelType, sendTimeout := mqttSendTimout } : Client) = m
    have hpend : pending m = (c.pendingMsgId,pubrelType,c.pendingPublishQos,true) := by
      subst hm
      rw [← hw]
      rfl
    have hlog : m.log = c.log ++ [.handled packet] := by
      subst hm
      rfl
    have hp := (sendBuilt_pending m
      (mqttMsgPubrel (c.emit (.handled packet)).mqttConnection (mqttGetId packet packet.length))
      env.sendOk).trans hpend
    rcases sendBuilt_log m
      (mqttMsgPubrel (c.emit (.handled packet)).mqttConnection (mqttGetId packet packet.length))
      env.sendOk with hsame | ⟨rel,hrel,hsend⟩
    · rw [newActions_eq (hsame.trans hlog)]
      exact .advanced hacked hw ht hp (Or.inl rfl) rfl
    · have htype := mqttMsgAck_type (by decide) (by decide) hrel
      have hreq : isRequest rel = true := by
        rw [isRequest,htype]
        exact decide_eq_true (Or.inr (by decide))
      have hnew : newActions c (m.sendBuilt
          (mqttMsgPubrel (c.emit (.handled packet)).mqttConnection (mqttGetId packet packet.length))
          env.sendOk) = [.handled packet,.send rel] := by
        refine newActions_eq ?_
        rw [hsend,hlog,List.append_assoc]
        rfl
      rw [hnew]
      refine .advanced hacked hw ht hp (Or.inr ⟨rel,?_,htype,fun hne => ?_⟩) rfl
      · rw [requestsSent,show sentPackets [.handled packet,.send rel] = [rel] from rfl,
          List.filter_cons_of_pos hreq,List.filter_nil]
      · rw [hi] at hne ⊢
        exact mqttMsgAck_packetId (by decide) (by decide) (by decide) hid hne hrel
  · exact move_handled packet

/-- The switch on the message type, for an acknowledgement that confuses no exchanges. -/
theorem move_handleMessage (h : Held c packets) (env : Env) {packet : List UInt8}
    (hs : AckSound c packet) :
    Move (isAck packet = true) (Cut c (c.handleMessage packet env)) c (c.handleMessage packet env)
      packets (newActions c (c.handleMessage packet env)) := by
  have hack : ∀ {type : ℕ}, mqttGetType packet = type →
      type ∈ [pubackType,pubrecType,pubcompType,subackType,unsubackType] → isAck packet = true :=
    fun ht hm => by
      rw [isAck,ht]
      exact decide_eq_true hm
  have hhead : ∀ {type : ℕ}, c.pendingMsgType = type → type ≠ connectType →
      type ∈ [subscribeType,unsubscribeType,pubrelType,pingreqType] →
      c.isWaitingForAck = true := fun ht hne hm =>
    (h.head (by rw [ht]; exact hne) (Or.inr (by rw [ht]; exact hm))).1
  unfold Client.handleMessage
  simp only
  split
  · rename_i ht
    exact move_handleAck h env subscribeType (hack ht (by decide)) (by decide)
      fun hpt _ => hhead hpt (by decide) (by decide)
  split
  · rename_i ht
    exact move_handleAck h env unsubscribeType (hack ht (by decide)) (by decide)
      fun hpt _ => hhead hpt (by decide) (by decide)
  split
  · refine move_after [.handled packet] (Client.neutral_handlePublish (c.emit (.handled packet))
      packet env fun type id p ht hp => mqttMsgAck_plain ?_ hp)
      (Client.grows_handlePublish _ packet env) rfl rfl rfl rfl rfl
    rcases ht with rfl | rfl <;> decide
  split
  · rename_i ht
    exact move_handleAck h env publishType (hack ht (by decide)) (by decide)
      fun hpt he => (hs.puback ht hpt he).1
  split
  · rename_i ht
    exact move_handlePubrec env (hack ht (by decide))
  split
  · have hplain : ∀ p, (mqttMsgPubcomp (c.emit (.handled packet)).mqttConnection
        (mqttGetId packet packet.length)).message = some p → Plain p :=
      fun p hp => mqttMsgAck_plain (by decide) hp
    exact move_after [.handled packet] (Client.neutral_sendBuilt _ env.sendOk hplain)
      (Client.grows_handlePubrel _ _ env) rfl rfl rfl rfl rfl
  split
  · rename_i ht
    exact move_handleAck h env pubrelType (hack ht (by decide)) (by decide)
      fun hpt _ => hhead hpt (by decide) (by decide)
  split
  · have hplain : ∀ p, (mqttMsgPingresp (c.emit (.handled packet)).mqttConnection).message =
        some p → Plain p := fun p hp => mqttMsgEmpty_plain (by decide) hp
    exact move_after [.handled packet] (Client.neutral_sendBuilt _ env.sendOk hplain)
      (Client.grows_handlePingreq _ env) rfl rfl rfl rfl rfl
  split
  · unfold Client.handlePingresp
    simp only
    split
    · exact move_after [.handled packet] (Client.neutral_invoke _ .pingresp env.calls)
        (Client.grows_invoke _ .pingresp env.calls) rfl rfl rfl rfl rfl
    · split
      · rename_i hmatch
        have hpt : c.pendingMsgType = pingreqType := hmatch.1
        refine move_after_cleared ([.handled packet] ++
          ((queueGets c.msgQueue mqttBufSize env.isBegin).2.map Action.release).toList)
          (Client.neutral_invoke _ .pingresp env.calls) ?_ rfl ?_
          (Or.inr (Or.inl (by rw [hpt]; decide)))
        · rw [← List.append_assoc]
          rfl
        · cases (queueGets c.msgQueue mqttBufSize env.isBegin).2 <;> rfl
      · exact move_after [.handled packet] (Client.neutral_invoke _ .pingresp env.calls)
          (Client.grows_invoke _ .pingresp env.calls) rfl rfl rfl rfl rfl
  · exact move_handled packet

theorem move_handleConnack (returnCode : UInt8) (env : Env) :
    Move acked (Cut c (c.handleConnack returnCode env)) c (c.handleConnack returnCode env)
      packets (newActions c (c.handleConnack returnCode env)) := by
  unfold Client.handleConnack
  split
  · exact move_after [] c.neutral_espconnDisconnect c.grows_espconnDisconnect (by simp) rfl rfl
      rfl rfl
  · rename_i hpt
    have hpt : c.pendingMsgType ∈ [connectType,pingreqType] := by
      rw [not_not.mp hpt]
      decide
    simp only
    split
    · exact move_after_cleared [] (Client.neutral_invoke _ .connected env.calls) (by simp) rfl rfl
        (Or.inr (Or.inl hpt))
    · exact move_after_cleared [] (Client.neutral_espconnDisconnect _) (by simp) rfl rfl
        (Or.inr (Or.inl hpt))

theorem isRequest_of_not_requiresAck {head : List UInt8} (hq : Queueable head)
    (hr : requiresAck head = false) : isRequest head = false := by
  obtain ⟨ht,hqos⟩ := Client.publish_of_not_requiresAck hq hr
  rw [isRequest,ht,hqos]
  decide

theorem move_taskData (h : Held c packets) (env : Env) :
    Move acked cut c (c.taskData env) packets (newActions c (c.taskData env)) := by
  have hsame : ∀ {d : Client}, pending d = pending c → d.log = c.log →
      Move acked cut c d packets (newActions c d) := fun hp hl => by
    rw [newActions_eq (hl.trans (List.append_nil _).symm)]
    exact .same hp rfl rfl
  unfold Client.taskData
  split
  · exact hsame rfl rfl
  split
  · exact hsame rfl rfl
  rename_i hidle
  have hidle := Bool.eq_false_iff.mpr hidle
  split
  · exact hsame rfl rfl
  cases packets with
  | nil =>
    rw [queueGets_nil h.represents]
    exact hsame rfl rfl
  | cons head rest =>
    obtain ⟨hgot,_⟩ := queueGets_cons h.represents (le_refl mqttBufSize) env.isBegin
    have hq := h.queueable head (by simp)
    simp only [hgot]
    unfold Client.sendQueued
    simp only [Client.queuedSent_espconnSend]
    split
    · cases hr : requiresAck head with
      | true =>
        refine Move.started (show (head::rest).head? = some head from rfl) hidle rfl rfl ?_ ?_
        · rw [newActions_eq rfl,requestsSent,show sentPackets [.send head] = [head] from rfl]
          by_cases hreq : isRequest head = true
          · rw [List.filter_cons_of_pos hreq,if_pos hreq,List.filter_nil]
          · rw [List.filter_cons_of_neg hreq,if_neg hreq,List.filter_nil]
        · rw [newActions_eq rfl]
          rfl
      | false =>
        refine Move.cleared rfl ?_ (Or.inl hidle)
        have hreq := isRequest_of_not_requiresAck hq hr
        rw [newActions_eq (List.append_assoc _ _ _),requestsSent,
          show sentPackets ([.send head] ++ [.release head]) = [head] from rfl,
          List.filter_cons_of_neg (by rw [hreq]; decide),List.filter_nil]
    · refine Move.cleared rfl ?_ (Or.inl hidle)
      simp [newActions,Client.post,requestsSent,sentPackets]

end Moves

end MqttSession
end MeterLogger
