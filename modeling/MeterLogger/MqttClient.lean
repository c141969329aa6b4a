import MeterLogger.Runs
import MeterLogger.MessageQueue
import MeterLogger.MqttMessage
import MeterLogger.MqttUtils

/-!
# The MQTT client

The functions of `mqtt.c` over an explicit client state. Every callback of the network
stack, every tick of the client's timer, every `MQTT_Task` and every call of the
application is one event; what the client cannot decide itself (whether `espconn_send`
takes a packet, how a name lookup ends, what the application does inside a callback)
comes with the event. The client records what it does in a log.
-/

namespace MeterLogger
namespace MqttClient

open MessageQueue MqttMessage MqttUtils

/-- The states of `tConnState` that the code enters or tests. -/
inductive ConnState
  | wifiInit
  | tcpDisconnecting
  | tcpDisconnected
  | tcpReconnectDisconnecting
  | tcpReconnectReq
  | tcpReconnect
  | tcpConnecting
  | mqttConnectSending
  | mqttData
  | mqttKeepaliveSend
  | mqttDeleting
  | mqttDeleted
  deriving DecidableEq, Repr

/-- The callbacks of the application. -/
inductive Callback
  | connected
  | disconnected
  | published
  | pingresp
  | timeout
  | data (topic payload : Option (List UInt8))
  deriving DecidableEq

/-- What the client does: packets taken by `espconn_send`, other calls of the network
stack, packets reaching the switch on their type, callbacks, and packets accepted from
the application and dropped from the queue for good. -/
inductive Action
  | send (packet : List UInt8)
  | connect (ip : List ℕ)
  | resolve (host : List UInt8)
  | disconnect
  | abort
  | handled (packet : List UInt8)
  | callback (cb : Callback)
  | accept (packet : List UInt8)
  | release (packet : List UInt8)
  deriving DecidableEq

def mqttSendTimout : ℕ := 5
def mqttReconnectTimeout : ℕ := 5
def mqttConnectTimeout : ℕ := 5

/-- `MQTT_Client` with its `mqtt_state_t`. `allocated` says that the three buffers, the
queue's memory and the callbacks are there: they come and go together. The used part
of `in_buffer` is `inBuffer`; `posted` counts the tasks posted and not yet run. -/
structure Client where
  pCon : Bool
  security : Bool
  host : Option (List UInt8)
  connectInfo : ConnectInfo
  allocated : Bool
  inBuffer : List UInt8
  mqttConnection : MqttConnection
  pendingMsgId : ℕ
  pendingMsgType : ℕ
  pendingPublishQos : ℕ
  isWaitingForAck : Bool
  keepAliveTick : ℕ
  reconnectTick : ℕ
  connectTick : ℕ
  sendTimeout : ℕ
  pingrespTimeout : ℕ
  isWaitingForPingresp : Bool
  publishSendCallbackPending : Bool
  connState : ConnState
  msgQueue : Queue
  timerArmed : Bool
  posted : ℕ
  log : List Action

/-- How `dns_gethostbyname` ends: with a cached address, a lookup under way, or an error. -/
inductive DnsOutcome
  | ok (addr : ℕ)
  | inProgress
  | failed

/-- Calls of the application. A `none` topic is a null pointer; `none` data is a negative
length, or a null pointer with a positive one. -/
inductive ApiCall
  | publish (topic data : Option (List UInt8)) (qos retain : ℤ)
  | subscribe (topic : Option (List UInt8)) (qos : ℕ)
  | unSubscribe (topic : Option (List UInt8))
  | ping
  | connect (dns : DnsOutcome)
  | disconnect
  | deleteClient

/-- What the surroundings of the client decide during one event: whether a send is taken,
the byte the queue's parser finds on the stack, the byte behind a CONNACK that is too
short, the outcome of a name lookup and the calls made by the callback that runs. -/
structure Env where
  sendOk : Bool
  isBegin : Bool
  stale : UInt8
  dns : DnsOutcome
  calls : List ApiCall

/-- Whether a queued packet stays in the queue until it is acknowledged. -/
def requiresAck (packet : List UInt8) : Bool :=
  (mqttGetType packet = publishType ∧ mqttGetQos packet > 0) ∨
    mqttGetType packet ∈ [subscribeType,unsubscribeType,pubrelType,pingreqType]

/-- The queue with the read pointer and the count of an earlier one. -/
def rollback (before queue : Queue) : Queue :=
  { queue with rb := { queue.rb with pR := before.rb.pR, fillCnt := before.rb.fillCnt } }

namespace Client

/-- `system_os_post` of a task for this client. -/
def post (c : Client) : Client := { c with posted := c.posted+1 }

def emit (c : Client) (a : Action) : Client := { c with log := c.log ++ [a] }

/-- `espconn_send`. Without SSL compiled in, a secure client cannot send. -/
def espconnSend (c : Client) (sendOk : Bool) (packet : List UInt8) : Client × Bool :=
  if c.security = false ∧ sendOk = true then (c.emit (.send packet),true) else (c,false)

/-- `espconn_disconnect` where the code asks for `security` first. -/
def espconnDisconnect (c : Client) : Client := if c.security then c else c.emit .disconnect

def mqttTcpclientDelete (c : Client) : Client :=
  let c := { c with
    inBuffer := []
    isWaitingForAck := false
    pendingMsgId := 0
    pendingMsgType := 0
    sendTimeout := 0
    isWaitingForPingresp := false
    pingrespTimeout := 0
    publishSendCallbackPending := false }
  if c.pCon then { c.emit .abort with pCon := false } else c

def mqttClientDelete (c : Client) : Client :=
  let c := { c with timerArmed := false }
  let c := if c.pCon then c.mqttTcpclientDelete else c
  { c with
    isWaitingForAck := false
    sendTimeout := 0
    isWaitingForPingresp := false
    pingrespTimeout := 0
    publishSendCallbackPending := false
    host := none
    connectInfo := { c.connectInfo with
      clientId := none, username := none, password := none, willTopic := none, willMessage := [] }
    mqttConnection := { c.mqttConnection with body := [] }
    msgQueue := { c.msgQueue with buf := false }
    allocated := false
    connState := .wifiInit }

/-- `mqtt_dns_found`; `none` is a null address. -/
def mqttDnsFound (c : Client) (addr : Option ℕ) : Client :=
  match addr with
  | none => { c with connState := .tcpReconnectReq }
  | some addr =>
    if addr ≠ 0 then
      if c.pCon = false then c
      else
        let c := if c.security then c else c.emit (.connect (ipBytes addr))
        post { c with connState := .tcpConnecting }
    else c.post

def mqttConnect (c : Client) (dns : DnsOutcome) : Client :=
  match c.host with
  | none => c
  | some host =>
    if c.allocated = false then c
    else
      let c := if c.pCon then c.mqttTcpclientDelete else c
      let c := { c with
        inBuffer := []
        pCon := true
        keepAliveTick := 0
        reconnectTick := 0
        connectTick := 0
        isWaitingForAck := false
        pendingMsgId := 0
        pendingMsgType := 0
        sendTimeout := 0
        isWaitingForPingresp := false
        pingrespTimeout := 0
        publishSendCallbackPending := false
        timerArmed := true }
      match utilsStrToIP host with
      | some ip =>
        let c := if c.security then c else c.emit (.connect ip)
        { c with connState := .tcpConnecting }
      | none =>
        let c := c.emit (.resolve host)
        match dns with
        | .ok addr => c.mqttDnsFound (some addr)
        | .inProgress => post { c with connState := .tcpConnecting }
        | .failed => post { c with connState := .tcpReconnectReq }

def mqttDisconnect (c : Client) : Client :=
  { post { c with connState := .tcpDisconnecting } with timerArmed := false }

def mqttDeleteClient (c : Client) : Client :=
  { post { c with connState := .mqttDeleted } with timerArmed := false }

/-- The common end of `MQTT_Publish` and its siblings: the message built is put into the
queue; the flag is the value returned. -/
def queueMessage (c : Client) (built : Built) : Client × Bool :=
  let c := { c with mqttConnection := built.connection }
  match built.message with
  | none => (c,false)
  | some packet =>
    let r := queuePuts c.msgQueue packet
    let c := { c with msgQueue := r.1 }
    if r.2 = -1 then (c,false) else (post (c.emit (.accept packet)),true)

def mqttPublish (c : Client) (topic data : Option (List UInt8)) (qos retain : ℤ) : Client × Bool :=
  match topic, data with
  | some topic, some data =>
    if c.allocated = false ∨ qos < 0 ∨ qos > 2 then (c,false)
    else c.queueMessage (mqttMsgPublish c.mqttConnection topic data qos.toNat retain)
  | _, _ => (c,false)

def mqttSubscribe (c : Client) (topic : Option (List UInt8)) (qos : ℕ) : Client × Bool :=
  match topic with
  | some topic =>
    if c.allocated = false ∨ qos > 2 then (c,false)
    else c.queueMessage (mqttMsgSubscribe c.mqttConnection topic qos)
  | none => (c,false)

def mqttUnSubscribe (c : Client) (topic : Option (List UInt8)) : Client × Bool :=
  match topic with
  | some topic =>
    if c.allocated = false then (c,false)
    else c.queueMessage (mqttMsgUnsubscribe c.mqttConnection topic)
  | none => (c,false)

def mqttPing (c : Client) : Client × Bool :=
  if c.allocated = false then (c,false) else c.queueMessage (mqttMsgPingreq c.mqttConnection)

def runCall (c : Client) : ApiCall → Client
  | .publish topic data qos retain => (c.mqttPublish topic data qos retain).1
  | .subscribe topic qos => (c.mqttSubscribe topic qos).1
  | .unSubscribe topic => (c.mqttUnSubscribe topic).1
  | .ping => c.mqttPing.1
  | .connect dns => c.mqttConnect dns
  | .disconnect => c.mqttDisconnect
  | .deleteClient => c.mqttDeleteClient

def runCalls (c : Client) (calls : List ApiCall) : Client := calls.foldl runCall c

/-- A callback of the application, if there is one, and the calls it makes. -/
def invoke (c : Client) (cb : Callback) (calls : List ApiCall) : Client :=
  if c.allocated then runCalls (c.emit (.callback cb)) calls else c

def mqttSendDirect (c : Client) (sendOk : Bool) (message : Option (List UInt8)) : Client :=
  if c.pCon = false then post { c with connState := .tcpReconnect }
  else match message with
  | none => post { c with connState := .tcpReconnectDisconnecting }
  | some packet =>
    let r := c.espconnSend sendOk packet
    if r.2 then r.1 else post { r.1 with connState := .tcpReconnectDisconnecting }

/-- A control packet is built in the client's connection and sent. -/
def sendBuilt (c : Client) (built : Built) (sendOk : Bool) : Client :=
  mqttSendDirect { c with mqttConnection := built.connection } sendOk built.message

/-- The end of every acknowledged exchange: `QUEUE_Gets` drops the head of the queue and
the pending fields are cleared. -/
def finishPending (c : Client) (env : Env) : Client :=
  let r := queueGets c.msgQueue mqttBufSize env.isBegin
  { c with
    msgQueue := r.1
    isWaitingForAck := false
    pendingMsgId := 0
    pendingMsgType := 0
    sendTimeout := 0
    log := c.log ++ (r.2.map Action.release).toList }

/-- SUBACK, UNSUBACK, PUBACK and PUBCOMP: they finish a pending message of the type they
answer that has their id. -/
def handleAck (pendingType : ℕ) (c : Client) (msgId : ℕ) (env : Env) : Client :=
  if c.pendingMsgType = pendingType ∧ c.pendingMsgId = msgId then c.finishPending env else c

def handleSuback : Client → ℕ → Env → Client := handleAck subscribeType
def handleUnsuback : Client → ℕ → Env → Client := handleAck unsubscribeType
def handlePuback : Client → ℕ → Env → Client := handleAck publishType
def handlePubcomp : Client → ℕ → Env → Client := handleAck pubrelType

/-- PUBLISH: the acknowledgement is sent, then `deliver_publish` runs. -/
def handlePublish (c : Client) (packet : List UInt8) (env : Env) : Client :=
  let msgId := mqttGetId packet packet.length
  let c :=
    if mqttGetQos packet = 1 then
      c.sendBuilt (mqttMsgPuback c.mqttConnection msgId) env.sendOk
    else if mqttGetQos packet = 2 then
      c.sendBuilt (mqttMsgPubrec c.mqttConnection msgId) env.sendOk
    else c
  c.invoke (.data (publishTopic packet) (publishPayload packet)) env.calls

/-- PUBREC moves a matching exchange on, also when it is a duplicate. -/
def handlePubrec (c : Client) (msgId : ℕ) (env : Env) : Client :=
  if c.isWaitingForAck = true ∧ c.pendingMsgId = msgId ∧
      (c.pendingMsgType = publishType ∨ c.pendingMsgType = pubrelType) then
    let c := { c with pendingMsgType := pubrelType, sendTimeout := mqttSendTimout }
    c.sendBuilt (mqttMsgPubrel c.mqttConnection msgId) env.sendOk
  else c

def handlePubrel (c : Client) (msgId : ℕ) (env : Env) : Client :=
  c.sendBuilt (mqttMsgPubcomp c.mqttConnection msgId) env.sendOk

def handlePingreq (c : Client) (env : Env) : Client :=
  c.sendBuilt (mqttMsgPingresp c.mqttConnection) env.sendOk

/-- PINGRESP answers the automatic keepalive first, then a queued ping. -/
def handlePingresp (c : Client) (env : Env) : Client :=
  let c := { c with keepAliveTick := 0 }
  let c :=
    if c.isWaitingForPingresp then { c with isWaitingForPingresp := false, pingrespTimeout := 0 }
    else if c.pendingMsgType = pingreqType ∧ c.isWaitingForAck = true then c.finishPending env
    else c
  c.invoke .pingresp env.calls

/-- The switch on the message type in `MQTT_DATA` and `MQTT_KEEPALIVE_SEND`. -/
def handleMessage (c : Client) (packet : List UInt8) (env : Env) : Client :=
  let msgType := mqttGetType packet
  let msgId := mqttGetId packet packet.length
  let c := c.emit (.handled packet)
  if msgType = subackType then c.handleSuback msgId env
  else if msgType = unsubackType then c.handleUnsuback msgId env
  else if msgType = publishType then c.handlePublish packet env
  else if msgType = pubackType then c.handlePuback msgId env
  else if msgType = pubrecType then c.handlePubrec msgId env
  else if msgType = pubrelType then c.handlePubrel msgId env
  else if msgType = pubcompType then c.handlePubcomp msgId env
  else if msgType = pingreqType then c.handlePingreq env
  else if msgType = pingrespType then c.handlePingresp env
  else c

/-- A CONNACK while the CONNECT is on its way. `returnCode` is the fourth byte of the
buffer, which a shorter packet leaves to whatever was there before. -/
def handleConnack (c : Client) (returnCode : UInt8) (env : Env) : Client :=
  if c.pendingMsgType ≠ connectType then c.espconnDisconnect
  else
    let c := { c with
      isWaitingForAck := false, pendingMsgType := 0, pendingMsgId := 0, sendTimeout := 0 }
    if returnCode = 0 then invoke { c with connState := .mqttData } .connected env.calls
    else c.espconnDisconnect

/-- The switch on the connection state for one packet. The accessors read only the packet's
own bytes, the return code apart. -/
def handlePacket (c : Client) (length : ℕ) (env : Env) : Client :=
  let packet := c.inBuffer.take length
  match c.connState with
  | .mqttConnectSending =>
    if mqttGetType packet = connackType then c.handleConnack (c.inBuffer.getD 3 env.stale) env
    else c
  | .mqttData | .mqttKeepaliveSend => c.handleMessage packet env
  | _ => c

/-- `espconn_disconnect` on the way out of the receive function. -/
def dropConnection (c : Client) : Client := if c.pCon then c.emit .disconnect else c

/-- The part of `mqtt_tcpclient_recv` behind the copy: exactly one packet is processed. -/
def processPacket (c : Client) (env : Env) : Client :=
  if c.inBuffer = [] then c.post
  else
    let packetLength := mqttGetPacketLength c.inBuffer c.inBuffer.length
    if packetLength < 0 ∨ packetLength > mqttBufSize then dropConnection { c with inBuffer := [] }
    else if packetLength > 0 ∧ packetLength ≤ c.inBuffer.length then
      let usedBeforeProcessing := c.inBuffer.length
      let c := c.handlePacket packetLength.toNat env
      if c.connState = .tcpReconnectDisconnecting then { c with inBuffer := [] }
      else if c.inBuffer.length ≠ usedBeforeProcessing ∨ c.allocated = false then
        { c with inBuffer := [] }
      else post { c with inBuffer := c.inBuffer.drop packetLength.toNat }
    else c.post

/-- `mqtt_tcpclient_recv`; no bytes stand for a null chunk. -/
def mqttTcpclientRecv (c : Client) (pdata : List UInt8) (env : Env) : Client :=
  if pdata = [] then c.processPacket env
  else if c.inBuffer.length+pdata.length > mqttBufSize then dropConnection { c with inBuffer := [] }
  else if c.allocated = false then c.dropConnection
  else processPacket { c with inBuffer := c.inBuffer ++ pdata } env

def mqttTcpclientSentCb (c : Client) (env : Env) : Client :=
  let c := { c with
    keepAliveTick := 0
    sendTimeout := if c.isWaitingForAck then c.sendTimeout else 0 }
  let c :=
    if c.publishSendCallbackPending then
      let c := { c with publishSendCallbackPending := false }
      if c.connState = .mqttData ∨ c.connState = .mqttKeepaliveSend then
        c.invoke .published env.calls
      else c
    else c
  c.post

def disconnectedState : ConnState → ConnState
  | .tcpDisconnecting => .tcpDisconnected
  | .mqttDeleting => .mqttDeleted
  | _ => .tcpReconnectReq

def mqttTcpclientDisconCb (c : Client) (env : Env) : Client :=
  let c := { c with
    inBuffer := []
    isWaitingForAck := false
    pendingMsgId := 0
    pendingMsgType := 0
    sendTimeout := 0
    isWaitingForPingresp := false
    pingrespTimeout := 0
    publishSendCallbackPending := false
    connState := disconnectedState c.connState }
  post (c.invoke .disconnected env.calls)

/-- `mqtt_tcpclient_connect_cb` after the send, with its result. -/
def connectSent (r : Client × Bool) : Client :=
  if r.2 then
    post { r.1 with
      sendTimeout := mqttSendTimout, isWaitingForAck := true, connState := .mqttConnectSending }
  else post { r.1 with sendTimeout := 0, connState := .tcpReconnectDisconnecting }

def mqttTcpclientConnectCb (c : Client) (env : Env) : Client :=
  if c.allocated = false then post { c with connState := .tcpReconnectDisconnecting }
  else
    let built := mqttMsgConnect (mqttMsgInit mqttBufSize) c.connectInfo
    let c := { c with mqttConnection := built.connection }
    match built.message with
    | none => post { c with connState := .tcpReconnectDisconnecting }
    | some packet =>
      let c := { c with
        pendingMsgType := mqttGetType packet
        pendingMsgId := mqttGetId packet packet.length }
      connectSent (c.espconnSend env.sendOk packet)

def mqttTcpclientReconCb (c : Client) : Client := post { c with connState := .tcpReconnectReq }

/-- The switch of `mqtt_timer` on the connection state. -/
def timerConnState (c : Client) (env : Env) : Client :=
  match c.connState with
  | .mqttData =>
    let c := { c with keepAliveTick := c.keepAliveTick+1 }
    if c.keepAliveTick > c.connectInfo.keepalive/2 ∧ c.isWaitingForPingresp = false ∧
        c.isWaitingForAck = false ∧ c.sendTimeout = 0 then
      post { c with connState := .mqttKeepaliveSend }
    else c
  | .tcpReconnectReq =>
    let c := { c with reconnectTick := c.reconnectTick+1 }
    if c.reconnectTick > mqttReconnectTimeout then
      invoke (post { c with reconnectTick := 0, connState := .tcpReconnect }) .timeout env.calls
    else c
  | .tcpConnecting =>
    let c := { c with connectTick := c.connectTick+1 }
    if c.connectTick > mqttConnectTimeout then
      invoke (post { c with connectTick := 0, connState := .tcpReconnect }) .timeout env.calls
    else c
  | _ => c

/-- The keepalive timeout of `mqtt_timer`. -/
def timerPingresp (c : Client) : Client :=
  if c.isWaitingForPingresp = true ∧ c.pingrespTimeout > 0 then
    let c := { c with pingrespTimeout := c.pingrespTimeout-1 }
    if c.pingrespTimeout = 0 then
      post { c with isWaitingForPingresp := false, connState := .tcpReconnectDisconnecting }
    else c
  else c

/-- The send timeout of `mqtt_timer`. -/
def timerSend (c : Client) : Client :=
  if c.sendTimeout > 0 then
    let c := { c with sendTimeout := c.sendTimeout-1 }
    if c.sendTimeout = 0 then post { c with connState := .tcpReconnectDisconnecting } else c
  else c

def mqttTimer (c : Client) (env : Env) : Client := timerSend (timerPingresp (c.timerConnState env))

/-- `mqtt_send_keepalive` after the send, with its result. -/
def keepaliveSent (r : Client × Bool) : Client :=
  if r.2 then
    post { r.1 with
      keepAliveTick := 0
      isWaitingForPingresp := true
      pingrespTimeout := mqttSendTimout
      connState := .mqttData }
  else
    post { r.1 with
      isWaitingForPingresp := false
      pingrespTimeout := 0
      connState := .tcpReconnectDisconnecting }

def mqttSendKeepalive (c : Client) (sendOk : Bool) : Client :=
  if c.pCon = false then c
  else if c.isWaitingForPingresp = true ∨ c.isWaitingForAck = true ∨ c.sendTimeout > 0 then
    post { c with connState := .mqttData }
  else
    let built := mqttMsgPingreq c.mqttConnection
    let c := { c with mqttConnection := built.connection }
    match built.message with
    | none => post { c with connState := .tcpReconnectDisconnecting }
    | some packet => keepaliveSent (c.espconnSend sendOk packet)

/-- What follows the send of a packet taken from the queue: an error puts it back. -/
def queuedSent (before : Queue) (packet : List UInt8) (r : Client × Bool) : Client :=
  if r.2 then if requiresAck packet then r.1 else r.1.emit (.release packet)
  else
    post { r.1 with
      msgQueue := before
      isWaitingForAck := false
      pendingMsgId := 0
      pendingMsgType := 0
      sendTimeout := 0
      publishSendCallbackPending := false
      connState := .tcpReconnectDisconnecting }

/-- A packet taken from the queue, which is left as `queue`, is sent. A packet that needs
an acknowledgement is put back first. -/
def sendQueued (c : Client) (queue : Queue) (packet : List UInt8) (env : Env) : Client :=
  let before := rollback c.msgQueue queue
  let c := { c with
    pendingMsgType := mqttGetType packet
    pendingMsgId := mqttGetId packet packet.length
    pendingPublishQos := mqttGetQos packet
    isWaitingForAck := requiresAck packet
    msgQueue := if requiresAck packet then before else queue
    sendTimeout := mqttSendTimout
    publishSendCallbackPending := mqttGetType packet = publishType }
  queuedSent before packet (c.espconnSend env.sendOk packet)

/-- The state `MQTT_DATA` in `MQTT_Task`: the head of the queue is sent if nothing is on
its way. -/
def taskData (c : Client) (env : Env) : Client :=
  if c.pCon = false ∨ queueIsEmpty c.msgQueue = true ∨ c.sendTimeout ≠ 0 then c
  else if c.isWaitingForAck then c
  else if c.isWaitingForPingresp then c
  else
    let r := queueGets c.msgQueue mqttBufSize env.isBegin
    match r.2 with
    | none => { c with msgQueue := r.1 }
    | some packet => c.sendQueued r.1 packet env

/-- Whether `MQTT_Task` processes a complete packet of the receive buffer. -/
def taskReceives (c : Client) : Bool :=
  let length := mqttGetPacketLength c.inBuffer c.inBuffer.length
  c.inBuffer ≠ [] ∧ c.connState ≠ .tcpReconnectDisconnecting ∧ c.pCon = true ∧
    length > 0 ∧ length ≤ c.inBuffer.length ∧ length ≤ mqttBufSize

/-- The switch of `MQTT_Task`. -/
def taskSwitch (c : Client) (env : Env) : Client :=
  match c.connState with
  | .tcpReconnect => { c.mqttTcpclientDelete.mqttConnect env.dns with connState := .tcpConnecting }
  | .mqttDeleting | .tcpDisconnecting | .tcpReconnectDisconnecting =>
    if c.pCon then c.espconnDisconnect else c
  | .tcpDisconnected => c.mqttTcpclientDelete
  | .mqttDeleted => c.mqttClientDelete
  | .mqttKeepaliveSend => c.mqttSendKeepalive env.sendOk
  | .mqttData => c.taskData env
  | _ => c

def mqttTask (c : Client) (env : Env) : Client :=
  if c.allocated = false then c
  else if c.taskReceives then c.mqttTcpclientRecv [] env
  else c.taskSwitch env

end Client

/-- Everything that can happen to the client. -/
inductive Event
  | api (call : ApiCall)
  | task (env : Env)
  | tick (env : Env)
  | recv (pdata : List UInt8) (env : Env)
  | sent (env : Env)
  | discon (env : Env)
  | recon
  | connected (env : Env)
  | dnsFound (addr : Option ℕ)

/-- A task runs when one was posted, the timer ticks when it is armed. -/
def Enabled (c : Client) : Event → Prop
  | .task _ => 0 < c.posted
  | .tick _ => c.timerArmed = true
  | _ => True

def next (c : Client) : Event → Client
  | .api call => c.runCall call
  | .task env => Client.mqttTask { c with posted := c.posted-1 } env
  | .tick env => c.mqttTimer env
  | .recv pdata env => c.mqttTcpclientRecv pdata env
  | .sent env => c.mqttTcpclientSentCb env
  | .discon env => c.mqttTcpclientDisconCb env
  | .recon => c.mqttTcpclientReconCb
  | .connected env => c.mqttTcpclientConnectCb env
  | .dnsFound addr => c.mqttDnsFound addr

/-- One event and what the client makes of it. -/
def Step (c : Client) (e : Event) (c' : Client) : Prop := Enabled c e ∧ c' = next c e

instance (c : Client) (e : Event) : Decidable (Enabled c e) := by
  cases e <;> unfold Enabled <;> infer_instance

def allEnabled : Client → List Event → Bool
  | _, [] => true
  | c, e::es => Enabled c e && allEnabled (next c e) es

theorem run_of_allEnabled {c : Client} {es : List Event} (h : allEnabled c es = true) :
    Runs.Run Step c es (es.foldl next c) := by
  induction es generalizing c with
  | nil => exact .nil c
  | cons e es ih =>
    simp only [allEnabled,Bool.and_eq_true,decide_eq_true_eq] at h
    exact .cons ⟨h.1,rfl⟩ (ih h.2)

/-- The client after `MQTT_InitConnection` and a successful `MQTT_InitClient`. -/
def mqttInitClient (host : List UInt8) (security : Bool) (info : ConnectInfo)
    (queueBufferSize : ℤ) : Client where
  pCon := false
  security := security
  host := some host
  connectInfo := info
  allocated := true
  inBuffer := []
  mqttConnection := mqttMsgInit mqttBufSize
  pendingMsgId := 0
  pendingMsgType := 0
  pendingPublishQos := 0
  isWaitingForAck := false
  keepAliveTick := 0
  reconnectTick := 0
  connectTick := 0
  sendTimeout := 0
  pingrespTimeout := 0
  isWaitingForPingresp := false
  publishSendCallbackPending := false
  connState := .wifiInit
  msgQueue := queueInit Queue.zero queueBufferSize true
  timerArmed := false
  posted := 1
  log := []

end MqttClient
end MeterLogger
