import MeterLogger.En61107
import MeterLogger.KmpReceive

/-!
# The EN 61107 request machine

The four requests of a reading cycle follow each other: the meter says who it is, sends the
registers, and then two or three rows of numerals. The receive interrupt collects a reply and posts
an event at its end; the task reads the reply and sends the next request. One timer watches all of
it and, when the meter does not answer, sends again or waits for the meter to recover.
-/

namespace MeterLogger
namespace En61107

open CStrings Decimal MeterFifo Runs
open KmpReceive (drain drain_spec)

def receivedTaskQueueLength : ℕ := 64

def errorRecoveryInitialDelayMs : ℕ := 5000
def errorRecoveryDelayMs : ℕ := 60000
def retryDelayMs : ℕ := 500
def identResponseTimeoutMs : ℕ := 3000
def dataResponseTimeoutMs : ℕ := 8000
def standardDataResponseTimeoutMs : ℕ := 3000
def instValuesResponseTimeoutMs : ℕ := 3200

inductive UartState
  | none
  | standardData1
  | standardData2
  | en61107Ident
  | en61107
  | instValues
  deriving DecidableEq

/-- What goes out: a request to the meter, a sample, and the two callbacks of the user program. -/
inductive Action
  | send (frame : List UInt8)
  | publish (serial unixTime : ℕ) (message : List UInt8)
  | meterIsReady
  | meterSentData
  deriving DecidableEq

structure State where
  uartState : UartState
  isInErrorRecovery : Bool
  requestNum : ℤ
  errorBackoffCount : ℕ
  receiveTimeoutTimer : Option ℕ
  eod : UInt8
  etxReceived : Bool
  fifo : Fifo
  posted : ℕ
  serial : ℕ
  serialSet : Bool
  meterIsReadyCbCalled : Bool
  response : Response
  otaInProgress : Bool
  log : List Action

def post (s : State) (a : Action) : State := { s with log := s.log ++ [a] }

/-- The variables after `en61107_request_init` at boot. -/
def requestInit : State where
  uartState := .none
  isInErrorRecovery := false
  requestNum := 0
  errorBackoffCount := 0
  receiveTimeoutTimer := none
  eod := 0
  etxReceived := false
  fifo := boot
  posted := 0
  serial := 0
  serialSet := false
  meterIsReadyCbCalled := false
  response := zeroResponse
  otaInProgress := false
  log := []

def int8 (x : ℤ) : ℤ := (x+128)%256-128

/-- What the four requests have in common: nothing is sent in recovery, and the timer watches
the reply. -/
def uartSend (s : State) (t : UartState) (eod : UInt8) (timeout : ℕ) (frame : List UInt8) : State :=
  if s.isInErrorRecovery then s
  else
    post { s with eod := eod, uartState := t, receiveTimeoutTimer := some timeout } (.send frame)

def resetEtx (s : State) : State :=
  if s.isInErrorRecovery then s else { s with etxReceived := false }

def uartSendEn61107Ident (s : State) : State :=
  if s.isInErrorRecovery then s
  else uartSend (resetEtx { s with fifo := en61107FifoFlush s.fifo }) .en61107Ident 10
    identResponseTimeoutMs (ascii "/?!\r\n")

def uartSendEn61107 (s : State) : State :=
  uartSend (resetEtx s) .en61107 3 dataResponseTimeoutMs (6::ascii "000\r\n")

def uartSendStandardData1 (s : State) : State :=
  uartSend s .standardData1 13 standardDataResponseTimeoutMs (ascii "/#1\r")

def uartSendStandardData2 (s : State) : State :=
  uartSend s .standardData2 13 standardDataResponseTimeoutMs (ascii "/#2\r")

def uartSendInstValues (s : State) : State :=
  uartSend s .instValues 13 instValuesResponseTimeoutMs (ascii "/#C")

/-- `while (en61107_fifo_get(&c) && (i <= EN61107_FRAME_L))`. -/
def clearFifo (f : Fifo) : Fifo := (drain (en61107FrameL+1) f).2

def requestSend (s : State) : State :=
  if s.otaInProgress then s
  else if s.isInErrorRecovery || s.uartState ≠ .none then s
  else uartSendEn61107Ident { s with
    fifo := clearFifo s.fifo
    requestNum := int8 (s.requestNum+1) }

/-- Whether a byte is the end of the data; the state remembers the ETX. -/
def isEodChar (s : State) (c : UInt8) : State × Bool :=
  if s.eod = 3 then
    if c = 3 then ({ s with etxReceived := true },false)
    else if s.etxReceived then ({ s with etxReceived := false },true)
    else (s,false)
  else (s,c = s.eod)

/-- `uart0_rx_intr_handler` for one byte. -/
def rxChar (s : State) (c : UInt8) : State :=
  let (s,eod) := isEodChar { s with fifo := (en61107FifoPut s.fifo c).1 } c
  if eod then { s with posted := min (s.posted+1) receivedTaskQueueLength } else s

/-- What the task finds outside: its stack, the heap, the time, and whether the client is up. -/
structure TaskIo (F : Floats) where
  stack : List UInt8 × F.Value
  heap : ℕ
  unixTime : ℕ
  mqttReady : Bool

def readMessage (s : State) : List UInt8 × State :=
  ((drain en61107FrameL s.fifo).1,{ s with fifo := (drain en61107FrameL s.fifo).2 })

/-- `message[message_l - 2] = 0` -/
def cutMessage (message : List UInt8) : List UInt8 :=
  if 2 ≤ message.length then message.take (message.length-2) else message

def padded (width n : ℕ) : List UInt8 :=
  List.replicate (width-(decimal n).length) 48 ++ decimal n

def programText (p : MeterProgram) : List UInt8 :=
  padded 1 p.a ++ padded 1 p.b ++ padded 3 p.ccc ++ padded 2 p.dd ++ padded 1 p.e ++
    padded 2 p.ff ++ padded 2 p.gg

def registerText (name : String) (r : Register) : List UInt8 :=
  ascii name ++ ascii "=" ++ r.value ++ ascii " " ++ r.unit ++ ascii "&"

/-- The key-value pairs of a sample; the message buffer has room for all of them. -/
def sampleText (b : Build) (heap : ℕ) (r : Response) : List UInt8 :=
  ascii "heap=" ++ decimal heap ++ ascii "&" ++
    (ascii "program=" ++ programText r.meterProgram ++ ascii "&") ++
    (if b.flowMeter then []
      else registerText "t1" r.t1 ++ registerText "t2" r.t2 ++
        (if b.mc66b then [] else registerText "t3" r.t3) ++ registerText "tdif" r.tdif) ++
    registerText "flow1" r.flow1 ++
    (if b.flowMeter then [] else registerText "effect1" r.effect1) ++
    registerText "hr" r.hr ++ registerText "v1" r.v1 ++
    if b.flowMeter then [] else registerText "e1" r.e1

def endCycle {F : Floats} (b : Build) (io : TaskIo F) (s : State) : State :=
  let s := { s with errorBackoffCount := 0 }
  let s :=
    if s.meterIsReadyCbCalled then s
    else post { s with meterIsReadyCbCalled := true } .meterIsReady
  let s := { s with receiveTimeoutTimer := none }
  let s :=
    if io.mqttReady then
      post s (.publish s.serial io.unixTime (sampleText b io.heap s.response))
    else s
  { post s .meterSentData with uartState := .none, requestNum := 0 }

def parsedSerial (s : State) : ℕ := (atoi s.response.customerNo%2^32).toNat

def setSerial (s : State) : State :=
  if s.serialSet then s else { s with serial := parsedSerial s, serialSet := true }

def receivedEn61107 (b : Build) (F : Floats) (io : TaskIo F) (s : State) : State :=
  let (message,s) := readMessage s
  let (response,result) := parseEn61107Frame b F io.stack s.response message
  let s := { s with response := response }
  if result ≠ .ok then { s with receiveTimeoutTimer := some retryDelayMs }
  else if !s.serialSet && parsedSerial s = 0 then s
  else if b.mc66b then uartSendStandardData1 (setSerial s)
  else uartSendInstValues (setSerial s)

def receivedInstValues (F : Floats) (io : TaskIo F) (s : State) : State :=
  let (message,s) := readMessage s
  let (response,ok) := parseMc66cdeInstValuesFrame F io.stack.2 s.response message
  let s := { s with response := response }
  if ok then uartSendStandardData1 s else s

def receivedStandardData1 (F : Floats) (io : TaskIo F) (s : State) : State :=
  let (message,s) := readMessage s
  let (response,ok) := parseMc66cdeStandardData1Frame F io.stack.2 s.response (cutMessage message)
  let s := { s with response := response }
  if ok then uartSendStandardData2 s else s

def receivedStandardData2 (b : Build) (F : Floats) (io : TaskIo F) (s : State) : State :=
  let (message,s) := readMessage s
  let (response,ok) := parseMc66cdeStandardData2Frame s.response (cutMessage message)
  let s := { s with response := response }
  if ok then endCycle b io s else s

/-- `en61107_received_task`; the reply to the first request stays in the fifo. -/
def receivedTask (b : Build) (F : Floats) (io : TaskIo F) (s : State) : State :=
  match s.uartState with
  | .none => s
  | .en61107Ident => uartSendEn61107 s
  | .en61107 => receivedEn61107 b F io s
  | .instValues => receivedInstValues F io s
  | .standardData1 => receivedStandardData1 F io s
  | .standardData2 => receivedStandardData2 b F io s

def sendAgain (s : State) : State :=
  match s.uartState with
  | .en61107Ident => uartSendEn61107Ident s
  | .en61107 => uartSendEn61107Ident s
  | .instValues => uartSendInstValues s
  | .standardData1 => uartSendStandardData1 s
  | .standardData2 => uartSendStandardData2 s
  | .none => s

def backoffDelay (count : ℕ) : ℕ :=
  min (errorRecoveryInitialDelayMs*2^count%2^32) errorRecoveryDelayMs

/-- Too many errors: the meter is left alone for a while. -/
def backOff (s : State) : State :=
  { s with
    isInErrorRecovery := true
    uartState := .none
    requestNum := 0
    errorBackoffCount := if s.errorBackoffCount < 10 then s.errorBackoffCount+1 else s.errorBackoffCount
    receiveTimeoutTimer := some (backoffDelay s.errorBackoffCount) }

def receiveTimeoutTimerFunc (s : State) : State :=
  let s := { s with fifo := en61107FifoFlush s.fifo }
  if s.isInErrorRecovery then
    uartSendEn61107Ident { s with isInErrorRecovery := false, requestNum := 1 }
  else
    let s := { s with requestNum := int8 (s.requestNum+1) }
    if s.requestNum ≤ 2 then sendAgain s else backOff s

def requestDestroy (s : State) : State := { s with receiveTimeoutTimer := none }

inductive Event (F : Floats)
  | send
  | rx (c : UInt8)
  | task (io : TaskIo F)
  | timer
  | ota (inProgress : Bool)
  | destroy

/-- The task runs for a posted event, the timer fires once it is armed. -/
def Enabled {F : Floats} (s : State) : Event F → Prop
  | .task _ => 0 < s.posted
  | .timer => s.receiveTimeoutTimer.isSome = true
  | _ => True

instance {F : Floats} (s : State) (e : Event F) : Decidable (Enabled s e) := by
  cases e <;> unfold Enabled <;> infer_instance

def next (b : Build) (F : Floats) (s : State) : Event F → State
  | .send => requestSend s
  | .rx c => rxChar s c
  | .task io => receivedTask b F io { s with posted := s.posted-1 }
  | .timer => receiveTimeoutTimerFunc { s with receiveTimeoutTimer := none }
  | .ota inProgress => { s with otaInProgress := inProgress }
  | .destroy => requestDestroy s

def step (b : Build) (F : Floats) (s : State) (e : Event F) (t : State) : Prop :=
  Enabled s e ∧ t = next b F s e

end En61107
end MeterLogger
