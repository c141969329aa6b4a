import MeterLogger.Decimal
import MeterLogger.FlashWriter
import MeterLogger.OtaHeader

/-!
# The firmware download

The variables of `ota.c` and its callbacks. What the network, the flash and the boot loader
answer comes with each event. The writer of the boot loader is any `SequentialWriter`; the
context of the hash is the list of the bytes hashed.
-/

namespace MeterLogger
namespace Ota

open CStrings Decimal FlashWriter OtaHeader

def otaMaxRetries : ℕ := 5
def minFirmwareSize : ℕ := 102400
def maxFirmwareSize : ℕ := 0x69000
def otaMaxHeaderSize : ℕ := 1024
def otaDefaultPort : ℕ := 80

inductive RetryReason
  | other
  | dns
  | tcp
  | incompleteHttpResponse
  deriving DecidableEq

/-- The TCP connection of the current attempt. -/
inductive Phase
  | idle
  | connecting
  | established
  deriving DecidableEq

/-- What the machine does to its surroundings. -/
inductive Action
  | status (text : List UInt8)
  | stopScan
  | startScan
  | send (request : List UInt8)
  | abort
  | eraseSector (sector : ℕ)
  | writeSectors (sectors : List ℕ)
  | setTempRom (rom : ℕ)
  | restartDefered
  deriving DecidableEq

/-- The boot loader, whose slots start at sectors, and SHA-256. -/
structure Platform where
  writer : SequentialWriter
  roms : ℕ → ℕ
  roms_aligned : ∀ rom, roms rom%sectorSize = 0
  sha256 : List UInt8 → List UInt8

/-- Where a URL leads. -/
structure Url where
  host : List UInt8
  port : ℕ
  hostHeader : List UInt8
  path : List UInt8
  deriving DecidableEq

/-- The variables of `ota.c`, the flash, the connection, and a log of what was done. The header
buffer is its `ota_header_len` bytes, a digest is there if it is checked. -/
structure State (P : Platform) where
  inProgress : Bool
  status : P.writer.State
  targetRom : ℕ
  targetBaseAddr : ℕ
  headersParsed : Bool
  isValidBinary : Bool
  firmwareSize : ℕ
  firmwareSizeKnown : Bool
  responseLength : ℕ
  responseReceivedBytes : ℕ
  responseLengthKnown : Bool
  responseStatusCode : ℕ
  responseRangeEnd : ℕ
  responseRangeTotal : ℕ
  responseRangeValid : Bool
  receivedBytes : ℕ
  requestOffset : ℕ
  retryCount : ℕ
  retryPending : Bool
  continuePending : Bool
  dnsPending : Bool
  incompleteHttpResponseSeen : Bool
  dnsFailureSeen : Bool
  tcpFailureSeen : Bool
  otherFailureSeen : Bool
  lastReportedProgress : ℕ
  headerBuffer : List UInt8
  url : Url
  timeoutTimer : Bool
  retryTimer : Bool
  progressTimer : Bool
  shaCtx : List UInt8
  expectedSha256₁ : Option (List UInt8)
  expectedSha256₂ : Option (List UInt8)
  flash : Flash
  phase : Phase
  log : List Action

variable {P : Platform}

namespace State

def post (s : State P) (a : Action) : State P := { s with log := s.log ++ [a] }

def report (s : State P) (text : String) : State P := s.post (.status (ascii text))

def boot (P : Platform) (flash : Flash) : State P where
  inProgress := false
  status := P.writer.init 0
  targetRom := 0
  targetBaseAddr := 0
  headersParsed := false
  isValidBinary := false
  firmwareSize := 0
  firmwareSizeKnown := false
  responseLength := 0
  responseReceivedBytes := 0
  responseLengthKnown := false
  responseStatusCode := 0
  responseRangeEnd := 0
  responseRangeTotal := 0
  responseRangeValid := false
  receivedBytes := 0
  requestOffset := 0
  retryCount := 0
  retryPending := false
  continuePending := false
  dnsPending := false
  incompleteHttpResponseSeen := false
  dnsFailureSeen := false
  tcpFailureSeen := false
  otherFailureSeen := false
  lastReportedProgress := 0
  headerBuffer := []
  url := ⟨[],0,[],[]⟩
  timeoutTimer := false
  retryTimer := false
  progressTimer := false
  shaCtx := []
  expectedSha256₁ := none
  expectedSha256₂ := none
  flash := flash
  phase := .idle
  log := []

def hasSha256 (s : State P) : Bool := s.expectedSha256₁.isSome || s.expectedSha256₂.isSome

end State

def otaCleanupTimers (s : State P) : State P :=
  { s with timeoutTimer := false, retryTimer := false, progressTimer := false }

def espconnAbort (s : State P) : State P := { s with phase := .idle }.post .abort

def otaFailUpdate (s : State P) (status : String) (abortConnection : Bool) : State P :=
  let s := otaCleanupTimers s
  let s := { s with
    retryPending := false
    continuePending := false
    dnsPending := false
    isValidBinary := false
    inProgress := false }
  let s := (s.post .startScan).report status
  if abortConnection then espconnAbort s else s

def otaIncompleteHttpResponse (s : State P) : Bool :=
  s.headersParsed && s.responseLengthKnown && s.responseReceivedBytes < s.responseLength

def otaScheduleRangeContinue (s : State P) : State P :=
  if !s.inProgress || s.retryPending then s
  else
    { s with
      dnsPending := false
      continuePending := true
      retryPending := true
      timeoutTimer := false
      retryTimer := true }

/-- The category of a failure is kept for the report. -/
def seeFailure (s : State P) : RetryReason → State P
  | .dns => { s with dnsFailureSeen := true }
  | .tcp => { s with tcpFailureSeen := true }
  | .incompleteHttpResponse => { s with incompleteHttpResponseSeen := true }
  | .other => { s with otherFailureSeen := true }

def retryText (s : State P) : List UInt8 :=
  ascii "retrying_chunk_" ++ decimal s.retryCount ++ ascii "_offset_" ++ decimal s.receivedBytes

/-- Another attempt, from the sector that may be incomplete on. -/
def retryLater (s : State P) (reason : RetryReason) : State P :=
  let s := { s with
    retryCount := s.retryCount+1
    retryPending := true
    receivedBytes := s.receivedBytes/sectorSize*sectorSize }
  let s := if reason = .incompleteHttpResponse then s.post (.status (retryText s)) else s
  { s with retryTimer := true }

def reportExhausted (s : State P) : State P :=
  let t := if s.dnsFailureSeen then s.report "error_dns_resolution" else s
  let t := if s.tcpFailureSeen then t.report "error_tcp_connection" else t
  let t := if s.incompleteHttpResponseSeen then t.report "error_incomplete_http_response" else t
  let t := if s.otherFailureSeen then t.report "error_incomplete_firmware" else t
  if s.dnsFailureSeen || s.tcpFailureSeen || s.incompleteHttpResponseSeen || s.otherFailureSeen then t
  else t.report "error_retry_exhausted"

def retryExhausted (s : State P) : State P :=
  let s := otaCleanupTimers s
  let s := { s with
    retryPending := false
    continuePending := false
    isValidBinary := false
    dnsPending := false }
  { reportExhausted s with inProgress := false }

def otaTriggerReconnect (s : State P) (reason : RetryReason) : State P :=
  if !s.inProgress || s.retryPending then s
  else
    let s := { s with timeoutTimer := false, dnsPending := false, continuePending := false }
    let s := seeFailure s reason
    if s.retryCount < otaMaxRetries then retryLater s reason else retryExhausted s

def otaTimeoutTimerCb (s : State P) : State P :=
  if !s.inProgress || s.retryPending then s
  else
    let wasWaitingForDns := s.dnsPending
    let incomplete := !wasWaitingForDns && otaIncompleteHttpResponse s
    let s := { s with dnsPending := false, timeoutTimer := false }
    let s :=
      if incomplete then
        otaTriggerReconnect { s with tcpFailureSeen := true } .incompleteHttpResponse
      else if wasWaitingForDns then otaTriggerReconnect s .dns
      else otaTriggerReconnect s .tcp
    if wasWaitingForDns then s else espconnAbort s

def otaProgressTimerCb (s : State P) : State P :=
  if !s.inProgress || s.retryPending || !s.firmwareSizeKnown || s.firmwareSize = 0 then s
  else
    let currentProgress := s.receivedBytes*100/s.firmwareSize%256
    if currentProgress ≤ s.lastReportedProgress then s
    else
      let s := { s with lastReportedProgress := currentProgress }
      s.post (.status (ascii "flashing_" ++ decimal currentProgress ++ ascii "%"))

/-- `espconn_connect` and its failure. -/
def otaDnsFoundCb (s : State P) (found connectOk : Bool) : State P :=
  if !s.inProgress || s.retryPending then s
  else
    let s := { s with dnsPending := false }
    if !found then otaTriggerReconnect { s with timeoutTimer := false } .dns
    else if connectOk then { s with phase := .connecting }
    else otaTriggerReconnect { s with timeoutTimer := false } .tcp

/-- What `dns_gethostbyname` answers: the address at once, later, or an error. -/
inductive DnsResult
  | ok (connectOk : Bool)
  | inProgress
  | error

def dnsGethostbyname (s : State P) : DnsResult → State P
  | .ok connectOk => otaDnsFoundCb s true connectOk
  | .inProgress => s
  | .error => otaTriggerReconnect { s with dnsPending := false, timeoutTimer := false } .dns

def otaRetryTimerCb (s : State P) (dns : DnsResult) : State P :=
  if !s.inProgress then s
  else
    let continuingRange := s.continuePending
    dnsGethostbyname { s with
      continuePending := false
      retryPending := false
      headersParsed := false
      isValidBinary := continuingRange && s.isValidBinary
      headerBuffer := []
      responseLength := 0
      responseReceivedBytes := 0
      responseLengthKnown := false
      responseStatusCode := 0
      responseRangeEnd := 0
      responseRangeTotal := 0
      responseRangeValid := false
      phase := .idle
      timeoutTimer := true
      dnsPending := true } dns

def requestText (url : Url) (requestOffset : ℕ) : List UInt8 :=
  if 0 < requestOffset then
    ascii "GET " ++ url.path ++ ascii " HTTP/1.1\r\nHost: " ++ url.hostHeader ++
      ascii "\r\nRange: bytes=" ++ decimal requestOffset ++
      ascii "-\r\nConnection: close\r\nUser-Agent: ESP8266-OTA\r\n\r\n"
  else
    ascii "GET " ++ url.path ++ ascii " HTTP/1.0\r\nHost: " ++ url.hostHeader ++
      ascii "\r\nConnection: close\r\nUser-Agent: ESP8266-OTA\r\n\r\n"

def otaTcpConnectCb (s : State P) (sendOk : Bool) : State P :=
  if !s.inProgress || s.retryPending then s
  else
    let s := { s with
      dnsPending := false
      requestOffset := s.receivedBytes
      responseReceivedBytes := 0
      responseLength := 0
      responseLengthKnown := false
      responseStatusCode := 0
      responseRangeEnd := 0
      responseRangeTotal := 0
      responseRangeValid := false }
    let s := s.post (.send (requestText s.url s.requestOffset))
    if sendOk then s
    else espconnAbort (otaTriggerReconnect { s with timeoutTimer := false } .tcp)

/-- What the flash answers to a received packet, and what an operation that fails leaves. -/
structure FlashIo where
  eraseOk : Bool
  readOk : ℕ → Bool
  writeOk : Bool
  wreck : Flash

def wrecked (f wreck : Flash) (sectors : List ℕ) : Flash := fun x =>
  if x/sectorSize ∈ sectors then wreck x else f x

/-- The loop of `ota_rehash_flash` over chunks of 256 bytes. -/
def rehashLoop (io : FlashIo) (f : Flash) : ℕ → ℕ → ℕ → List UInt8 → Option (List UInt8)
  | 0, _, _, ctx => some ctx
  | fuel+1, addr, endAddr, ctx =>
    if addr < endAddr then
      let chunkLen := if endAddr < addr+256 then endAddr-addr else 256
      if io.readOk addr then rehashLoop io f fuel (addr+chunkLen) endAddr (ctx ++ readFlash f addr chunkLen)
      else none
    else some ctx

/-- The context after `ota_rehash_flash`, if no read fails. -/
def otaRehashFlash (io : FlashIo) (s : State P) : Option (List UInt8) :=
  if s.hasSha256 then
    rehashLoop io s.flash (s.receivedBytes+1) s.targetBaseAddr (s.targetBaseAddr+s.receivedBytes) []
  else some s.shaCtx

def contentLength (headers : List UInt8) : Option ℕ :=
  match otaGetHeaderValue headers (ascii "Content-Length") with
  | (some cl,false) => (otaParseUint32 cl).filter (· ≠ 0)
  | _ => none

def contentRange (headers : List UInt8) : Option (ℕ × ℕ × ℕ) :=
  match otaGetHeaderValue headers (ascii "Content-Range") with
  | (some cr,false) => otaParseContentRange cr
  | _ => none

/-- A partial response must describe the range requested. -/
def acceptRange (s : State P) (length start stop total : ℕ) : State P × Option String :=
  if start ≠ s.requestOffset ∨ stop < start ∨ total = 0 ∨ total ≤ stop then
    (s,some "error_invalid_content_range")
  else if total < minFirmwareSize ∨ maxFirmwareSize < total then
    (s,some "error_invalid_firmware_size")
  else if length ≠ stop-start+1 then (s,some "error_invalid_content_range")
  else if s.firmwareSizeKnown ∧ s.firmwareSize ≠ total then (s,some "error_invalid_content_range")
  else
    ({ s with
      firmwareSize := total
      firmwareSizeKnown := true
      responseRangeEnd := stop
      responseRangeTotal := total
      responseRangeValid := true },none)

/-- A full response starts the download again. -/
def acceptWhole (s : State P) (length : ℕ) : State P × Option String :=
  if length < minFirmwareSize ∨ maxFirmwareSize < length then
    (s,some "error_invalid_firmware_size")
  else
    ({ s with
      receivedBytes := 0
      requestOffset := 0
      responseReceivedBytes := 0
      isValidBinary := false
      firmwareSize := length
      firmwareSizeKnown := true
      shaCtx := if s.hasSha256 then [] else s.shaCtx },none)

def acceptResponse (s : State P) (headers : List UInt8) (code length : ℕ) :
    State P × Option String :=
  let s := { s with
    responseStatusCode := code
    responseRangeEnd := 0
    responseRangeTotal := 0
    responseRangeValid := false }
  if code = 200 then acceptWhole s length
  else
    match contentRange headers with
    | none => (s,some "error_invalid_content_range")
    | some (start,stop,total) => acceptRange s length start stop total

def openBody (s : State P) (length : ℕ) : State P :=
  { s with
    responseLength := length
    responseReceivedBytes := 0
    responseLengthKnown := true
    headersParsed := true }

/-- The checks of the header, and the status that reports the first that fails. -/
def acceptHeader (s : State P) (headers : List UInt8) : State P × Option String :=
  match otaParseStatusCode headers with
  | none => (s,some "error_invalid_http_header")
  | some code =>
    if code ≠ 200 ∧ code ≠ 206 then (s,some "error_http_not_200")
    else
      match contentLength headers with
      | none => (s,some "error_invalid_content_length")
      | some length =>
        match acceptResponse s headers code length with
        | (s,some error) => (s,some error)
        | (s,none) => (openBody s length,none)

def collectHeader (s : State P) (data : List UInt8) : State P :=
  let copyLen :=
    if otaMaxHeaderSize-1 < s.headerBuffer.length+data.length then
      otaMaxHeaderSize-1-s.headerBuffer.length
    else data.length
  { s with headerBuffer := s.headerBuffer ++ data.take copyLen }

/-- The header has ended in this packet; the bytes behind it are returned. -/
def endHeader (s : State P) (data : List UInt8) (previousHeaderLen totalHeaderSize : ℕ) :
    State P × Option (List UInt8) :=
  match acceptHeader s (cstr s.headerBuffer) with
  | (s,some error) => (otaFailUpdate s error true,none)
  | (s,none) =>
    if totalHeaderSize < previousHeaderLen then
      (otaFailUpdate s "error_invalid_http_header" true,none)
    else if data.length < totalHeaderSize-previousHeaderLen then
      (otaFailUpdate s "error_invalid_http_header" true,none)
    else (s,some (data.drop (totalHeaderSize-previousHeaderLen)))

/-- Collect the header; the body bytes in this packet, if the callback goes on. -/
def receiveHeader (s : State P) (data : List UInt8) : State P × Option (List UInt8) :=
  if s.headersParsed then (s,some data)
  else
    let previousHeaderLen := s.headerBuffer.length
    let s := collectHeader s data
    match totalHeaderSize s.headerBuffer with
    | none =>
      if otaMaxHeaderSize-1 ≤ s.headerBuffer.length then
        (otaFailUpdate s "error_header_overflow" true,none)
      else (s,none)
    | some totalHeaderSize => endHeader s data previousHeaderLen totalHeaderSize

def currentFlashAddr (s : State P) : ℕ := s.targetBaseAddr+s.receivedBytes

/-- Look up the slot and erase the sector at the write position. -/
def eraseFirst (P : Platform) (s : State P) : State P :=
  let s := { s with isValidBinary := true, targetBaseAddr := P.roms s.targetRom }
  s.post (.eraseSector (currentFlashAddr s/sectorSize))

def initWriter (P : Platform) (s : State P) : State P :=
  { s with
    flash := erase s.flash (currentFlashAddr s/sectorSize)
    status := P.writer.init (currentFlashAddr s) }

/-- The first body bytes of an attempt: check the magic byte, erase the sector and start the
writer. -/
def startWriter (P : Platform) (io : FlashIo) (s : State P) (magicByte : UInt8) :
    State P × Option String :=
  if s.receivedBytes = 0 ∧ magicByte ≠ 0xE9 ∧ magicByte ≠ 0xEA then (s,some "error_invalid_magic")
  else
    let s := eraseFirst P s
    if !io.eraseOk then
      ({ s with flash := wrecked s.flash io.wreck [currentFlashAddr s/sectorSize] },
        some "error_flash_erase")
    else
      let s := initWriter P s
      match otaRehashFlash io s with
      | none => (s,some "error_flash_read")
      | some ctx => ({ s with shaCtx := ctx },none)

def writeBody (P : Platform) (io : FlashIo) (s : State P) (data : List UInt8) : State P :=
  let s := if s.hasSha256 then { s with shaCtx := s.shaCtx ++ data } else s
  let sectors := P.writer.sectors s.status data
  let s := s.post (.writeSectors sectors)
  if !io.writeOk then
    otaFailUpdate { s with flash := wrecked s.flash io.wreck sectors } "error_flash_write" true
  else
    { s with
      flash := P.writer.program s.status data s.flash
      status := P.writer.advance s.status data
      receivedBytes := s.receivedBytes+data.length
      responseReceivedBytes := s.responseReceivedBytes+data.length }

def receiveBody (P : Platform) (io : FlashIo) (s : State P) (data : List UInt8) : State P :=
  if data = [] then s
  else if !s.responseLengthKnown ∨ s.responseLength < s.responseReceivedBytes ∨
      s.responseLength-s.responseReceivedBytes < data.length then
    otaFailUpdate s "error_response_too_large" true
  else if !s.firmwareSizeKnown ∨ s.firmwareSize < s.receivedBytes ∨
      s.firmwareSize-s.receivedBytes < data.length ∨
      maxFirmwareSize < s.receivedBytes+data.length then
    otaFailUpdate s "error_file_too_large" true
  else if s.isValidBinary then writeBody P io s data
  else
    match startWriter P io s (data.headD 0) with
    | (s,some error) => otaFailUpdate s error true
    | (s,none) => writeBody P io s data

def otaTcpRecvCb (P : Platform) (io : FlashIo) (s : State P) (data : List UInt8) : State P :=
  if !s.inProgress || s.retryPending then s
  else
    let s := { s with timeoutTimer := true }
    match receiveHeader s data with
    | (s,none) => s
    | (s,some body) => receiveBody P io s body

def otaTcpReconCb (s : State P) : State P :=
  if !s.inProgress || s.retryPending then s
  else
    let s := { s with timeoutTimer := false, tcpFailureSeen := true }
    if otaIncompleteHttpResponse s then otaTriggerReconnect s .incompleteHttpResponse
    else otaTriggerReconnect s .tcp

/-- What the boot loader answers at the end of the download. -/
structure StageIo where
  endOk : Bool
  wreck : Flash
  setTempOk : Bool

def shaMatched (P : Platform) (s : State P) : Bool :=
  if s.targetRom = 0 ∧ s.expectedSha256₁.isSome then some (P.sha256 s.shaCtx) = s.expectedSha256₁
  else if s.targetRom = 1 ∧ s.expectedSha256₂.isSome then
    some (P.sha256 s.shaCtx) = s.expectedSha256₂
  else false

def complete (s : State P) : Bool :=
  s.isValidBinary && s.responseLengthKnown && s.responseReceivedBytes = s.responseLength &&
    s.firmwareSizeKnown && s.receivedBytes = s.firmwareSize

def announceSuccess (s : State P) : State P :=
  let s :=
    if s.lastReportedProgress < 100 then
      { s with lastReportedProgress := 100 }.report "flashing_100%"
    else s
  let s := s.post (.status (ascii "success&target_rom=" ++ decimal (s.targetRom+1)))
  s.report "restarting_in_3s"

def checkImage (P : Platform) (s : State P) : Option String :=
  if s.receivedBytes < minFirmwareSize then some "error_too_small"
  else if s.receivedBytes ≠ s.firmwareSize then some "error_truncated"
  else if s.hasSha256 && !shaMatched P s then some "error_checksum_mismatch"
  else none

def commitImage (io : StageIo) (s : State P) : State P :=
  let s := s.post (.setTempRom s.targetRom)
  if !io.setTempOk then otaFailUpdate s "error_boot_stage" false
  else { announceSuccess s with inProgress := false }.post .restartDefered

def finishWriter (P : Platform) (s : State P) : State P :=
  { (otaCleanupTimers s).post (.writeSectors (P.writer.finishSectors s.status)) with
    flash := P.writer.finish s.status s.flash }

/-- Finish the image, check it, and stage it for the next boot. -/
def stageImage (P : Platform) (io : StageIo) (s : State P) : State P :=
  if !io.endOk then
    let sectors := P.writer.finishSectors s.status
    otaFailUpdate { (otaCleanupTimers s).post (.writeSectors sectors) with
      flash := wrecked s.flash io.wreck sectors } "error_flash_write" false
  else
    let s := finishWriter P s
    match checkImage P s with
    | some error => otaFailUpdate s error false
    | none => commitImage io s

def partComplete (s : State P) : Bool :=
  s.responseReceivedBytes = s.responseLength && s.responseStatusCode = 206 &&
    s.responseRangeValid && s.responseRangeEnd+1 < s.responseRangeTotal &&
    s.receivedBytes = s.responseRangeEnd+1 && s.receivedBytes < s.firmwareSize

/-- What a closed connection leads to: the image is complete, or another attempt or the next range
is asked for. -/
def endResponse (P : Platform) (io : StageIo) (s : State P) : State P :=
  if complete s then stageImage P io s
  else if otaIncompleteHttpResponse s then otaTriggerReconnect s .incompleteHttpResponse
  else if !s.headersParsed || !s.responseLengthKnown then
    otaTriggerReconnect { s with tcpFailureSeen := true } .tcp
  else if partComplete s then otaScheduleRangeContinue s
  else otaTriggerReconnect s .other

def otaTcpDisconCb (P : Platform) (io : StageIo) (s : State P) : State P :=
  if !s.inProgress || s.retryPending then s else endResponse P io { s with timeoutTimer := false }

/-- The host and the port of an authority, the port behind a colon. -/
def parseAuthority (authority : List UInt8) : Option (List UInt8 × ℕ × List UInt8) :=
  let host := authority.takeWhile (· ≠ 58)
  match authority.dropWhile (· ≠ 58) with
  | [] =>
    if host.length = 0 ∨ 64 ≤ host.length then none else some (host,otaDefaultPort,host)
  | _::port =>
    if 58 ∈ port ∨ host.length = 0 ∨ 64 ≤ host.length ∨ port.length = 0 ∨ 5 < port.length ∨
        ¬port.all isDigit ∨ readDigits 0 port = 0 ∨ 65535 < readDigits 0 port then none
    else
      some (host,readDigits 0 port,host ++ 58::decimal (readDigits 0 port))

/-- The path and the query, without the fragment. -/
def parsePath (p : List UInt8) : Option (List UInt8) :=
  match (p.takeWhile (· ≠ 35)).dropWhile (fun c => c ≠ 47 ∧ c ≠ 63) with
  | [] => some (ascii "/")
  | c::rest =>
    if 128 ≤ (c::rest).length+(if c = 63 then 1 else 0) then none
    else some (if c = 63 then 47::c::rest else c::rest)

def parseUrl (url : List UInt8) : Option Url :=
  let http := (ascii "http://").isPrefixOf url
  if 256 ≤ url.length then none
  else if !http && ((ascii "https://").isPrefixOf url || (strstr url (ascii "://")).isSome) then none
  else
    let p := if http then url.drop 7 else url
    match parseAuthority (p.takeWhile fun c => c ≠ 47 ∧ c ≠ 63 ∧ c ≠ 35) with
    | none => none
    | some (host,port,hostHeader) => (parsePath p).map fun path => ⟨host,port,hostHeader,path⟩

/-- The arguments of `start_ota_update`, and what the boot loader and the network answer. -/
structure StartArgs where
  url : Option (List UInt8)
  hexSha256₁ : Option (List UInt8)
  hexSha256₂ : Option (List UInt8)
  lastBootRom : Option ℕ
  currentRom : ℕ
  dns : DnsResult

/-- The variables as `start_ota_update` sets them first. -/
def resetForStart (s : State P) : State P :=
  let s := { s.post .stopScan with
    retryCount := 0
    retryPending := false
    continuePending := false
    dnsPending := false
    incompleteHttpResponseSeen := false
    dnsFailureSeen := false
    tcpFailureSeen := false
    otherFailureSeen := false
    lastReportedProgress := 0
    firmwareSize := 0
    firmwareSizeKnown := false
    responseLength := 0
    responseReceivedBytes := 0
    responseLengthKnown := false
    responseStatusCode := 0
    responseRangeEnd := 0
    responseRangeTotal := 0
    responseRangeValid := false
    requestOffset := 0
    receivedBytes := 0
    headersParsed := false
    isValidBinary := false
    headerBuffer := [] }
  { otaCleanupTimers s with inProgress := true, progressTimer := true }

/-- The digests given with the command; false if one is malformed. -/
def setDigests (s : State P) (hex₁ hex₂ : Option (List UInt8)) : State P × Bool :=
  match otaParseSha256 hex₁ with
  | none => ({ s with expectedSha256₁ := none },false)
  | some digest₁ =>
    let s := { s with expectedSha256₁ := digest₁ }
    match otaParseSha256 hex₂ with
    | none => ({ s with expectedSha256₂ := none },false)
    | some digest₂ => ({ s with expectedSha256₂ := digest₂ },true)

/-- The slot that was not booted last is written. -/
def selectTarget (s : State P) (a : StartArgs) : State P :=
  let s := if s.hasSha256 then { s with shaCtx := [] } else s
  let currentRom := a.lastBootRom.getD a.currentRom
  { s with targetRom := if currentRom = 0 then 1 else 0 }

def resolveHost (s : State P) (url : Url) : State P :=
  { s with
    url := url
    phase := .idle
    timeoutTimer := true
    dnsPending := true }

def startOtaUpdate (s : State P) (a : StartArgs) : State P × Bool :=
  match setDigests (resetForStart s) a.hexSha256₁ a.hexSha256₂ with
  | (s,false) => (otaFailUpdate s "error_invalid_sha256" false,false)
  | (s,true) =>
    let s := selectTarget s a
    match a.url.bind parseUrl with
    | none => (otaFailUpdate s "error_invalid_url" false,false)
    | some url => (dnsGethostbyname (resolveHost s url) a.dns,true)

inductive Event
  | dnsFound (found connectOk : Bool)
  | connected (sendOk : Bool)
  | received (data : List UInt8) (io : FlashIo)
  | disconnected (io : StageIo)
  | connectionError
  | timeout
  | retry (dns : DnsResult)
  | progress

/-- Callbacks come from the connection of the current attempt, timers fire when they are armed,
and `espconn_connect` fails while there is a connection. -/
def Enabled (s : State P) : Event → Prop
  | .dnsFound _ connectOk => connectOk = true → s.phase = .idle
  | .connected _ => s.phase = .connecting
  | .received _ _ => s.phase = .established
  | .disconnected _ => s.phase = .established
  | .connectionError => s.phase ≠ .idle
  | .timeout => s.timeoutTimer = true
  | .retry _ => s.retryTimer = true
  | .progress => s.progressTimer = true

instance (s : State P) (e : Event) : Decidable (Enabled s e) :=
  match e with
  | .dnsFound _ connectOk => inferInstanceAs (Decidable (connectOk = true → s.phase = .idle))
  | .connected _ => inferInstanceAs (Decidable (_ = _))
  | .received _ _ => inferInstanceAs (Decidable (_ = _))
  | .disconnected _ => inferInstanceAs (Decidable (_ = _))
  | .connectionError => inferInstanceAs (Decidable (_ ≠ _))
  | .timeout => inferInstanceAs (Decidable (_ = _))
  | .retry _ => inferInstanceAs (Decidable (_ = _))
  | .progress => inferInstanceAs (Decidable (_ = _))

def next (P : Platform) (s : State P) : Event → State P
  | .dnsFound found connectOk => otaDnsFoundCb s found connectOk
  | .connected sendOk => otaTcpConnectCb { s with phase := .established } sendOk
  | .received data io => otaTcpRecvCb P io s data
  | .disconnected io => otaTcpDisconCb P io { s with phase := .idle }
  | .connectionError => otaTcpReconCb { s with phase := .idle }
  | .timeout => otaTimeoutTimerCb { s with timeoutTimer := false }
  | .retry dns => otaRetryTimerCb { s with retryTimer := false } dns
  | .progress => otaProgressTimerCb s

end Ota
end MeterLogger
