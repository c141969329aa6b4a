import MeterLogger.QueryString
import MeterLogger.SysCfg

/-!
# Commands that change the configuration

What the commands, the form of the web server and the cron table write into the arrays of
`sys_cfg`. Calling `strtok_r` until nothing is left gives the `segments` of a string.
-/

namespace MeterLogger
namespace SysCfg

open CStrings CharArray QueryString

def commandParamsL : ℕ := 96
def mqttMessageL : ℕ := 512
def keyValueL : ℕ := 64

/-- The name of the network is replaced if its first 31 bytes differ. -/
def changeSsid (c : Settings) (value : List UInt8) : Settings :=
  if sameStart (str c.staSsid) value 31 then c else { c with staSsid := strncpy (zeros 64) value 31 }

/-- The password is replaced if its first 63 bytes differ. -/
def changePwd (c : Settings) (value : List UInt8) : Settings :=
  if sameStart (str c.staPwd) value 63 then c else { c with staPwd := strncpy (zeros 64) value 63 }

def changeApMeshPwd (c : Settings) (value : List UInt8) : Settings :=
  if sameStart (str c.apMeshPwd) value 63 then c
  else { c with apMeshPwd := strncpy (zeros 64) value 63 }

def clearPwd (c : Settings) : Settings :=
  if c.staPwd[0] ≠ 0 then { c with staPwd := zeros 64 } else c

/-- One key and its value in the loop of `cfg_save_ssid_pwd`. -/
def changeKeyValue (c : Settings) (token : List UInt8) : Settings :=
  match segments 0x3d (token.take (mqttMessageL-1)) with
  | [] => c
  | key::rest =>
    if key = ascii "ssid" then
      match rest with
      | [] => c
      | value::_ => changeSsid c (queryStringUnescape value)
    else if key = ascii "pwd" then
      match rest with
      | [] => clearPwd c
      | value::_ => changePwd c (queryStringUnescape value)
    else c

/-- What `cfg_save_ssid_pwd` makes of the settings before it saves them. -/
def changeSsidPwd (c : Settings) (ssidPwd : List UInt8) : Settings :=
  (segments 0x26 (ssidPwd.take (commandParamsL-1))).foldl changeKeyValue c

def State.change (s : State) (f : Settings → Settings) : State :=
  { s with sysCfg := { s.sysCfg with toSettings := f s.sysCfg.toSettings } }

def cfgSaveSsidPwd (chip : Chip) (flash : SyscfgT) (sums : Sums) (s : State)
    (ssidPwd : List UInt8) : State × Sums × Bool :=
  cfgSave chip flash sums (s.change fun c => changeSsidPwd c ssidPwd)

def mqttRpcSetSsid (chip : Chip) (flash : SyscfgT) (sums : Sums) (s : State) (ssid : List UInt8) :
    State :=
  if sameStart (str s.sysCfg.staSsid) ssid 31 then s
  else (cfgSave chip flash sums (s.change fun c => changeSsid c ssid)).1

def mqttRpcSetPwd (chip : Chip) (flash : SyscfgT) (sums : Sums) (s : State)
    (password : List UInt8) : State :=
  if sameStart (str s.sysCfg.staPwd) password 63 then s
  else (cfgSave chip flash sums (s.change fun c => changePwd c password)).1

def mqttRpcSetSsidPwd (chip : Chip) (flash : SyscfgT) (sums : Sums) (s : State)
    (ssidPwd : List UInt8) : State :=
  (cfgSaveSsidPwd chip flash sums s ssidPwd).1

def mqttRpcSetApMeshPwd (chip : Chip) (flash : SyscfgT) (sums : Sums) (s : State)
    (password : List UInt8) : State :=
  if sameStart (str s.sysCfg.apMeshPwd) password 63 then s
  else (cfgSave chip flash sums (s.change fun c => changeApMeshPwd c password)).1

def mqttRpcSetMqttHost (s : State) (params : List UInt8) : State :=
  if 0 < params.length ∧ params.length < 64 then
    (store (s.change fun c => { c with mqttHost := strncpy (zeros 64) params params.length })).1
  else s

/-- `strncpy` of a value into a field of a job, and the NUL behind it. -/
def cronField (a : Vector UInt8 8) (value : List UInt8) : Vector UInt8 8 :=
  (strncpy a value 7).set 7 0

@[irreducible] def modifyJob (jobs : Vector CronJobT 16) (i : ℕ) (f : CronJobT → CronJobT) :
    Vector CronJobT 16 :=
  Vector.ofFn fun k => if k.val = i then f jobs[k] else jobs[k]

theorem modifyJob_get {jobs : Vector CronJobT 16} {i k : ℕ} {f : CronJobT → CronJobT}
    (hk : k < 16) : (modifyJob jobs i f)[k] = if k = i then f jobs[k] else jobs[k] := by
  simp [modifyJob]

/-- Write to job `i` of the table. -/
def changeJob (c : Settings) (i : ℕ) (f : CronJobT → CronJobT) : Settings :=
  { c with cronJobList := modifyJob c.cronJobList i f }

/-- The query up to the parameters of its command, and these parameters. -/
def cutCommandParams (query : List UInt8) : List UInt8 × List UInt8 :=
  match strstr query (ascii "command=") with
  | none => (query,[])
  | some found =>
    match strtok (found.drop 8) 0x3d with
    | none => (query,[])
    | some (name,params) =>
      (query.take (query.length-found.length+8) ++
          (found.drop 8).takeWhile (· = 0x3d) ++ name,params.take (commandParamsL-1))

def writeCommand (commandParams value : List UInt8) (job : CronJobT) : CronJobT :=
  { job with
    command := (strncpy job.command value 31).set 31 0
    commandParams := if commandParams = [] then job.commandParams
      else (strncpy job.commandParams commandParams 95).set 95 0 }

/-- One key and its value in the loop of `add_cron_job_from_query`. -/
def addKeyValue (commandParams : List UInt8) (c : Settings) (token : List UInt8) : Settings :=
  match segments 0x3d (token.take (keyValueL-1)) with
  | key::value::_ =>
    let n := c.cronJobsN.toNat
    if key = ascii "minute" then
      changeJob c n fun job => { job with minute := cronField job.minute value }
    else if key = ascii "hour" then
      changeJob c n fun job => { job with hour := cronField job.hour value }
    else if key = ascii "day_of_month" then
      changeJob c n fun job => { job with dayOfMonth := cronField job.dayOfMonth value }
    else if key = ascii "month" then
      changeJob c n fun job => { job with month := cronField job.month value }
    else if key = ascii "day_of_week" then
      changeJob c n fun job => { job with dayOfWeek := cronField job.dayOfWeek value }
    else if key = ascii "command" then
      { changeJob c n (writeCommand commandParams value) with cronJobsN := c.cronJobsN+1 }
    else c
  | _ => c

/-- What `add_cron_job_from_query` makes of the settings. -/
def addCronJobFromQuery (c : Settings) (query : List UInt8) : Settings :=
  if c.cronJobsN.toNat ≤ cronJobsMax-1 then
    let cleared := changeJob c c.cronJobsN.toNat fun _ => emptyJob
    let cut := cutCommandParams (query.take (mqttMessageL-1))
    (segments 0x26 cut.1).foldl (addKeyValue cut.2) cleared
  else c

/-- `clear_cron_jobs` clears as many bytes as one job has: the number of jobs and all of the
first job but the last byte. -/
def clearCronJobs (c : Settings) : Settings :=
  { changeJob c 0 fun job => { emptyJob with
      commandParams := (zeros 96).set 95 job.commandParams[95] } with cronJobsN := 0 }

def httpdHexVal (c : UInt8) : ℕ :=
  if 0x30 ≤ c ∧ c ≤ 0x39 then c.toNat-0x30
  else if 0x41 ≤ c ∧ c ≤ 0x46 then c.toNat-0x41+10
  else if 0x61 ≤ c ∧ c ≤ 0x66 then c.toNat-0x61+10
  else 0

-- the equations of the match on the character codes need the depth
set_option maxRecDepth 2000 in
def urlDecoded : List UInt8 → List UInt8
  | 0x25::a::b::bs => UInt8.ofNat (httpdHexVal a*16+httpdHexVal b)::urlDecoded bs
  | [0x25,_] => []
  | [0x25] => []
  | 0x2b::bs => 0x20::urlDecoded bs
  | b::bs => b::urlDecoded bs
  | [] => []

/-- The decoded bytes go into `ret` as far as it reaches, with a NUL behind them if there is
room for it. -/
def httpdUrlDecode {n : ℕ} (val : List UInt8) (ret : Vector UInt8 n) : Vector UInt8 n :=
  Vector.ofFn fun i =>
    if i.val < (urlDecoded val).length then (urlDecoded val).getD i 0
    else if i.val = (urlDecoded val).length then 0 else ret.get i

/-- The value of `arg`: the search goes on behind the next ampersand. -/
def findArg (arg : List UInt8) : ℕ → List UInt8 → Option (List UInt8)
  | 0, _ => none
  | fuel+1, p =>
    match p with
    | [] => none
    | b::bs =>
      if b = 0x0a ∨ b = 0x0d then none
      else if (arg ++ [0x3d]).isPrefixOf (b::bs) then
        some (((b::bs).drop (arg.length+1)).takeWhile (· ≠ 0x26))
      else (strchr (b::bs) 0x26).bind fun next => findArg arg fuel (next.drop 1)

/-- `httpdFindArg` in what `line` has before a NUL; `buff` stays as it is when the argument is
missing. -/
def httpdFindArg {n : ℕ} (line : Option (List UInt8)) (arg : List UInt8) (buff : Vector UInt8 n) :
    Vector UInt8 n :=
  match line.bind fun line => findArg arg ((cstr line).length+1) (cstr line) with
  | some val => httpdUrlDecode val buff
  | none => buff

/-- The variables of `cgiSetup`, with what was on the stack. -/
structure Form where
  essid : Vector UInt8 128
  passwd : Vector UInt8 128
  mqtthost : Vector UInt8 64
  deriving DecidableEq

def Form.read (post : Option (List UInt8)) (stack : Form) : Form where
  essid := httpdFindArg post (ascii "essid") stack.essid
  passwd := httpdFindArg post (ascii "passwd") stack.passwd
  mqtthost := httpdFindArg post (ascii "mqtthost") stack.mqtthost

def cgiSetup (c : Settings) (form : Form) : Settings :=
  { c with
    staSsid := strncpy c.staSsid form.essid.toList 32
    staPwd := strncpy c.staPwd form.passwd.toList 64
    mqttHost := strncpy c.mqttHost form.mqtthost.toList 64 }

def nameDevice (s : State) (meterSerial : List UInt8) : State :=
  s.change fun c => { c with deviceId := snprintf (zeros 16) 16 meterSerial }

/-- `sample_mode_timer_func` loads the configuration and keeps the serial number of the meter as
the name of the device. -/
def sampleModeTimerFunc (chip : Chip) (flash readBack : SyscfgT) (sums : Sums) (s : State)
    (meterSerial : List UInt8) : State :=
  let s := cfgLoad chip flash s
  if sameStart (str s.sysCfg.deviceId) meterSerial 15 then s
  else (cfgSave chip readBack sums (nameDevice s meterSerial)).1

end SysCfg
end MeterLogger
