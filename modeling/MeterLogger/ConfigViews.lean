import MeterLogger.Config
import MeterLogger.ConfigStrings
import MeterLogger.Credentials
import MeterLogger.HexDigits

/-!
# The configuration by name and by byte

The settings by name, over which it is said what gets lost, and the bytes of `sys_cfg` are two
models of the same functions. Over a flash that keeps what it is given the first is a view of the
second.
-/

namespace MeterLogger
namespace SysCfg

open CStrings CharArray QueryString Runs

def CronJobT.view (job : CronJobT) : Config.CronJob where
  minute := str job.minute
  hour := str job.hour
  dayOfMonth := str job.dayOfMonth
  month := str job.month
  dayOfWeek := str job.dayOfWeek
  command := str job.command
  commandParams := str job.commandParams

def Settings.view (c : Settings) : Config.SysCfg where
  deviceId := str c.deviceId
  staSsid := str c.staSsid
  staPwd := str c.staPwd
  apMeshPwd := str c.apMeshPwd
  apEnabled := c.apEnabled ≠ 0
  mqttHost := str c.mqttHost
  key := c.key.toList
  acThermoState := c.acThermoState ≠ 0
  offlineCloseAt := c.offlineCloseAt.toNat
  cronJobs := ⟨c.cronJobsN.toNat,c.cronJobList.toList.map CronJobT.view⟩

/-- What a flash that keeps what it is given gives back. -/
def lastWritten (initial : SyscfgT) (written : List SyscfgT) : SyscfgT :=
  written.getLast?.getD initial

def inFlash (flash : SyscfgT) : Option Config.SysCfg :=
  if flash.Valid then some flash.toSettings.view else none

structure Views (initial : SyscfgT) (s : State) (a : Config.State) : Prop where
  sysCfg : a.sysCfg = s.sysCfg.toSettings.view
  flash : a.flash = inFlash (lastWritten initial s.written)
  ota : a.otaInProgress = s.otaInProgress

section Saving

variable {chip : Chip} {initial flash : SyscfgT} {sums : Sums} {s : State} {a : Config.State}
  {f : Settings → Settings} {new : Config.SysCfg}

theorem inFlash_sealed (c : Settings) : inFlash c.sealed = some c.view := if_pos rfl

theorem Views.change (h : Views initial s a) (hnew : new = (f s.sysCfg.toSettings).view) :
    Views initial (s.change f) { a with sysCfg := new } := ⟨hnew,h.flash,h.ota⟩

theorem Views.store (h : Views initial s a) :
    Views initial (store s).1 (Config.store a).1 ∧ (Config.store a).2 = (SysCfg.store s).2 := by
  by_cases hota : s.otaInProgress = true
  · rw [SysCfg.store,if_pos hota,Config.store,if_pos (h.ota.trans hota)]
    exact ⟨h,rfl⟩
  · have hfree := Bool.eq_false_iff.mpr hota
    rw [store_free hfree,Config.store_free (h.ota.trans hfree)]
    refine ⟨⟨h.sysCfg,?_,h.ota.trans hfree⟩,rfl⟩
    rw [lastWritten,List.getLast?_concat,Option.getD_some,inFlash_sealed,h.sysCfg]

theorem Views.cfgLoad (h : Views initial s a) (hflash : flash = lastWritten initial s.written) :
    Views initial (cfgLoad chip flash s) (Config.cfgLoad (defaults chip).view a) := by
  have hin : a.flash = inFlash flash := by rw [h.flash,hflash]
  rw [SysCfg.cfgLoad]
  by_cases hvalid : flash.Valid
  · rw [if_pos hvalid,Config.cfgLoad_some (hin.trans (if_pos hvalid))]
    exact ⟨rfl,h.flash,h.ota⟩
  · rw [if_neg hvalid,Config.cfgLoad_none (hin.trans (if_neg hvalid))]
    have hdefaults : Views initial { s with sysCfg := ⟨defaults chip,0⟩ }
        { a with sysCfg := (defaults chip).view } := ⟨rfl,h.flash,h.ota⟩
    exact hdefaults.store.1

theorem Views.cfgSave (h : Views initial s a)
    (hflash : flash = lastWritten initial (SysCfg.store s).1.written) :
    Views initial (cfgSave chip flash sums s).1 (Config.cfgSave (defaults chip).view true a).1 ∧
      (Config.cfgSave (defaults chip).view true a).2 = (SysCfg.cfgSave chip flash sums s).2.2 := by
  obtain ⟨hstored,_⟩ := h.store
  by_cases hota : s.otaInProgress = true
  · rw [cfgSave_refused chip flash sums hota,Config.cfgSave,Config.store,
      if_pos (h.ota.trans hota)]
    exact ⟨h,rfl⟩
  · have hfree := Bool.eq_false_iff.mpr hota
    rw [store_free hfree] at hflash hstored
    rw [Config.store_free (h.ota.trans hfree)] at hstored
    rw [lastWritten,List.getLast?_concat,Option.getD_some] at hflash
    have hvalid : flash.Valid := hflash ▸ rfl
    have hram : (SysCfg.cfgSave chip flash sums s).1 =
        ⟨s.sysCfg.sealed,false,s.written ++ [s.sysCfg.sealed]⟩ := by
      rw [SysCfg.cfgSave,store_free hfree,SysCfg.cfgLoad,if_pos hvalid,hflash]
      rfl
    have hanswer := (cfgSave_free chip flash sums hfree).2
    rw [accepted,if_pos hvalid] at hanswer
    rw [Config.cfgSave_free (h.ota.trans hfree),hram,hanswer,hflash]
    exact ⟨hstored,(decide_eq_true rfl).symm⟩

theorem Views.changeSaved (h : Views initial s a) (hnew : new = (f s.sysCfg.toSettings).view)
    (hflash : flash = lastWritten initial (SysCfg.store (s.change f)).1.written) :
    Views initial (SysCfg.cfgSave chip flash sums (s.change f)).1
      (Config.changeSaved (defaults chip).view true a new) :=
  ((h.change hnew).cfgSave hflash).1

theorem Views.changeStored (h : Views initial s a) (hnew : new = (f s.sysCfg.toSettings).view) :
    Views initial (SysCfg.store (s.change f)).1
      (Config.changeSaved (defaults chip).view false a new) := by
  have hstored := (h.change hnew).store.1
  rw [Config.changeSaved,Config.cfgSave,Bool.and_false]
  exact hstored

theorem Views.changeDefered (h : Views initial s a) (hnew : new = (f s.sysCfg.toSettings).view) :
    Views initial (s.change f) (Config.changeDefered a new) := by
  rw [Config.changeDefered,Config.cfgSaveDefered]
  split
  · exact h.change hnew
  · exact ⟨hnew,h.flash,h.ota⟩

end Saving

/-- A token of the query of `set_ssid_pwd`. -/
def keyValue? (token : List UInt8) : Option Config.KeyValue :=
  match segments 0x3d (token.take (mqttMessageL-1)) with
  | [] => none
  | key::rest =>
    if key = ascii "ssid" then rest.head?.map fun value => .ssid (queryStringUnescape value)
    else if key = ascii "pwd" then
      match rest with
      | [] => some .noPwd
      | value::_ => some (.pwd (queryStringUnescape value))
    else none

def keyValues (ssidPwd : List UInt8) : List Config.KeyValue :=
  (segments 0x26 (ssidPwd.take (commandParamsL-1))).filterMap keyValue?

def Call.event (c : Settings) : Call → Option Config.Event
  | .setSsid ssid => some (.setSsid ssid)
  | .setPwd password => some (.setPwd password)
  | .setSsidPwd ssidPwd => some (.setSsidPwd (keyValues ssidPwd))
  | .setApMeshPwd password => some (.setApMeshPwd password)
  | .setMqttHost params => some (.setMqttHost params)
  | .setCron query => some (.addCronJob (addCronJobFromQuery c query).view.cronJobs)
  | .clearCron => some (.clearCron (clearCronJobs c).view.cronJobs.cronJobList)
  | .setup post stack =>
    let form := Form.read post stack
    some (.setup (str form.essid) (str form.passwd) (str form.mqtthost))
  | .sampleMode meterSerial => some (.sampleMode meterSerial)
  | .load => some .load
  | .ota inProgress => some (if inProgress then .otaStart else .otaFail)
  | .numbers _ _ _ _ | .save | .reboot => none

/-- What is sent is a string, and the form brings a name that ends in its array. -/
def Plain : Call → Prop
  | .setSsid text | .setPwd text | .setSsidPwd text | .setApMeshPwd text | .setMqttHost text
  | .sampleMode text => 0 ∉ text
  | .setup post stack => (str (Form.read post stack).essid).length < 32
  | _ => True

/-- The flash gives what was written last. -/
structure Keeps (initial : SyscfgT) (chip : Chip) (s : State) (e : Event) : Prop where
  flash : e.flash = lastWritten initial (flashed s e.call)
  readBack : ∀ meterSerial, e.call = .sampleMode meterSerial → e.readBack =
    lastWritten initial (store (nameDevice (cfgLoad chip e.flash s) meterSerial)).1.written

section Functions

variable {chip : Chip} {initial : SyscfgT} {s : State} {a : Config.State} {c : Settings}
  {value token : List UInt8}

theorem str_copy (n size : ℕ) (hsize : size ≤ n) (h : 0 ∉ value) :
    str (strncpy (zeros n) value size) = Config.field size value := by
  rw [str_strncpy_zeros hsize,cstr_self h]
  rfl

theorem sameStart_iff (xs ys : List UInt8) (size : ℕ) :
    sameStart xs ys size = true ↔ Config.field size xs = Config.field size ys :=
  decide_eq_true_iff

theorem view_changeSsid (h : 0 ∉ value) :
    (changeSsid c value).view = Config.withKeyValue c.view (.ssid value) := by
  have hcopy := str_copy 64 31 (by decide) h
  rw [changeSsid,Config.withKeyValue]
  by_cases hsame : sameStart c.view.staSsid value 31 = true
  · rw [if_pos ((sameStart_iff _ _ _).mp hsame)]
    exact congrArg Settings.view (if_pos hsame)
  · rw [if_neg fun hno => hsame ((sameStart_iff _ _ _).mpr hno),← hcopy]
    exact congrArg Settings.view (if_neg hsame)

theorem view_changePwd (h : 0 ∉ value) :
    (changePwd c value).view = Config.withKeyValue c.view (.pwd value) := by
  have hcopy := str_copy 64 63 (by decide) h
  rw [changePwd,Config.withKeyValue]
  by_cases hsame : sameStart c.view.staPwd value 63 = true
  · rw [if_pos ((sameStart_iff _ _ _).mp hsame)]
    exact congrArg Settings.view (if_pos hsame)
  · rw [if_neg fun hno => hsame ((sameStart_iff _ _ _).mpr hno),← hcopy]
    exact congrArg Settings.view (if_neg hsame)

theorem view_changeApMeshPwd (h : 0 ∉ value) (hdiffers : sameStart (str c.apMeshPwd) value 63 ≠ true) :
    (changeApMeshPwd c value).view = { c.view with apMeshPwd := Config.field 63 value } := by
  rw [← str_copy 64 63 (by decide) h]
  exact congrArg Settings.view (if_neg hdiffers)

theorem view_clearPwd : (clearPwd c).view = Config.withKeyValue c.view .noPwd := by
  have hpwd := Credentials.clearPwd_str (c := c)
  rw [Config.withKeyValue,← hpwd,clearPwd]
  split <;> rfl

theorem view_changeKeyValue (h : 0 ∉ token) :
    (changeKeyValue c token).view =
      ((keyValue? token).map (Config.withKeyValue c.view)).getD c.view := by
  have hparts : ∀ part ∈ segments 0x3d (token.take (mqttMessageL-1)), 0 ∉ part :=
    fun part hpart hnul => h (List.mem_of_mem_take ((segments_inside hpart).subset hnul))
  rw [changeKeyValue,keyValue?]
  generalize segments 0x3d (token.take (mqttMessageL-1)) = parts at hparts ⊢
  cases parts with
  | nil => rfl
  | cons key rest =>
    dsimp only
    by_cases hssid : key = ascii "ssid"
    · rw [if_pos hssid,if_pos hssid]
      cases rest with
      | nil => rfl
      | cons value rest => exact view_changeSsid (unescape_nul (hparts value (by simp)))
    · rw [if_neg hssid,if_neg hssid]
      by_cases hpwd : key = ascii "pwd"
      · rw [if_pos hpwd,if_pos hpwd]
        cases rest with
        | nil => exact view_clearPwd
        | cons value rest => exact view_changePwd (unescape_nul (hparts value (by simp)))
      · rw [if_neg hpwd,if_neg hpwd]
        rfl

theorem view_changeSsidPwd {ssidPwd : List UInt8} (h : 0 ∉ ssidPwd) :
    (changeSsidPwd c ssidPwd).view = Config.withSsidPwd c.view (keyValues ssidPwd) := by
  have htokens : ∀ token ∈ segments 0x26 (ssidPwd.take (commandParamsL-1)), 0 ∉ token :=
    fun token htoken hnul => h (List.mem_of_mem_take ((segments_inside htoken).subset hnul))
  rw [changeSsidPwd,keyValues,Config.withSsidPwd]
  generalize segments 0x26 (ssidPwd.take (commandParamsL-1)) = tokens at htokens ⊢
  induction tokens generalizing c with
  | nil => rfl
  | cons token tokens ih =>
    have hview := view_changeKeyValue (c := c) (htokens token List.mem_cons_self)
    have hrest := ih (c := changeKeyValue c token) fun t ht => htokens t (List.mem_cons_of_mem _ ht)
    rw [List.foldl_cons,hrest,hview,List.filterMap_cons]
    cases keyValue? token <;> rfl

theorem view_addKeyValue (params : List UInt8) : (addKeyValue params c token).view =
    { c.view with cronJobs := (addKeyValue params c token).view.cronJobs } := by
  rw [addKeyValue]
  split
  · dsimp only
    split_ifs <;> rfl
  · rfl

theorem view_addCronJobFromQuery (query : List UInt8) : (addCronJobFromQuery c query).view =
    { c.view with cronJobs := (addCronJobFromQuery c query).view.cronJobs } := by
  have hloop : ∀ (params : List UInt8) (tokens : List (List UInt8)) (c : Settings),
      (tokens.foldl (addKeyValue params) c).view =
        { c.view with cronJobs := (tokens.foldl (addKeyValue params) c).view.cronJobs } := by
    intro params tokens
    induction tokens with
    | nil => exact fun _ => rfl
    | cons token tokens ih =>
      intro c
      rw [List.foldl_cons,ih,view_addKeyValue]
  rw [addCronJobFromQuery]
  split
  · rw [hloop]
    rfl
  · rfl

theorem view_cgiSetup {form : Form} (h : (str form.essid).length < 32) :
    (cgiSetup c form).view = { c.view with
      staSsid := Config.field 32 (str form.essid)
      staPwd := Config.field 64 (str form.passwd)
      mqttHost := Config.field 64 (str form.mqtthost) } := by
  have hssid : str (strncpy c.staSsid form.essid.toList 32) = Config.field 32 (str form.essid) := by
    have hends : (cstr form.essid.toList).length < 32 := h
    rw [str_strncpy (by decide),if_pos hends,List.append_nil]
    rfl
  have hpwd : str (strncpy c.staPwd form.passwd.toList 64) = Config.field 64 (str form.passwd) :=
    str_strncpy_full
  have hhost : str (strncpy c.mqttHost form.mqtthost.toList 64) =
      Config.field 64 (str form.mqtthost) := str_strncpy_full
  rw [← hssid,← hpwd,← hhost]
  rfl

theorem Views.change_same {f : Settings → Settings} (h : Views initial s a)
    (hsame : (f s.sysCfg.toSettings).view = s.sysCfg.toSettings.view) :
    Views initial (s.change f) a := by
  have hnew : a.sysCfg = (f s.sysCfg.toSettings).view := h.sysCfg.trans hsame.symm
  exact h.change hnew

theorem Views.changeDiffering {f : Settings → Settings} {flash : SyscfgT} {sums : Sums}
    {p : Prop} [Decidable p] {same : Bool} {new : Config.SysCfg} (h : Views initial s a)
    (hsame : same = true ↔ p) (hnew : same ≠ true → new = (f s.sysCfg.toSettings).view)
    (hflash : flash = lastWritten initial (SysCfg.store (s.change f)).1.written) :
    Views initial (if same then s else (SysCfg.cfgSave chip flash sums (s.change f)).1)
      (if p then a else Config.changeSaved (defaults chip).view true a new) := by
  by_cases hp : p
  · rw [if_pos hp,if_pos (hsame.mpr hp)]
    exact h
  · have hno : same ≠ true := fun hyes => hp (hsame.mp hyes)
    rw [if_neg hp,if_neg hno]
    exact h.changeSaved (hnew hno) hflash

theorem next_views {e : Event} {event : Config.Event} (h : Views initial s a)
    (hkeeps : Keeps initial chip s e) (hplain : Plain e.call)
    (hevent : e.call.event s.sysCfg.toSettings = some event) :
    Views initial (next chip s e) (Config.next (defaults chip).view a event) := by
  obtain ⟨call,flash,readBack,sums⟩ := e
  obtain ⟨hflash,hreadBack⟩ := hkeeps
  dsimp only at hflash hreadBack hplain hevent
  cases call with
  | setSsid ssid =>
    cases hevent
    have hcompare := sameStart_iff (str s.sysCfg.staSsid) ssid 31
    refine h.changeDiffering (f := fun c => changeSsid c ssid) ?_ ?_ hflash
    · rw [h.sysCfg]
      exact hcompare
    · intro hdiffers
      rw [h.sysCfg,view_changeSsid hplain]
      exact (if_neg fun hno => hdiffers (hcompare.mpr hno)).symm
  | setPwd password =>
    cases hevent
    have hcompare := sameStart_iff (str s.sysCfg.staPwd) password 63
    refine h.changeDiffering (f := fun c => changePwd c password) ?_ ?_ hflash
    · rw [h.sysCfg]
      exact hcompare
    · intro hdiffers
      rw [h.sysCfg,view_changePwd hplain]
      exact (if_neg fun hno => hdiffers (hcompare.mpr hno)).symm
  | setSsidPwd ssidPwd =>
    cases hevent
    refine h.changeSaved ?_ hflash
    rw [view_changeSsidPwd hplain,h.sysCfg]
  | setApMeshPwd password =>
    cases hevent
    refine h.changeDiffering (f := fun c => changeApMeshPwd c password) ?_ ?_ hflash
    · rw [h.sysCfg]
      exact sameStart_iff _ _ _
    · intro hdiffers
      rw [h.sysCfg,view_changeApMeshPwd hplain hdiffers]
  | setMqttHost params =>
    cases hevent
    show Views initial (mqttRpcSetMqttHost s params) (Config.mqttRpcSetMqttHost _ a params)
    rw [mqttRpcSetMqttHost,Config.mqttRpcSetMqttHost]
    split
    · rename_i hlen
      refine h.changeStored ?_
      have hcopy : str (strncpy (zeros 64) params params.length) = params :=
        (str_copy _ _ hlen.2.le hplain).trans List.take_length
      rw [h.sysCfg]
      exact congrArg (fun host => { s.sysCfg.toSettings.view with mqttHost := host }) hcopy.symm
    · exact h
  | setCron query =>
    cases hevent
    have hview := view_addCronJobFromQuery (c := s.sysCfg.toSettings) query
    rw [Config.next,Config.addCronJobFromQuery,h.sysCfg]
    split
    · exact h.changeDefered hview.symm
    · rename_i hfull
      refine h.change_same (congrArg Settings.view ?_)
      exact if_neg hfull
  | clearCron =>
    cases hevent
    refine h.changeDefered ?_
    rw [h.sysCfg]
    rfl
  | setup post stack =>
    cases hevent
    refine h.changeStored ?_
    rw [view_cgiSetup hplain,h.sysCfg]
  | numbers => cases hevent
  | sampleMode meterSerial =>
    cases hevent
    have hload : Views initial (cfgLoad chip flash s) (Config.cfgLoad (defaults chip).view a) :=
      h.cfgLoad hflash
    have hprint : str (snprintf (zeros 16) 16 meterSerial) = Config.field 15 meterSerial :=
      str_snprintf_take (by decide) hplain
    refine hload.changeDiffering ?_ ?_ (hreadBack meterSerial rfl)
    · rw [hload.sysCfg]
      exact sameStart_iff _ _ _
    · intro _
      rw [hload.sysCfg,← hprint]
      rfl
  | save => cases hevent
  | load =>
    cases hevent
    exact h.cfgLoad hflash
  | ota inProgress =>
    cases hevent
    cases inProgress <;> exact ⟨h.sysCfg,h.flash,rfl⟩
  | reboot => cases hevent

theorem toList_ofFn (b : Buffers.Buf) (n : ℕ) :
    (Vector.ofFn fun i : Fin n => b i).toList = Buffers.load b 0 n := by
  refine List.ext_getElem (by simp) fun i h₁ h₂ => ?_
  rw [Vector.getElem_toList,Vector.getElem_ofFn,Buffers.load_getElem,Nat.zero_add]

/-- The first 16 bytes of a buffer become the key. -/
def withKey (b : Buffers.Buf) (c : Settings) : Settings := { c with key := Vector.ofFn fun i => b i }

theorem Views.setKey {params : List UInt8} (h : Views initial s a) (hplain : 0 ∉ params) :
    Views initial (HexDigits.cfgSaveKey s (some (Config.field 63 params))).1
      (Config.mqttRpcSetKey (defaults chip).view a params) := by
  have hfree : 0 ∉ Config.field 63 params := fun hno => hplain (List.mem_of_mem_take hno)
  rw [Config.mqttRpcSetKey,Config.parseKey,HexDigits.cfgSaveKey]
  generalize Config.field 63 params = hex at hfree ⊢
  dsimp only
  rw [cstr_self hfree]
  by_cases hlen : hex.length = 32
  · obtain ⟨hsome,hnone⟩ := HexDigits.hexToBytes_list (n := 16) hlen
    rw [if_pos hlen,if_pos hlen]
    by_cases hdigits : HexDigits.Digits hex 16
    · have hkey := Buffers.load_store (HexDigits.keyBuf s.sysCfg) 0 (HexDigits.valueOf hex 16)
      rw [show (HexDigits.valueOf hex 16).length = 16 by simp [HexDigits.valueOf],
        ← toList_ofFn] at hkey
      rw [hsome hdigits,HexDigits.hexToBytes_digits hdigits]
      refine Views.changeStored (f := withKey (Buffers.store (HexDigits.keyBuf s.sysCfg) 0
        (HexDigits.valueOf hex 16))) h ?_
      rw [h.sysCfg]
      exact congrArg (fun key => { s.sysCfg.toSettings.view with key := key }) hkey.symm
    · rw [hnone hdigits,HexDigits.hexToBytes_other hdigits]
      refine Views.change_same (f := withKey (HexDigits.keyBuf s.sysCfg)) h ?_
      rw [withKey,HexDigits.ofFn_keyBuf]
  · rw [if_neg hlen,if_neg hlen]
    exact h

end Functions

section Run

variable {chip : Chip} {initial : SyscfgT}

theorem boot_views : Views initial (cfgLoad chip initial unloaded)
    (Config.boot (defaults chip).view (inFlash initial)) := by
  have hin : lastWritten initial [] = initial := rfl
  rw [Config.boot,cfgLoad]
  by_cases hvalid : initial.Valid
  · rw [if_pos hvalid,Config.cfgLoad_some (if_pos hvalid)]
    exact ⟨rfl,rfl,rfl⟩
  · rw [if_neg hvalid,Config.cfgLoad_none (if_neg hvalid)]
    have hdefaults : Views initial { unloaded with sysCfg := ⟨defaults chip,0⟩ }
        ⟨(defaults chip).view,inFlash initial,false,false,false,false⟩ := ⟨rfl,rfl,rfl⟩
    exact hdefaults.store.1

/-- A call in memory and by name. -/
def Both (chip : Chip) (initial : SyscfgT) (p : State × Config.State) (e : Event)
    (q : State × Config.State) : Prop :=
  Keeps initial chip p.1 e ∧ Plain e.call ∧ ∃ event,
    e.call.event p.1.sysCfg.toSettings = some event ∧
      q = (next chip p.1 e,Config.next (defaults chip).view p.2 event)

theorem run_views {es : List Event} {q : State × Config.State}
    (h : Run (Both chip initial) (cfgLoad chip initial unloaded,
      Config.boot (defaults chip).view (inFlash initial)) es q) :
    Views initial q.1 q.2 := by
  refine h.invariant (I := fun p => Views initial p.1 p.2) ?_ boot_views
  rintro p e _ hp ⟨hkeeps,hplain,event,hevent,rfl⟩
  exact next_views hp hkeeps hplain hevent

end Run

end SysCfg
end MeterLogger
