import MeterLogger.Cron
import MeterLogger.CronQuery

/-!
# Credentials on their way to the configuration

The name and the password of a network, escaped into one message, given to `set_ssid_pwd` at once
or later by a cron job. Of the message 95 bytes are copied; a name or a password that begins like
the one that is stored replaces it only if the first 31 or 63 bytes differ.
-/

namespace MeterLogger
namespace Credentials

open CStrings CharArray QueryString SysCfg

/-- `ssid=` and `pwd=` with the escaped name and password. -/
def message (ssidCode pwdCode : List UInt8) : List UInt8 :=
  ascii "ssid=" ++ ssidCode ++ ascii "&pwd=" ++ pwdCode

def Kept (ssid pwd : List UInt8) (c : Settings) : Prop := str c.staSsid = ssid ∧ str c.staPwd = pwd

/-- What is stored goes on behind the `n` bytes that are compared, which are the new value. -/
def Shadowed (n : ℕ) (new old : List UInt8) : Prop := new.length = n ∧ new <+: old ∧ old ≠ new

/-- The message is copied as a whole, or only an empty password or one that is stored already is
cut off; and nothing that is stored shadows the new values. -/
def Fits (ssidCode pwdCode ssid pwd : List UInt8) (c : Settings) : Prop :=
  ¬Shadowed 31 ssid (str c.staSsid) ∧ ¬Shadowed 63 pwd (str c.staPwd) ∧
    (ssidCode.length+pwdCode.length ≤ 85 ∨ ssidCode.length = 86 ∧ pwd = [] ∨
      86 < ssidCode.length ∧ ssidCode.length ≤ 90 ∧ str c.staPwd = pwd)

/-- What a field holds after a value is written to it unless it begins in the same way. -/
def replaced (n : ℕ) (old new : List UInt8) : List UInt8 :=
  if old.take n = new.take n then old else new.take n

theorem replaced_eq_iff {n : ℕ} {old new : List UInt8} (h : new.length ≤ n) :
    replaced n old new = new ↔ ¬Shadowed n new old := by
  have htake : new.take n = new := List.take_of_length_le h
  rw [replaced,htake]
  split
  · rename_i hsame
    constructor
    · rintro rfl ⟨_,_,hne⟩
      exact hne rfl
    · intro hfree
      by_contra hne
      refine hfree ⟨?_,hsame ▸ List.take_prefix n old,hne⟩
      by_contra hlen
      have hshort := congrArg List.length hsame
      rw [List.length_take] at hshort
      exact hne ((List.take_of_length_le (by omega)).symm.trans hsame)
  · rename_i hdiff
    refine ⟨fun _ hshadowed => hdiff ?_,fun _ => rfl⟩
    obtain ⟨hlen,hpre,_⟩ := hshadowed
    rw [← hlen]
    exact (List.prefix_iff_eq_take.mp hpre).symm

theorem replaced_ne {n : ℕ} {old new meant : List UInt8} (h : meant.length ≤ n)
    (hne : new.take n ≠ meant) : replaced n old new ≠ meant := by
  rw [replaced]
  split
  · rename_i hsame
    rintro rfl
    rw [List.take_of_length_le h] at hsame
    exact hne hsame.symm
  · exact hne

section Fields

variable {c : Settings} {value : List UInt8}

theorem changeSsid_str (h : 0 ∉ value) :
    str (changeSsid c value).staSsid = replaced 31 (str c.staSsid) value := by
  rw [changeSsid,replaced,sameStart]
  by_cases hsame : (str c.staSsid).take 31 = value.take 31
  · rw [if_pos hsame,if_pos (by simpa using hsame)]
  · rw [if_neg hsame,if_neg (by simpa using hsame)]
    dsimp only
    rw [str_strncpy_zeros (by decide),cstr_self h]

theorem changeSsid_pwd : (changeSsid c value).staPwd = c.staPwd := by
  rw [changeSsid]
  split <;> rfl

theorem changePwd_str (h : 0 ∉ value) :
    str (changePwd c value).staPwd = replaced 63 (str c.staPwd) value := by
  rw [changePwd,replaced,sameStart]
  by_cases hsame : (str c.staPwd).take 63 = value.take 63
  · rw [if_pos hsame,if_pos (by simpa using hsame)]
  · rw [if_neg hsame,if_neg (by simpa using hsame)]
    dsimp only
    rw [str_strncpy_zeros (by decide),cstr_self h]

theorem changePwd_ssid : (changePwd c value).staSsid = c.staSsid := by
  rw [changePwd]
  split <;> rfl

theorem clearPwd_str : str (clearPwd c).staPwd = [] := by
  rw [clearPwd]
  split
  · exact str_zeros 64
  · rename_i hnul
    exact str_of_get (by decide) (not_not.mp hnul)

theorem clearPwd_ssid : (clearPwd c).staSsid = c.staSsid := by
  rw [clearPwd]
  split <;> rfl

end Fields

section Parts

variable {ssid pwd : List UInt8} {c : Settings}

theorem escape_eq_nil {str : List UInt8} (h : escape str = []) : str = [] := by
  have hle := length_le_escape str
  rw [h] at hle
  exact List.eq_nil_of_length_eq_zero (Nat.le_zero.mp hle)

theorem unescape_take_nul {str : List UInt8} (hnul : 0 ∉ str) (k : ℕ) :
    0 ∉ queryStringUnescape ((escape str).take k) :=
  unescape_nul fun hmem => escape_nul hnul (List.mem_of_mem_take hmem)

theorem take_escape_free {str : List UInt8} (k : ℕ) {b : UInt8} (h : b ∈ (escape str).take k) :
    b ≠ 0x26 ∧ b ≠ 0x3d :=
  escape_free (List.mem_of_mem_take h)

theorem changeKeyValue_ssid {value : List UInt8} (hne : value ≠ []) (hfree : ∀ b ∈ value, b ≠ 0x3d)
    (hlen : value.length ≤ 90) :
    changeKeyValue c (ascii "ssid=" ++ value) = changeSsid c (queryStringUnescape value) := by
  have htake : (ascii "ssid=" ++ value).take (mqttMessageL-1) = ascii "ssid" ++ 0x3d::value :=
    List.take_of_length_le (by simp [ascii,mqttMessageL]; omega)
  rw [changeKeyValue,htake,segments_cons (by decide) (by decide +kernel),segments_token hne hfree]
  rfl

theorem changeKeyValue_pwd {value : List UInt8} (hfree : ∀ b ∈ value, b ≠ 0x3d)
    (hlen : value.length ≤ 90) :
    changeKeyValue c (ascii "pwd=" ++ value) =
      if value = [] then clearPwd c else changePwd c (queryStringUnescape value) := by
  have htake : (ascii "pwd=" ++ value).take (mqttMessageL-1) = ascii "pwd" ++ 0x3d::value :=
    List.take_of_length_le (by simp [ascii,mqttMessageL]; omega)
  rw [changeKeyValue,htake,segments_cons (by decide) (by decide +kernel)]
  split_ifs with hvalue
  · rw [hvalue]
    rfl
  · rw [segments_token hvalue hfree]
    rfl

/-- What becomes of the settings when `k` bytes of the second part are copied. -/
def pwdPart (k : ℕ) (pwdCode : List UInt8) (c : Settings) : Settings :=
  if k ≤ 2 then c
  else if pwdCode.take (k-4) = [] then clearPwd c
  else changePwd c (queryStringUnescape (pwdCode.take (k-4)))

theorem foldl_pwd (k : ℕ) (hk : k ≤ 94) :
    (segments 0x26 ((ascii "pwd=" ++ escape pwd).take k)).foldl changeKeyValue c =
      pwdPart k (escape pwd) c := by
  match k, hk with
  | 0, _ => rfl
  | 1, _ => rfl
  | 2, _ => rfl
  | 3, _ => rfl
  | k+4, hk =>
    have hsplit : (ascii "pwd=" ++ escape pwd).take (k+4) = ascii "pwd=" ++ (escape pwd).take k := rfl
    have hfree : ∀ b ∈ ascii "pwd=" ++ (escape pwd).take k, b ≠ 0x26 := by
      intro b hb
      rcases List.mem_append.mp hb with hb | hb
      · exact (by decide +kernel : ∀ b ∈ ascii "pwd=", b ≠ 0x26) b hb
      · exact (take_escape_free k hb).1
    have hlen : ((escape pwd).take k).length ≤ 90 := by
      rw [List.length_take]
      omega
    rw [hsplit,segments_token (List.append_ne_nil_of_left_ne_nil (by decide) _) hfree,
      List.foldl_cons,List.foldl_nil,changeKeyValue_pwd (fun b hb => (take_escape_free k hb).2)
        hlen,pwdPart,if_neg (show ¬k+4 ≤ 2 by omega),Nat.add_sub_cancel]

/-- The first part is cut after 90 bytes of the name, the second one gets what is left of 95. -/
theorem changeSsidPwd_message (hne : ssid ≠ []) :
    changeSsidPwd c (message (escape ssid) (escape pwd)) =
      pwdPart (89-(escape ssid).length) (escape pwd)
        (changeSsid c (queryStringUnescape ((escape ssid).take 90))) := by
  have hcode : (escape ssid).take 90 ≠ [] := fun h =>
    hne (escape_eq_nil ((List.take_eq_nil_iff.mp h).resolve_left (by decide)))
  have hssid : ∀ b ∈ ascii "ssid=" ++ (escape ssid).take 90, b ≠ 0x26 := by
    intro b hb
    rcases List.mem_append.mp hb with hb | hb
    · exact (by decide +kernel : ∀ b ∈ ascii "ssid=", b ≠ 0x26) b hb
    · exact (take_escape_free 90 hb).1
  have hname : ascii "ssid=" ++ (escape ssid).take 90 ≠ [] :=
    List.append_ne_nil_of_left_ne_nil (by decide) _
  have hkey := changeKeyValue_ssid (c := c) hcode (fun b hb => (take_escape_free 90 hb).2)
    (List.length_take_le 90 _)
  have hcut : (message (escape ssid) (escape pwd)).take (commandParamsL-1) =
      ascii "ssid=" ++ (escape ssid ++ 0x26::(ascii "pwd=" ++ escape pwd)).take 90 := by
    rw [message,List.append_assoc,List.append_assoc]
    rfl
  rw [changeSsidPwd,hcut,List.take_append]
  by_cases hlen : (escape ssid).length ≤ 89
  · obtain ⟨k,hk⟩ := Nat.exists_eq_add_of_le hlen
    have hrest : 90-(escape ssid).length = k+1 := by omega
    rw [hrest,List.take_succ_cons,← List.append_assoc,segments_append,segments_token hname hssid,
      List.foldl_append,List.foldl_cons,List.foldl_nil,hkey,foldl_pwd k (by omega)]
    congr 1
    omega
  · have hrest : 90-(escape ssid).length = 0 := by omega
    rw [hrest,List.take_zero,List.append_nil,segments_token hname hssid,List.foldl_cons,
      List.foldl_nil,hkey,pwdPart,if_pos (by omega)]

theorem pwdPart_ssid (k : ℕ) (code : List UInt8) : (pwdPart k code c).staSsid = c.staSsid := by
  rw [pwdPart]
  split_ifs
  · rfl
  · exact clearPwd_ssid
  · exact changePwd_ssid

theorem replaced_nil (old : List UInt8) : replaced 63 old [] = [] := by
  rw [replaced]
  split_ifs with h
  · exact (List.take_eq_nil_iff.mp h).resolve_left (by decide)
  · rfl

theorem pwdPart_str (hnul : 0 ∉ pwd) (k : ℕ) :
    str (pwdPart k (escape pwd) c).staPwd = if k ≤ 2 then str c.staPwd else
      replaced 63 (str c.staPwd) (queryStringUnescape ((escape pwd).take (k-4))) := by
  rw [pwdPart]
  split_ifs with hk htake
  · rfl
  · rw [clearPwd_str,htake]
    exact (replaced_nil _).symm
  · exact changePwd_str (unescape_take_nul hnul _)

theorem replaced_code_iff {value old : List UInt8} {n m : ℕ} (hpercent : 0x25 ∉ value)
    (hlen : value.length ≤ n) :
    replaced n old (queryStringUnescape ((escape value).take m)) = value ↔
      (escape value).length ≤ m ∧ ¬Shadowed n value old := by
  by_cases hm : (escape value).length ≤ m
  · rw [List.take_of_length_le hm,unescape_escape_nil hpercent,replaced_eq_iff hlen,
      and_iff_right hm]
  · constructor
    · intro h
      exact absurd h (replaced_ne hlen (unescape_take_ne hpercent (by omega) hlen))
    · intro h
      exact absurd h.1 hm

theorem kept_changeSsidPwd (hne : ssid ≠ []) (hssid : ssid.length ≤ 31) (hpwd : pwd.length ≤ 63)
    (hnul : 0 ∉ ssid ∧ 0 ∉ pwd) (hpercent : 0x25 ∉ ssid ∧ 0x25 ∉ pwd) :
    Kept ssid pwd (changeSsidPwd c (message (escape ssid) (escape pwd))) ↔
      Fits (escape ssid) (escape pwd) ssid pwd c := by
  have hempty : pwd = [] ↔ (escape pwd).length = 0 := by
    rw [List.length_eq_zero_iff]
    refine ⟨?_,escape_eq_nil⟩
    rintro rfl
    rfl
  rw [changeSsidPwd_message hne,Kept,pwdPart_ssid,pwdPart_str hnul.2,
    changeSsid_str (unescape_take_nul hnul.1 _),changeSsid_pwd,
    replaced_code_iff hpercent.1 hssid,Fits]
  split_ifs with hk
  · -- Nothing of the password is copied.
    constructor
    · rintro ⟨⟨hlen,hfree⟩,hold⟩
      exact ⟨hfree,fun hshadowed => hshadowed.2.2 hold,Or.inr (Or.inr ⟨by omega,hlen,hold⟩)⟩
    · rintro ⟨hfree,_,hcopied⟩
      rcases hcopied with hall | ⟨hlen,_⟩ | ⟨_,hlen,hold⟩
      · omega
      · omega
      · exact ⟨⟨hlen,hfree⟩,hold⟩
  · rw [replaced_code_iff hpercent.2 hpwd]
    constructor
    · rintro ⟨⟨_,hfree⟩,hlen,hfree'⟩
      refine ⟨hfree,hfree',?_⟩
      rw [hempty]
      omega
    · rintro ⟨hfree,hfree',hcopied⟩
      rw [hempty] at hcopied
      exact ⟨⟨by omega,hfree⟩,by omega,hfree'⟩

end Parts

/-- The query that stores a job with the message for its command. -/
def cronQuery (fields msg : List UInt8) : List UInt8 :=
  fields ++ (ascii "command=" ++ (ascii "set_ssid_pwd=" ++ msg))

/-- There is room for the job and for its query, and the fields that stand before the command end
before it. -/
structure Query (c : Settings) (fields msg : List UInt8) : Prop where
  room : c.cronJobsN.toNat ≤ cronJobsMax-1
  length : (cronQuery fields msg).length ≤ mqttMessageL-1
  apart : fields = [] ∨ ∃ xs, fields = xs ++ [0x26]
  first : strstr (fields ++ ascii "command=") (ascii "command=") = some (ascii "command=")

section Cron

variable {c : Settings} {fields msg params : List UInt8}

theorem cutCommandParams_query (h : Query c fields msg) :
    cutCommandParams (cronQuery fields msg) =
      (fields ++ (ascii "command=" ++ ascii "set_ssid_pwd"),msg.take (commandParamsL-1)) := by
  have hfound := strstr_append h.first (ascii "set_ssid_pwd=" ++ msg)
  rw [List.append_assoc] at hfound
  have htok : strtok (ascii "set_ssid_pwd=" ++ msg) 0x3d = some (ascii "set_ssid_pwd",msg) := rfl
  have hdrop : (ascii "command=" ++ (ascii "set_ssid_pwd=" ++ msg)).drop 8 =
      ascii "set_ssid_pwd=" ++ msg := rfl
  have hlen : (cronQuery fields msg).length-
      (ascii "command=" ++ (ascii "set_ssid_pwd=" ++ msg)).length+8 = fields.length+8 := by
    rw [cronQuery,List.length_append,Nat.add_sub_cancel]
  have htake : (cronQuery fields msg).take (fields.length+8) = fields ++ ascii "command=" :=
    List.take_length_add_append 8
  rw [cutCommandParams]
  have hstart : (ascii "set_ssid_pwd=" ++ msg).takeWhile (· = 0x3d) = [] := rfl
  rw [show strstr (cronQuery fields msg) (ascii "command=") = _ from hfound]
  dsimp only
  rw [hdrop,htok]
  dsimp only
  rw [hlen,htake,hstart,List.append_nil,List.append_assoc]

theorem Query.fields_free (h : Query c fields msg) : ¬ascii "command=" <:+: fields :=
  strstr_first (by decide) h.first

theorem addKeyValue_command {i : ℕ} (hi : i < 16) (h : c.cronJobsN.toNat = i) :
    (addKeyValue params c (ascii "command=" ++ ascii "set_ssid_pwd")).cronJobList[i] =
      writeCommand params (ascii "set_ssid_pwd") c.cronJobList[i] := by
  have hname : CronQuery.Clean (ascii "set_ssid_pwd") := ⟨by decide,by decide,by decide⟩
  rw [CronQuery.addKeyValue_name (by decide) hname]
  dsimp only
  rw [changeJob,modifyJob_get hi,if_pos h.symm]
  rfl

theorem writeCommand_str (hne : params ≠ []) (hnul : 0 ∉ params) (hlen : params.length ≤ 95)
    (job : CronJobT) :
    str (writeCommand params (ascii "set_ssid_pwd") job).command = ascii "set_ssid_pwd" ∧
      str (writeCommand params (ascii "set_ssid_pwd") job).commandParams = params := by
  constructor
  · rw [writeCommand,str_strncpy_set (by decide)]
    decide
  · rw [writeCommand]
    dsimp only
    rw [if_neg hne,str_strncpy_set (by decide),cstr_self hnul,List.take_of_length_le hlen]

/-- The job is stored with its command and as much of the message as there is room for. -/
theorem addCronJobFromQuery_job (h : Query c fields msg) (hnul : 0 ∉ msg) (hne : msg ≠ []) {i : ℕ}
    (hi : i < 16) (hn : c.cronJobsN.toNat = i) :
    str ((addCronJobFromQuery c (cronQuery fields msg)).cronJobList[i]).command =
        ascii "set_ssid_pwd" ∧
      str ((addCronJobFromQuery c (cronQuery fields msg)).cronJobList[i]).commandParams =
        msg.take (commandParamsL-1) := by
  have hsegments : segments 0x26 (fields ++ (ascii "command=" ++ ascii "set_ssid_pwd")) =
      segments 0x26 fields ++ [ascii "command=" ++ ascii "set_ssid_pwd"] := by
    have hcommand : segments 0x26 (ascii "command=" ++ ascii "set_ssid_pwd") =
        [ascii "command=" ++ ascii "set_ssid_pwd"] := by decide
    rcases h.apart with rfl | ⟨xs,rfl⟩
    · exact hcommand
    · rw [List.append_assoc,List.singleton_append,segments_append,segments_append,hcommand,
        segments_nil,List.append_nil]
  have hparams : msg.take (commandParamsL-1) ≠ [] := fun htake =>
    hne ((List.take_eq_nil_iff.mp htake).resolve_left (by decide))
  obtain ⟨hcount,-⟩ := CronQuery.foldl_uncounted (msg.take (commandParamsL-1))
    (changeJob c c.cronJobsN.toNat fun _ => emptyJob) (segments 0x26 fields)
    fun token htoken hinside => h.fields_free (hinside.trans (segments_inside htoken))
  have hplace := (congrArg UInt8.toNat hcount).trans hn
  rw [addCronJobFromQuery,if_pos h.room]
  dsimp only
  rw [List.take_of_length_le h.length,cutCommandParams_query h]
  dsimp only
  rw [hsegments,List.foldl_append,List.foldl_cons,List.foldl_nil,addKeyValue_command hi hplace]
  exact writeCommand_str hparams (fun hmem => hnul (List.mem_of_mem_take hmem))
    (List.length_take_le _ _) _

end Cron

theorem message_nul {ssid pwd : List UInt8} (h : 0 ∉ ssid ∧ 0 ∉ pwd) :
    0 ∉ message (escape ssid) (escape pwd) := by
  rw [message,List.mem_append,List.mem_append,List.mem_append,not_or,not_or,not_or]
  exact ⟨⟨⟨by decide,escape_nul h.1⟩,by decide⟩,escape_nul h.2⟩

theorem changeSsidPwd_take (c : Settings) (msg : List UInt8) :
    changeSsidPwd c (msg.take (commandParamsL-1)) = changeSsidPwd c msg := by
  rw [changeSsidPwd,changeSsidPwd,List.take_take,Nat.min_self]

theorem runCommand_setSsidPwd {chip : Chip} {env : Cron.JobEnv} {s : State} {job : CronJobT}
    (h : str job.command = ascii "set_ssid_pwd") : Cron.runCommand chip env s job =
      (cfgSaveSsidPwd chip env.flash env.sums s (str job.commandParams)).1 := by
  rw [Cron.runCommand,h,if_neg (by decide),if_neg (by decide),if_pos rfl]

theorem cfgSaveSsidPwd_readBack (chip : Chip) {flash : SyscfgT} (sums : Sums) {s : State}
    {msg : List UInt8} (h : flash = (changeSsidPwd s.sysCfg.toSettings msg).sealed) :
    (cfgSaveSsidPwd chip flash sums s msg).1.sysCfg.toSettings =
      changeSsidPwd s.sysCfg.toSettings msg :=
  cfgSave_readBack chip flash sums (s := s.change fun c => changeSsidPwd c msg) h

/-- Both ways the name and the password are in the configuration just when they fit, provided
that the flash gives back what is saved. -/
theorem credentials_kept {chip : Chip} {ssid pwd : List UInt8}
    (hssid : 1 ≤ ssid.length ∧ ssid.length ≤ 31) (hpwd : pwd.length ≤ 63)
    (hnul : 0 ∉ ssid ∧ 0 ∉ pwd) (hpercent : 0x25 ∉ ssid ∧ 0x25 ∉ pwd) :
    ∃ ssidCode pwdCode, queryStringEscape mqttMessageL ssid = some ssidCode ∧
      queryStringEscape mqttMessageL pwd = some pwdCode ∧
      (∀ flash sums s,
        flash = (changeSsidPwd s.sysCfg.toSettings (message ssidCode pwdCode)).sealed →
        (Kept ssid pwd
          (mqttRpcSetSsidPwd chip flash sums s (message ssidCode pwdCode)).sysCfg.toSettings ↔
            Fits ssidCode pwdCode ssid pwd s.sysCfg.toSettings)) ∧
      ∀ c fields i, ∀ hi : i < 16, Query c fields (message ssidCode pwdCode) →
        c.cronJobsN.toNat = i → ∀ (env : Cron.JobEnv) s,
        env.flash = (changeSsidPwd s.sysCfg.toSettings (message ssidCode pwdCode)).sealed →
        (Kept ssid pwd (Cron.runCommand chip env s (addCronJobFromQuery c
          (cronQuery fields (message ssidCode pwdCode))).cronJobList[i]).sysCfg.toSettings ↔
            Fits ssidCode pwdCode ssid pwd s.sysCfg.toSettings) := by
  have hne : ssid ≠ [] := List.ne_nil_of_length_pos hssid.1
  have hbuffer : ∀ {str : List UInt8}, str.length ≤ 63 → (escape str).length < mqttMessageL := by
    intro str hstr
    have hle := escape_length_le str
    rw [mqttMessageL]
    omega
  refine ⟨escape ssid,escape pwd,queryStringEscape_eq (hbuffer (by omega)),
    queryStringEscape_eq (hbuffer hpwd),?_,?_⟩
  · intro flash sums s hflash
    rw [mqttRpcSetSsidPwd,cfgSaveSsidPwd_readBack chip sums hflash]
    exact kept_changeSsidPwd hne hssid.2 hpwd hnul hpercent
  · intro c fields i hi hquery hn env s hflash
    have hmessage : message (escape ssid) (escape pwd) ≠ [] :=
      List.append_ne_nil_of_left_ne_nil (List.append_ne_nil_of_left_ne_nil
        (List.append_ne_nil_of_left_ne_nil (by decide) _) _) _
    obtain ⟨hcommand,hparams⟩ := addCronJobFromQuery_job hquery (message_nul hnul) hmessage hi hn
    rw [runCommand_setSsidPwd hcommand,hparams,
      cfgSaveSsidPwd_readBack chip env.sums (by rw [hflash,changeSsidPwd_take]),
      changeSsidPwd_take]
    exact kept_changeSsidPwd hne hssid.2 hpwd hnul hpercent

def blank : State := ⟨⟨cleared,0⟩,false,[]⟩

def shortMessage : List UInt8 := message (ascii "home") (ascii "a%26b")

def shortFlash : SyscfgT := (changeSsidPwd cleared shortMessage).sealed

theorem blank_query : Query cleared (ascii "minute=0&") shortMessage where
  room := by decide
  length := by decide
  apart := Or.inr ⟨ascii "minute=0",rfl⟩
  first := by decide

theorem credentials_kept_short :
    Kept (ascii "home") (ascii "a&b")
      (mqttRpcSetSsidPwd sampleChip shortFlash ⟨0,0⟩ blank shortMessage).sysCfg.toSettings ∧
    Kept (ascii "home") (ascii "a&b")
      (Cron.runCommand sampleChip ⟨shortFlash,⟨0,0⟩,false⟩ blank (addCronJobFromQuery cleared
        (cronQuery (ascii "minute=0&") shortMessage)).cronJobList[0]).sysCfg.toSettings := by
  have hfits : Fits (ascii "home") (ascii "a%26b") (ascii "home") (ascii "a&b") cleared :=
    ⟨fun h => absurd h.1 (by decide),fun h => absurd h.1 (by decide),Or.inl (by decide)⟩
  have hssid : queryStringEscape mqttMessageL (ascii "home") = some (ascii "home") := by decide
  have hpwd : queryStringEscape mqttMessageL (ascii "a&b") = some (ascii "a%26b") := by decide
  obtain ⟨ssidCode,pwdCode,hcode,hcode',hnow,hcron⟩ := @credentials_kept sampleChip
    (ascii "home") (ascii "a&b") (by decide) (by decide) (by decide) (by decide)
  cases hcode.symm.trans hssid
  cases hcode'.symm.trans hpwd
  exact ⟨(hnow shortFlash ⟨0,0⟩ blank rfl).mpr hfits,
    (hcron cleared (ascii "minute=0&") 0 (by decide) blank_query rfl
      ⟨shortFlash,⟨0,0⟩,false⟩ blank rfl).mpr hfits⟩

/-- A name of 31 bytes. -/
def longSsid : List UInt8 := List.replicate 31 0x61

/-- A password of 63 bytes. -/
def longPwd : List UInt8 := List.replicate 63 0x62

/-- The name and the password are as long as they may be, nothing in them is escaped, and the end
of the password is cut off. -/
theorem credentials_cut : queryStringEscape mqttMessageL longSsid = some longSsid ∧
    queryStringEscape mqttMessageL longPwd = some longPwd ∧
    ¬Kept longSsid longPwd (mqttRpcSetSsidPwd sampleChip
      (changeSsidPwd cleared (message longSsid longPwd)).sealed ⟨0,0⟩ blank
      (message longSsid longPwd)).sysCfg.toSettings := by
  refine ⟨by decide,by decide,?_⟩
  intro hkept
  have hsaved : (mqttRpcSetSsidPwd sampleChip
      (changeSsidPwd cleared (message longSsid longPwd)).sealed ⟨0,0⟩ blank
      (message longSsid longPwd)).sysCfg.toSettings =
        changeSsidPwd cleared (message longSsid longPwd) :=
    cfgSaveSsidPwd_readBack sampleChip ⟨0,0⟩ rfl
  rw [hsaved] at hkept
  have hfits : Fits longSsid longPwd longSsid longPwd cleared :=
    (kept_changeSsidPwd (by decide) (by decide) (by decide) (by decide) (by decide)).mp hkept
  rcases hfits.2.2 with hlen | ⟨hlen,_⟩ | ⟨hlen,_⟩
  · exact absurd hlen (by decide)
  · exact absurd hlen (by decide)
  · exact absurd hlen (by decide)

end Credentials
end MeterLogger
