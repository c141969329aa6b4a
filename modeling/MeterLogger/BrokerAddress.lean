import MeterLogger.Decimal
import MeterLogger.MqttClient

/-!
# Names and addresses of brokers

`MQTT_Connect` takes a host for an address when `UTILS_StrToIP` can read it, and asks for any other
by name. What follows the fourth number is not looked at, so a name may begin with an address.
-/

namespace MeterLogger
namespace BrokerAddress

open CStrings Decimal MqttUtils MqttClient

/-- The numbers of an address with a dot between two of them. -/
def dotted : List (List UInt8) → List UInt8
  | [] => []
  | [d] => d
  | d::ds => d ++ 46::dotted ds

/-- `k` runs of digits, some of which may be empty, and then the rest of the text, which no digit
begins. -/
structure Begins (k : ℕ) (text : List UInt8) (ds : List (List UInt8)) (rest : List UInt8) : Prop where
  count : ds.length = k
  digits : ∀ d ∈ ds, ∀ b ∈ d, isDigit b = true
  text_eq : text = dotted ds ++ rest
  ends : ∀ b ∈ rest.head?, isDigit b = false

/-- The number is one of 0 to 255. -/
def IsByte (d : List UInt8) : Prop := d ≠ [] ∧ readDigits 0 d < 256

instance (d : List UInt8) : Decidable (IsByte d) := inferInstanceAs (Decidable (_ ∧ _))

def BeginsQuad (host : List UInt8) (ip : List ℕ) : Prop :=
  ∃ ds rest, Begins 4 host ds rest ∧ (∀ d ∈ ds, IsByte d) ∧ ip = ds.map (readDigits 0)

def IsQuad (host : List UInt8) (ip : List ℕ) : Prop :=
  ∃ ds, Begins 4 host ds [] ∧ (∀ d ∈ ds, IsByte d) ∧ ip = ds.map (readDigits 0)

/-- The host begins like an address in which a number has no digits. -/
def LacksNumber (host : List UInt8) : Prop :=
  ∃ ds rest, Begins 4 host ds rest ∧ [] ∈ ds ∧ ∀ d ∈ ds, readDigits 0 d < 256

/-- An `int` has room for each of the `k` numbers the scan comes to. -/
def Fits : ℕ → List UInt8 → Prop
  | 0, _ => True
  | k+1, text =>
    readDigits 0 (text.takeWhile isDigit) < 2^31 ∧
      (readDigits 0 (text.takeWhile isDigit) < 256 →
        ∀ rest, text.dropWhile isDigit = 46::rest → Fits k rest)

/-- What `MQTT_Connect` asks of the network, once an old connection is gone. -/
def asked (c : Client) (dns : DnsOutcome) : List Action :=
  (c.mqttConnect dns).log.drop (c.log.length+if c.pCon then 1 else 0)

section Scan

variable {d rest text : List UInt8} {k : ℕ}

theorem toI32_digit {n : ℕ} {b : UInt8} (hn : n*10+(b.toNat-48) < 2^31) (hb : isDigit b = true) :
    toI32 (toI32 ((n : ℤ)*10)+((b.toNat : ℤ)-0x30)) = ((n*10+(b.toNat-48) : ℕ) : ℤ) := by
  obtain ⟨hlow,-⟩ := isDigit_bounds hb
  have hten : toI32 ((n : ℤ)*10) = (n : ℤ)*10 :=
    Int.bmod_eq_of_le (by omega) (by omega)
  rw [hten,toI32,Int.bmod_eq_of_le (by omega) (by omega)]
  omega

theorem strToIPNumber_digits (hd : ∀ b ∈ d, isDigit b = true) (rest : List UInt8) (last : Bool)
    {n : ℕ} (hfits : readDigits n d < 2^31) :
    strToIPNumber last n (d ++ rest) = strToIPNumber last (readDigits n d : ℕ) rest := by
  induction d generalizing n with
  | nil => exact rfl
  | cons b d ih =>
    have hb := hd b List.mem_cons_self
    have hstep : readDigits n (b::d) = readDigits (n*10+(b.toNat-48)) d := rfl
    rw [hstep] at hfits
    have hroom : n*10+(b.toNat-48) < 2^31 := lt_of_le_of_lt (le_readDigits _ d) hfits
    have hrange : 0x30 ≤ b ∧ b ≤ 0x39 := by
      simpa [isDigit] using hb
    rw [List.cons_append,strToIPNumber,if_pos hrange,toI32_digit hroom hb,
      ih (fun x hx => hd x (List.mem_cons_of_mem b hx)) hfits,hstep]

theorem strToIPNumber_end (hrest : ∀ b ∈ rest.head?, isDigit b = false) (last : Bool) (n : ℤ) :
    strToIPNumber last n rest =
      if last = true ∨ rest.head? = some 46 then some (n,rest.tail) else none := by
  cases rest with
  | nil => simp [strToIPNumber]
  | cons c cs =>
    have hno : ¬(0x30 ≤ c ∧ c ≤ 0x39) := by
      have hc := hrest c rfl
      simpa [isDigit] using hc
    rw [strToIPNumber,if_neg hno]
    simp

theorem takeWhile_run (hd : ∀ b ∈ d, isDigit b = true) (hrest : ∀ b ∈ rest.head?, isDigit b = false) :
    (d ++ rest).takeWhile isDigit = d ∧ (d ++ rest).dropWhile isDigit = rest := by
  rw [List.takeWhile_append_of_pos hd,List.dropWhile_append_of_pos hd]
  cases rest with
  | nil => simp
  | cons c cs =>
    have hc : isDigit c = false := hrest c rfl
    simp [hc]

theorem dropWhile_ends (text : List UInt8) :
    ∀ b ∈ (text.dropWhile isDigit).head?, isDigit b = false := by
  intro b hb
  have hall := List.head?_dropWhile_not isDigit text
  rw [Option.mem_def.1 hb] at hall
  simpa using hall

theorem strToIPLoop_succ (hfits : readDigits 0 (text.takeWhile isDigit) < 2^31) :
    strToIPLoop (k+1) text =
      if k = 0 ∨ (text.dropWhile isDigit).head? = some 46 then
        if readDigits 0 (text.takeWhile isDigit) < 256 then
          (strToIPLoop k (text.dropWhile isDigit).tail).map
            (readDigits 0 (text.takeWhile isDigit) :: ·)
        else none
      else none := by
  have hdigits : ∀ b ∈ text.takeWhile isDigit, isDigit b = true := fun b hb =>
    List.mem_takeWhile_imp hb
  have hread := strToIPNumber_digits hdigits (text.dropWhile isDigit) (k = 0) (n := 0)
    hfits
  rw [List.takeWhile_append_dropWhile,strToIPNumber_end (dropWhile_ends text)] at hread
  have hnumber : strToIPNumber (k = 0) 0 text =
      if k = 0 ∨ (text.dropWhile isDigit).head? = some 46 then
        some (((readDigits 0 (text.takeWhile isDigit) : ℕ) : ℤ),(text.dropWhile isDigit).tail)
      else none := by
    simpa only [decide_eq_true_iff,Nat.cast_zero] using hread
  rw [strToIPLoop,hnumber]
  by_cases hends : k = 0 ∨ (text.dropWhile isDigit).head? = some 46
  · rw [if_pos hends,if_pos hends]
    by_cases hbyte : readDigits 0 (text.takeWhile isDigit) < 256
    · have hlt : ¬((readDigits 0 (text.takeWhile isDigit) : ℕ) : ℤ) ≥ 256 := by omega
      have hself : (((readDigits 0 (text.takeWhile isDigit) : ℕ) : ℤ)%256).toNat =
          readDigits 0 (text.takeWhile isDigit) := by omega
      simp only [if_neg hlt,if_pos hbyte,hself]
    · have hge : ((readDigits 0 (text.takeWhile isDigit) : ℕ) : ℤ) ≥ 256 := by omega
      simp only [if_pos hge,if_neg hbyte]
  · rw [if_neg hends,if_neg hends]

theorem begins_one {ds : List (List UInt8)} :
    Begins 1 text ds rest ↔ ds = [text.takeWhile isDigit] ∧ rest = text.dropWhile isDigit := by
  constructor
  · rintro ⟨hcount,hdigits,htext,hends⟩
    obtain ⟨d,rfl⟩ := List.length_eq_one_iff.1 hcount
    obtain ⟨htake,hdrop⟩ := takeWhile_run (hdigits d List.mem_cons_self) hends
    rw [htext]
    exact ⟨congrArg (fun d => [d]) htake.symm,hdrop.symm⟩
  · rintro ⟨rfl,rfl⟩
    refine ⟨rfl,?_,List.takeWhile_append_dropWhile.symm,dropWhile_ends text⟩
    intro d hd b hb
    rw [List.mem_singleton.1 hd] at hb
    exact List.mem_takeWhile_imp hb

theorem begins_succ {ds : List (List UInt8)} : Begins (k+2) text ds rest ↔
    ∃ ds' r, ds = text.takeWhile isDigit::ds' ∧ text.dropWhile isDigit = 46::r ∧
      Begins (k+1) r ds' rest := by
  constructor
  · rintro ⟨hcount,hdigits,htext,hends⟩
    obtain ⟨d,ds,rfl⟩ := List.exists_cons_of_length_eq_add_one hcount
    obtain ⟨e,ds,rfl⟩ := List.exists_cons_of_length_eq_add_one (Nat.succ.inj hcount)
    have hsplit : text = d ++ 46::(dotted (e::ds) ++ rest) := by
      rw [htext,dotted,List.append_assoc,List.cons_append]
      exact List.cons_ne_nil e ds
    have hdot : ∀ b ∈ (46::(dotted (e::ds) ++ rest)).head?, isDigit b = false := by
      simp [isDigit]
    obtain ⟨htake,hdrop⟩ := takeWhile_run (hdigits d List.mem_cons_self) hdot
    rw [← hsplit] at htake hdrop
    exact ⟨e::ds,_,by rw [htake],hdrop,⟨Nat.succ.inj hcount,
      fun x hx => hdigits x (List.mem_cons_of_mem d hx),rfl,hends⟩⟩
  · rintro ⟨ds,r,rfl,hdrop,hcount,hdigits,rfl,hends⟩
    refine ⟨congrArg Nat.succ hcount,?_,?_,hends⟩
    · intro d hd b hb
      rcases List.mem_cons.1 hd with rfl | hd
      · exact List.mem_takeWhile_imp hb
      · exact hdigits d hd b hb
    · obtain ⟨e,ds,rfl⟩ := List.exists_cons_of_length_eq_add_one hcount
      rw [dotted,List.append_assoc,List.cons_append,← hdrop,List.takeWhile_append_dropWhile]
      exact List.cons_ne_nil e ds

theorem strToIPLoop_iff (hfits : Fits (k+1) text) {ip : List ℕ} :
    strToIPLoop (k+1) text = some ip ↔ ∃ ds rest, Begins (k+1) text ds rest ∧
      (∀ d ∈ ds, readDigits 0 d < 256) ∧ ip = ds.map (readDigits 0) := by
  induction k generalizing text ip with
  | zero =>
    rw [strToIPLoop_succ hfits.1,if_pos (Or.inl rfl)]
    constructor
    · intro h
      by_cases hbyte : readDigits 0 (text.takeWhile isDigit) < 256
      · rw [if_pos hbyte,strToIPLoop,Option.map_some] at h
        refine ⟨_,_,begins_one.2 ⟨rfl,rfl⟩,?_,(Option.some.inj h).symm⟩
        intro d hd
        rwa [List.mem_singleton.1 hd]
      · rw [if_neg hbyte] at h
        cases h
    · rintro ⟨ds,rest,hbegins,hbytes,rfl⟩
      obtain ⟨rfl,-⟩ := begins_one.1 hbegins
      rw [if_pos (hbytes _ List.mem_cons_self)]
      exact rfl
  | succ k ih =>
    rw [strToIPLoop_succ hfits.1]
    constructor
    · intro h
      by_cases hdot : (text.dropWhile isDigit).head? = some 46
      · obtain ⟨r,hr⟩ := List.head?_eq_some_iff.1 hdot
        rw [if_pos (Or.inr hdot)] at h
        by_cases hbyte : readDigits 0 (text.takeWhile isDigit) < 256
        · rw [if_pos hbyte,hr,List.tail_cons] at h
          obtain ⟨tail,htail,rfl⟩ := Option.map_eq_some_iff.1 h
          obtain ⟨ds,rest,hbegins,hbytes,rfl⟩ := (ih (hfits.2 hbyte r hr)).1 htail
          refine ⟨_,rest,begins_succ.2 ⟨ds,r,rfl,hr,hbegins⟩,?_,rfl⟩
          intro d hd
          rcases List.mem_cons.1 hd with rfl | hd
          · exact hbyte
          · exact hbytes d hd
        · rw [if_neg hbyte] at h
          cases h
      · rw [if_neg (not_or.2 ⟨Nat.succ_ne_zero k,hdot⟩)] at h
        cases h
    · rintro ⟨ds,rest,hbegins,hbytes,rfl⟩
      obtain ⟨ds,r,rfl,hr,hbegins⟩ := begins_succ.1 hbegins
      have hbyte := hbytes _ List.mem_cons_self
      have htail := (ih (hfits.2 hbyte r hr)).2
        ⟨ds,rest,hbegins,fun d hd => hbytes d (List.mem_cons_of_mem _ hd),rfl⟩
      rw [if_pos (Or.inr (by rw [hr]; exact rfl)),if_pos hbyte,hr,List.tail_cons,htail]
      exact rfl

theorem begins_unique {ds ds' : List (List UInt8)} {rest' : List UInt8}
    (h : Begins (k+1) text ds rest) (h' : Begins (k+1) text ds' rest') : ds = ds' := by
  induction k generalizing text ds ds' with
  | zero => rw [(begins_one.1 h).1,(begins_one.1 h').1]
  | succ k ih =>
    obtain ⟨ds,r,rfl,hr,h⟩ := begins_succ.1 h
    obtain ⟨ds',r',rfl,hr',h'⟩ := begins_succ.1 h'
    obtain rfl : r = r' := (List.cons.inj (hr.symm.trans hr')).2
    rw [ih h h']

theorem fits_of_begins {ds : List (List UInt8)} (h : Begins (k+1) text ds rest)
    (hbytes : ∀ d ∈ ds, readDigits 0 d < 256) : Fits (k+1) text := by
  induction k generalizing text ds with
  | zero =>
    obtain ⟨rfl,-⟩ := begins_one.1 h
    have hbyte := hbytes _ List.mem_cons_self
    exact ⟨by omega,fun _ _ _ => trivial⟩
  | succ k ih =>
    obtain ⟨ds,r,rfl,hr,h⟩ := begins_succ.1 h
    have hbyte := hbytes _ List.mem_cons_self
    refine ⟨by omega,fun _ r' hr' => ?_⟩
    obtain rfl : r = r' := (List.cons.inj (hr.symm.trans hr')).2
    exact ih h fun d hd => hbytes d (List.mem_cons_of_mem _ hd)

theorem BeginsQuad.regular {host : List UInt8} {ip : List ℕ} (h : BeginsQuad host ip) :
    Fits 4 host ∧ ¬LacksNumber host := by
  obtain ⟨ds,rest,hbegins,hbytes,-⟩ := h
  refine ⟨fits_of_begins hbegins fun d hd => (hbytes d hd).2,?_⟩
  rintro ⟨ds',rest',hbegins',hnil,-⟩
  rw [← begins_unique hbegins hbegins'] at hnil
  exact (hbytes [] hnil).1 rfl

theorem mem_dotted {ds : List (List UInt8)} (hdigits : ∀ d ∈ ds, ∀ b ∈ d, isDigit b = true) :
    ∀ b ∈ dotted ds, isDigit b = true ∨ b = 46 := by
  intro b hb
  induction ds using dotted.induct with
  | case1 => cases hb
  | case2 d => exact Or.inl (hdigits d List.mem_cons_self b hb)
  | case3 d ds hne ih =>
    rw [dotted,List.mem_append,List.mem_cons] at hb
    · rcases hb with hb | rfl | hb
      · exact Or.inl (hdigits d List.mem_cons_self b hb)
      · exact Or.inr rfl
      · exact ih (fun x hx => hdigits x (List.mem_cons_of_mem d hx)) hb
    · exact hne

end Scan

section Connect

variable {c : Client} {host : List UInt8}

/-- The client once the old connection is gone and the ticks are reset. -/
def restarted (c : Client) : Client :=
  { (if c.pCon then c.mqttTcpclientDelete else c) with
    inBuffer := []
    pCon := true
    keepAliveTick := 0
    reconnectTick := 0
    connectTick := 0
    isWaitingForAck := false
    pendingMsgId := 0
    pendingMsgType := 0
    sendTimeout := 0
    isWaitingForPingresp := false
    pingrespTimeout := 0
    publishSendCallbackPending := false
    timerArmed := true }

theorem restarted_log (c : Client) :
    (restarted c).log = c.log ++ if c.pCon then [.abort] else [] := by
  cases hcon : c.pCon <;> simp [restarted,hcon,Client.mqttTcpclientDelete,Client.emit]

theorem restarted_security (c : Client) : (restarted c).security = c.security := by
  cases hcon : c.pCon <;> simp [restarted,hcon,Client.mqttTcpclientDelete,Client.emit]

/-- What a call adds to the log behind the end of the old connection is what it asks. -/
theorem asked_of_log {dns : DnsOutcome} {actions : List Action}
    (h : (c.mqttConnect dns).log = (restarted c).log ++ actions) : asked c dns = actions := by
  rw [asked,h,restarted_log]
  cases c.pCon <;> simp

theorem asked_literal (hhost : c.host = some host) (hallocated : c.allocated = true) {ip : List ℕ}
    (h : utilsStrToIP host = some ip) (dns : DnsOutcome) :
    asked c dns = if c.security then [] else [.connect ip] := by
  have hconnect : c.mqttConnect dns =
      { (if (restarted c).security then restarted c else (restarted c).emit (.connect ip)) with
        connState := .tcpConnecting } := by
    rw [Client.mqttConnect,hhost]
    simp only [hallocated,h]
    exact rfl
  apply asked_of_log
  rw [hconnect,restarted_security]
  cases c.security <;> simp [Client.emit]

theorem mqttDnsFound_log (c : Client) (addr : Option ℕ) :
    ∃ more, (c.mqttDnsFound addr).log = c.log ++ more := by
  cases addr with
  | none => exact ⟨[],(List.append_nil _).symm⟩
  | some addr =>
    rw [Client.mqttDnsFound]
    by_cases hzero : addr = 0
    · exact ⟨[],by simp [hzero,Client.post]⟩
    · cases hcon : c.pCon with
      | false => exact ⟨[],by simp [hzero]⟩
      | true =>
        cases hsec : c.security with
        | false => exact ⟨[.connect (ipBytes addr)],by simp [hzero,Client.post,Client.emit,hsec]⟩
        | true => exact ⟨[],by simp [hzero,Client.post,hsec]⟩

theorem asked_name (hhost : c.host = some host) (hallocated : c.allocated = true)
    (h : utilsStrToIP host = none) (dns : DnsOutcome) :
    ∃ answered, asked c dns = .resolve host::answered := by
  have hemit : ((restarted c).emit (.resolve host)).log =
      (restarted c).log ++ [.resolve host] := rfl
  cases dns with
  | ok addr =>
    have hconnect : c.mqttConnect (.ok addr) =
        ((restarted c).emit (.resolve host)).mqttDnsFound (some addr) := by
      rw [Client.mqttConnect,hhost]
      simp only [hallocated,h]
      exact rfl
    obtain ⟨more,hmore⟩ := mqttDnsFound_log ((restarted c).emit (.resolve host)) (some addr)
    rw [hemit,List.append_assoc] at hmore
    exact ⟨more,asked_of_log ((congrArg Client.log hconnect).trans hmore)⟩
  | inProgress =>
    have hconnect : c.mqttConnect .inProgress =
        Client.post { (restarted c).emit (.resolve host) with connState := .tcpConnecting } := by
      rw [Client.mqttConnect,hhost]
      simp only [hallocated,h]
      exact rfl
    exact ⟨[],asked_of_log ((congrArg Client.log hconnect).trans hemit)⟩
  | failed =>
    have hconnect : c.mqttConnect .failed =
        Client.post { (restarted c).emit (.resolve host) with connState := .tcpReconnectReq } := by
      rw [Client.mqttConnect,hhost]
      simp only [hallocated,h]
      exact rfl
    exact ⟨[],asked_of_log ((congrArg Client.log hconnect).trans hemit)⟩

/-- While the numbers fit and none is missing, only an address at the beginning is read. -/
theorem utilsStrToIP_iff (hfits : Fits 4 host) (hlacks : ¬LacksNumber host) {ip : List ℕ} :
    utilsStrToIP host = some ip ↔ BeginsQuad host ip := by
  rw [utilsStrToIP,strToIPLoop_iff hfits]
  constructor
  · rintro ⟨ds,rest,hbegins,hbytes,hip⟩
    have hne : [] ∉ ds := fun hnil => hlacks ⟨ds,rest,hbegins,hnil,hbytes⟩
    refine ⟨ds,rest,hbegins,fun d hd => ⟨?_,hbytes d hd⟩,hip⟩
    rintro rfl
    exact hne hd
  · rintro ⟨ds,rest,hbegins,hbytes,hip⟩
    exact ⟨ds,rest,hbegins,fun d hd => (hbytes d hd).2,hip⟩

/-- For a host without a missing number or one an `int` has no room for: the client connects to the
address the host begins with, and asks for the host by name when it begins with none. -/
theorem connect_classified (hhost : c.host = some host) (hallocated : c.allocated = true)
    (hfits : Fits 4 host) (hlacks : ¬LacksNumber host) (dns : DnsOutcome) :
    (c.security = false → ∀ ip, asked c dns = [.connect ip] ↔ BeginsQuad host ip) ∧
      ((asked c dns).head? = some (.resolve host) ↔ ∀ ip, ¬BeginsQuad host ip) := by
  cases hread : utilsStrToIP host with
  | some ip =>
    have hasked := asked_literal hhost hallocated hread dns
    have hquad : BeginsQuad host ip := (utilsStrToIP_iff hfits hlacks).1 hread
    rw [hasked]
    constructor
    · intro hsec ip'
      rw [hsec]
      constructor
      · intro h
        obtain ⟨h,-⟩ := List.cons.inj h
        exact Action.connect.inj h ▸ hquad
      · intro h
        have hother := (utilsStrToIP_iff hfits hlacks).2 h
        rw [hread] at hother
        rw [Option.some.inj hother]
        exact rfl
    · refine iff_of_false ?_ fun hnone => hnone ip hquad
      cases c.security <;> simp
  | none =>
    obtain ⟨answered,hasked⟩ := asked_name hhost hallocated hread dns
    have hnone : ∀ ip, ¬BeginsQuad host ip := fun ip h => by
      rw [(utilsStrToIP_iff hfits hlacks).2 h] at hread
      cases hread
    rw [hasked]
    constructor
    · intro _ ip
      refine iff_of_false ?_ (hnone ip)
      intro h
      cases (List.cons.inj h).1
    · exact iff_of_true rfl hnone

end Connect

/-- 10.0.0.7 -/
def addressHost : List UInt8 := [49,48,46,48,46,48,46,55]

/-- 10.0.0.7.lan -/
def nameHost : List UInt8 := addressHost ++ [46,108,97,110]

def sampleClient (host : List UInt8) : Client :=
  mqttInitClient host false ⟨none,none,none,none,[],60,0,false,true⟩ 1024

theorem connect_classified_address :
    ((sampleClient addressHost).security = false → ∀ ip,
      asked (sampleClient addressHost) .failed = [.connect ip] ↔ BeginsQuad addressHost ip) ∧
      ((asked (sampleClient addressHost) .failed).head? = some (.resolve addressHost) ↔
        ∀ ip, ¬BeginsQuad addressHost ip) := by
  have hquad : BeginsQuad addressHost [10,0,0,7] :=
    ⟨[[49,48],[48],[48],[55]],[],⟨rfl,by decide +kernel,rfl,by decide +kernel⟩,by decide +kernel,rfl⟩
  exact connect_classified rfl rfl hquad.regular.1 hquad.regular.2 .failed

/-- A name that begins with an address is not asked for. -/
theorem name_taken_for_address :
    asked (sampleClient nameHost) .failed = [.connect [10,0,0,7]] ∧ ∀ ip, ¬IsQuad nameHost ip := by
  constructor
  · have hread : utilsStrToIP nameHost = some [10,0,0,7] := by decide
    exact asked_literal (c := sampleClient nameHost) rfl rfl hread .failed
  · rintro ip ⟨ds,⟨-,hdigits,htext,-⟩,-⟩
    have hletter : (108 : UInt8) ∈ dotted ds := by
      rw [List.append_nil] at htext
      rw [← htext]
      decide
    rcases mem_dotted hdigits 108 hletter with hdigit | hdot
    · exact absurd hdigit (by decide)
    · exact absurd hdot (by decide)

end BrokerAddress
end MeterLogger
