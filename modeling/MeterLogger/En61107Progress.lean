import MeterLogger.En61107Request

/-!
# Messages end and requests do not get stuck

The end of a message is found at its check byte unless that byte looks like an ETX, and whenever
the machine waits for the meter its timer is armed.
-/

namespace MeterLogger
namespace En61107

open CStrings MeterFifo Runs
open KmpReceive (drain drain_spec)

theorem receivedInstValues_eq (F : Floats) (io : TaskIo F) (s : State) :
    receivedInstValues F io s = uartSendStandardData1 { s with
      fifo := (drain en61107FrameL s.fifo).2
      response := (parseMc66cdeInstValuesFrame F io.stack.2 s.response
        (drain en61107FrameL s.fifo).1).1 } := rfl

theorem receivedStandardData1_eq (F : Floats) (io : TaskIo F) (s : State) :
    receivedStandardData1 F io s = uartSendStandardData2 { s with
      fifo := (drain en61107FrameL s.fifo).2
      response := (parseMc66cdeStandardData1Frame F io.stack.2 s.response
        (cutMessage (drain en61107FrameL s.fifo).1)).1 } := rfl

theorem receivedStandardData2_eq (b : Build) (F : Floats) (io : TaskIo F) (s : State) :
    receivedStandardData2 b F io s = endCycle b io { s with
      fifo := (drain en61107FrameL s.fifo).2
      response := (parseMc66cdeStandardData2Frame s.response
        (cutMessage (drain en61107FrameL s.fifo).1)).1 } := rfl

def readRegisters (b : Build) (F : Floats) (io : TaskIo F) (s : State) (serial : ℕ)
    (serialSet : Bool) : State :=
  { s with
    fifo := (drain en61107FrameL s.fifo).2
    response := (parseEn61107Frame b F io.stack s.response (drain en61107FrameL s.fifo).1).1
    serial := serial
    serialSet := serialSet }

/-- A reply that cannot be parsed is waited for again soon, one without a serial number until the
timer fires; otherwise the next request is sent. -/
theorem receivedEn61107_cases (b : Build) (F : Floats) (io : TaskIo F) (s : State) :
    ∃ serial serialSet,
      receivedEn61107 b F io s =
        { readRegisters b F io s serial serialSet with receiveTimeoutTimer := some retryDelayMs } ∨
      receivedEn61107 b F io s = readRegisters b F io s serial serialSet ∨
      receivedEn61107 b F io s = uartSendStandardData1 (readRegisters b F io s serial serialSet) ∨
      receivedEn61107 b F io s = uartSendInstValues (readRegisters b F io s serial serialSet) := by
  have hset : ∀ t : State, ∃ serial serialSet,
      setSerial t = { t with serial := serial, serialSet := serialSet } := by
    intro t
    rw [setSerial]
    split
    · exact ⟨t.serial,t.serialSet,rfl⟩
    · exact ⟨parsedSerial t,true,rfl⟩
  obtain ⟨serial,serialSet,hserial⟩ := hset (readRegisters b F io s s.serial s.serialSet)
  have heq : receivedEn61107 b F io s =
      if (parseEn61107Frame b F io.stack s.response (drain en61107FrameL s.fifo).1).2 ≠ .ok then
        { readRegisters b F io s s.serial s.serialSet with receiveTimeoutTimer := some retryDelayMs }
      else if !s.serialSet && parsedSerial (readRegisters b F io s s.serial s.serialSet) = 0 then
        readRegisters b F io s s.serial s.serialSet
      else if b.mc66b then uartSendStandardData1 (readRegisters b F io s serial serialSet)
      else uartSendInstValues (readRegisters b F io s serial serialSet) := by
    have hread : readRegisters b F io s serial serialSet =
        setSerial (readRegisters b F io s s.serial s.serialSet) := hserial.symm
    rw [hread]
    rfl
  rw [heq]
  split_ifs
  · exact ⟨s.serial,s.serialSet,Or.inl rfl⟩
  · exact ⟨s.serial,s.serialSet,Or.inr (Or.inl rfl)⟩
  · exact ⟨serial,serialSet,Or.inr (Or.inr (Or.inl rfl))⟩
  · exact ⟨serial,serialSet,Or.inr (Or.inr (Or.inr rfl))⟩

def rxAll (s : State) (cs : List UInt8) : State := cs.foldl rxChar s

def reports : State → List UInt8 → List Bool
  | _, [] => []
  | s, c::cs => (isEodChar { s with fifo := (en61107FifoPut s.fifo c).1 } c).2 :: reports (rxChar s c) cs

def putAll (f : Fifo) (cs : List UInt8) : Fifo := cs.foldl (fun f c => (en61107FifoPut f c).1) f

/-- The state after `en61107_uart_send_en61107` and a message. -/
def received (s : State) (text : List UInt8) (bcc : UInt8) : State :=
  rxAll (uartSendEn61107 s) (text ++ [3,bcc])

/-- The end of the message is reported once, at its check byte, and the fifo holds the whole
message then. -/
def Detected (s : State) (text : List UInt8) (bcc : UInt8) : Prop :=
  reports (uartSendEn61107 s) (text ++ [3,bcc]) = List.replicate (text.length+1) false ++ [true] ∧
    contents (received s text bcc).fifo = contents s.fifo ++ text ++ [3,bcc]

section Detection

variable {s : State} {f : Fifo} {text : List UInt8} {bcc : UInt8}

theorem en61107FifoPut_valid (hf : Valid f) (c : UInt8) : Valid (en61107FifoPut f c).1 := by
  by_cases hroom : f.fillCount = queueSize
  · have hsame : en61107FifoPut f c = (f,false) := if_neg (by simp [hroom])
    simpa [hsame] using hf
  · exact (fifoPut_room hf hroom c).2.1

theorem putAll_valid (hf : Valid f) (cs : List UInt8) : Valid (putAll f cs) := by
  induction cs generalizing f with
  | nil => exact hf
  | cons c cs ih => exact ih (en61107FifoPut_valid hf c)

theorem putAll_contents (hf : Valid f) {cs : List UInt8}
    (hroom : f.fillCount+cs.length ≤ queueSize) : contents (putAll f cs) = contents f ++ cs := by
  induction cs generalizing f with
  | nil => simp [putAll]
  | cons c cs ih =>
    simp only [List.length_cons] at hroom
    obtain ⟨_,hv,hc⟩ := fifoPut_room hf (by omega) c
    have hfill := congrArg List.length hc
    simp only [contents_length,List.length_append,List.length_singleton] at hfill
    have hrest := ih (f := (en61107FifoPut f c).1) hv (by
      show (fifoPut f c).1.fillCount+cs.length ≤ queueSize
      omega)
    have hcons : contents (putAll f (c::cs)) = contents (fifoPut f c).1 ++ cs := hrest
    rw [hcons,hc,List.append_assoc]
    rfl

theorem putAll_contents_iff (hf : Valid f) (cs : List UInt8) :
    contents (putAll f cs) = contents f ++ cs ↔ f.fillCount+cs.length ≤ queueSize := by
  refine ⟨fun h => ?_,putAll_contents hf⟩
  have hlen := congrArg List.length h
  have hle := (putAll_valid hf cs).fill_le
  simp only [contents_length,List.length_append] at hlen
  omega

theorem rxAll_fifo (s : State) (cs : List UInt8) : (rxAll s cs).fifo = putAll s.fifo cs := by
  induction cs generalizing s with
  | nil => rfl
  | cons c cs ih =>
    have hone : (rxChar s c).fifo = (en61107FifoPut s.fifo c).1 := by
      simp only [rxChar,isEodChar]
      split_ifs <;> rfl
    have hrest := ih (rxChar s c)
    rw [hone] at hrest
    exact hrest

theorem reports_append (s : State) (xs ys : List UInt8) :
    reports s (xs ++ ys) = reports s xs ++ reports (rxAll s xs) ys := by
  induction xs generalizing s with
  | nil => rfl
  | cons c xs ih => simp [reports,ih,rxAll]

theorem reports_text (heod : s.eod = 3) (hetx : s.etxReceived = false) (htext : 3 ∉ text) :
    reports s text = List.replicate text.length false ∧
      (rxAll s text).eod = 3 ∧ (rxAll s text).etxReceived = false := by
  induction text generalizing s with
  | nil => exact ⟨rfl,heod,hetx⟩
  | cons c text ih =>
    rw [List.mem_cons,not_or] at htext
    obtain ⟨hc,htext⟩ := htext
    have hc' : c ≠ 3 := Ne.symm hc
    have hone : rxChar s c = { s with fifo := (en61107FifoPut s.fifo c).1 } := by
      simp [rxChar,isEodChar,heod,hetx,hc']
    obtain ⟨hreports,hrest⟩ := ih (s := rxChar s c) (by simp [hone,heod]) (by simp [hone,hetx]) htext
    refine ⟨?_,hrest⟩
    rw [reports,hreports]
    simp [isEodChar,heod,hetx,hc',List.replicate_succ]

/-- The ETX is remembered, and the byte behind it is the end unless it is an ETX itself. -/
theorem reports_end (heod : s.eod = 3) :
    reports s [3,bcc] = [false,!decide (bcc = 3)] := by
  have hone : rxChar s 3 = { s with fifo := (en61107FifoPut s.fifo 3).1, etxReceived := true } := by
    simp [rxChar,isEodChar,heod]
  by_cases hbcc : bcc = 3
  · simp [reports,hone,isEodChar,heod,hbcc]
  · simp [reports,hone,isEodChar,heod,hbcc]

theorem uartSendEn61107_reset (hidle : s.isInErrorRecovery = false) :
    (uartSendEn61107 s).eod = 3 ∧ (uartSendEn61107 s).etxReceived = false ∧
      (uartSendEn61107 s).fifo = s.fifo := by
  simp [uartSendEn61107,uartSend,resetEtx,hidle,post]

@[simp] theorem uartSend_fifo (s : State) (t : UartState) (eod : UInt8) (timeout : ℕ)
    (frame : List UInt8) : (uartSend s t eod timeout frame).fifo = s.fifo := by
  rw [uartSend]
  split <;> rfl

@[simp] theorem resetEtx_fifo (s : State) : (resetEtx s).fifo = s.fifo := by
  rw [resetEtx]
  split <;> rfl

theorem flush_valid (f : Fifo) : Valid (en61107FifoFlush f) :=
  (reset_valid (f := { f with fillCount := 0 }) rfl).1

theorem uartSendEn61107Ident_valid (hf : Valid s.fifo) : Valid (uartSendEn61107Ident s).fifo := by
  rw [uartSendEn61107Ident]
  split
  · exact hf
  · simpa using flush_valid s.fifo

theorem drain_valid (hf : Valid f) {n : ℕ} (hn : en61107FrameL ≤ n) : Valid (drain n f).2 := by
  have hle := hf.fill_le
  have hsize : queueSize < en61107FrameL := by decide
  exact (drain_spec hf (by omega)).2.1

theorem endCycle_fifo {F : Floats} (b : Build) (io : TaskIo F) (s : State) :
    (endCycle b io s).fifo = s.fifo := by
  simp only [endCycle,post]
  split_ifs <;> rfl

theorem sendAgain_valid (hf : Valid s.fifo) : Valid (sendAgain s).fifo := by
  rw [sendAgain]
  split
  · exact uartSendEn61107Ident_valid hf
  · exact uartSendEn61107Ident_valid hf
  · simpa [uartSendInstValues] using hf
  · simpa [uartSendStandardData1] using hf
  · simpa [uartSendStandardData2] using hf
  · exact hf

theorem receivedTask_valid (b : Build) (F : Floats) (io : TaskIo F) (hf : Valid s.fifo) :
    Valid (receivedTask b F io s).fifo := by
  have hdrain := drain_valid hf (le_refl en61107FrameL)
  rw [receivedTask]
  split
  · exact hf
  · simpa [uartSendEn61107] using hf
  · obtain ⟨serial,serialSet,h | h | h | h⟩ := receivedEn61107_cases b F io s
    · simpa [h,readRegisters] using hdrain
    · simpa [h,readRegisters] using hdrain
    · simpa [h,readRegisters,uartSendStandardData1] using hdrain
    · simpa [h,readRegisters,uartSendInstValues] using hdrain
  · simpa [receivedInstValues_eq,uartSendStandardData1] using hdrain
  · simpa [receivedStandardData1_eq,uartSendStandardData2] using hdrain
  · simpa [receivedStandardData2_eq,endCycle_fifo] using hdrain

theorem next_valid (b : Build) (F : Floats) (hf : Valid s.fifo) (e : Event F) :
    Valid (next b F s e).fifo := by
  cases e with
  | send =>
    simp only [next,requestSend]
    split_ifs
    · exact hf
    · exact hf
    · exact uartSendEn61107Ident_valid (drain_valid hf (Nat.le_succ _))
  | rx c =>
    have hfifo := rxAll_fifo s [c]
    simp only [rxAll,putAll,List.foldl_cons,List.foldl_nil] at hfifo
    rw [next,hfifo]
    exact en61107FifoPut_valid hf c
  | task io => exact receivedTask_valid b F io hf
  | timer =>
    simp only [next,receiveTimeoutTimerFunc]
    split_ifs
    · exact uartSendEn61107Ident_valid (flush_valid _)
    · exact sendAgain_valid (flush_valid _)
    · exact flush_valid _
  | ota inProgress => exact hf
  | destroy => exact hf

end Detection

theorem run_valid {b : Build} {F : Floats} {es : List (Event F)} {s : State}
    (h : Run (step b F) requestInit es s) : Valid s.fifo := by
  refine h.invariant (I := fun s => Valid s.fifo) ?_ valid_boot
  rintro s e t hs ⟨_,rfl⟩
  exact next_valid b F hs e

/-- In every state a run of the machine leads to, the end of the next message is found, with the
message in the fifo, exactly when its check byte is not an ETX and the fifo has room for it. -/
theorem eod_detected_iff {b : Build} {F : Floats} {es : List (Event F)} {s : State}
    (h : Run (step b F) requestInit es s) (hidle : s.isInErrorRecovery = false)
    {text : List UInt8} (htext : 3 ∉ text) (bcc : UInt8) :
    Detected s text bcc ↔ bcc ≠ 3 ∧ s.fifo.fillCount+text.length+2 ≤ queueSize := by
  obtain ⟨heod,hetx,hfifo⟩ := uartSendEn61107_reset hidle
  obtain ⟨hreports,heod',_⟩ := reports_text heod hetx htext
  have hend : reports (uartSendEn61107 s) (text ++ [3,bcc]) =
      List.replicate (text.length+1) false ++ [!decide (bcc = 3)] := by
    rw [reports_append,hreports,reports_end heod',List.replicate_succ',List.append_assoc]
    rfl
  have hroom := putAll_contents_iff (run_valid h) (text ++ [3,bcc])
  simp only [List.length_append,List.length_cons,List.length_nil] at hroom
  rw [Detected,received,rxAll_fifo,hfifo,hend,List.append_assoc,hroom,List.append_cancel_left_eq]
  simp [Nat.add_assoc]

def sampleBuild : Build := ⟨false,false⟩

/-- Numerals without a point, printed with exact arithmetic. -/
def sampleFloats : Floats where
  Value := ℕ
  read := fun p => Decimal.readDigits 0 (p.takeWhile isDigit)
  print := fun d n value => Decimal.decimal (value/d) ++ ascii "." ++
    padded n (value%d*10^n/d)
  printFloat := fun value => Decimal.decimal value ++ ascii ".000000"
  printInt := fun value => Decimal.decimal value

/-- The first message of the first cycle, with a check byte of 72. -/
theorem eod_detected_first :
    Detected requestInit [2,69,33,13,10] 72 :=
  (eod_detected_iff (b := sampleBuild) (F := sampleFloats) (.nil _) rfl (by decide) 72).mpr
    ⟨by decide,by decide⟩

/-- The sum of this message is that of an ETX. -/
theorem eod_undetected : ¬∀ (b : Build) (F : Floats) (es : List (Event F)) (s : State),
    Run (step b F) requestInit es s → s.isInErrorRecovery = false →
    ∀ text : List UInt8, 3 ∉ text → text.length ≤ 200 → ∀ bcc, Detected s text bcc := by
  intro h
  have hreports := (h sampleBuild sampleFloats [] requestInit (.nil _) rfl [2,72,33,13,10]
    (by decide) (by decide) 3).1
  exact absurd hreports (by decide)

def Waiting (s : State) : Prop := s.uartState ≠ .none ∨ s.isInErrorRecovery = true

/-- While the machine waits, the timer will fire within the longest delay. -/
structure Alive (s : State) : Prop where
  recovery : s.isInErrorRecovery = true → s.uartState = .none
  armed : Waiting s → ∃ delay ≤ errorRecoveryDelayMs, s.receiveTimeoutTimer = some delay

section Timer

variable {s : State} {b : Build} {F : Floats}

theorem uartSend_alive {t : UartState} {timeout : ℕ} (h : s.isInErrorRecovery = true → Alive s)
    (ht : timeout ≤ errorRecoveryDelayMs) (eod : UInt8) (frame : List UInt8) :
    Alive (uartSend s t eod timeout frame) := by
  rw [uartSend]
  split
  · exact h ‹_›
  · rename_i hidle
    exact ⟨fun hr => absurd hr hidle,fun _ => ⟨timeout,ht,rfl⟩⟩

theorem resetEtx_alive (h : s.isInErrorRecovery = true → Alive s) :
    (resetEtx s).isInErrorRecovery = true → Alive (resetEtx s) := by
  rw [resetEtx]
  split
  · exact h
  · exact fun hr => ⟨(h hr).recovery,(h hr).armed⟩

theorem uartSendEn61107Ident_alive (h : s.isInErrorRecovery = true → Alive s) :
    Alive (uartSendEn61107Ident s) := by
  rw [uartSendEn61107Ident]
  split
  · exact h ‹_›
  · apply uartSend_alive _ (by decide)
    exact resetEtx_alive fun hr => ⟨(h hr).recovery,(h hr).armed⟩

theorem uartSendEn61107_alive (h : s.isInErrorRecovery = true → Alive s) :
    Alive (uartSendEn61107 s) :=
  uartSend_alive (resetEtx_alive h) (by decide) _ _

theorem uartSendStandardData1_alive (h : s.isInErrorRecovery = true → Alive s) :
    Alive (uartSendStandardData1 s) :=
  uartSend_alive h (by decide) _ _

theorem uartSendStandardData2_alive (h : s.isInErrorRecovery = true → Alive s) :
    Alive (uartSendStandardData2 s) :=
  uartSend_alive h (by decide) _ _

theorem uartSendInstValues_alive (h : s.isInErrorRecovery = true → Alive s) :
    Alive (uartSendInstValues s) :=
  uartSend_alive h (by decide) _ _

theorem Alive.congr {t : State} (h : Alive s) (hu : t.uartState = s.uartState)
    (hr : t.isInErrorRecovery = s.isInErrorRecovery)
    (ht : t.receiveTimeoutTimer = s.receiveTimeoutTimer) : Alive t := by
  refine ⟨?_,?_⟩
  · simpa [hu,hr] using h.recovery
  · simpa [Waiting,hu,hr,ht] using h.armed

theorem rxChar_alive (h : Alive s) (c : UInt8) : Alive (rxChar s c) := by
  have hkeeps : (rxChar s c).uartState = s.uartState ∧
      (rxChar s c).isInErrorRecovery = s.isInErrorRecovery ∧
      (rxChar s c).receiveTimeoutTimer = s.receiveTimeoutTimer := by
    simp only [rxChar,isEodChar]
    split_ifs <;> exact ⟨rfl,rfl,rfl⟩
  exact h.congr hkeeps.1 hkeeps.2.1 hkeeps.2.2

theorem endCycle_alive (hidle : s.isInErrorRecovery = false) (io : TaskIo F) :
    Alive (endCycle b io s) := by
  have hend : (endCycle b io s).isInErrorRecovery = false := by
    simp only [endCycle,post]
    split_ifs <;> exact hidle
  refine ⟨fun _ => rfl,?_⟩
  rintro (hw | hw)
  · exact absurd rfl hw
  · exact absurd (hend.symm.trans hw) Bool.false_ne_true

theorem sendAgain_alive (hidle : s.isInErrorRecovery = false) : Alive (sendAgain s) := by
  have hno : s.isInErrorRecovery = true → Alive s := fun hr =>
    absurd (hidle.symm.trans hr) Bool.false_ne_true
  rw [sendAgain]
  split
  · exact uartSendEn61107Ident_alive hno
  · exact uartSendEn61107Ident_alive hno
  · exact uartSendInstValues_alive hno
  · exact uartSendStandardData1_alive hno
  · exact uartSendStandardData2_alive hno
  · rename_i hnone
    refine ⟨fun _ => hnone,?_⟩
    rintro (hw | hw)
    · exact absurd hnone hw
    · exact absurd (hidle.symm.trans hw) Bool.false_ne_true

theorem backOff_alive (s : State) : Alive (backOff s) :=
  ⟨fun _ => rfl,fun _ => ⟨_,Nat.min_le_right _ _,rfl⟩⟩

theorem receivedTask_alive (h : Alive s) (io : TaskIo F) : Alive (receivedTask b F io s) := by
  have hidle : s.uartState ≠ .none → s.isInErrorRecovery = false := fun hu =>
    Bool.eq_false_iff.mpr fun hr => hu (h.recovery hr)
  rw [receivedTask]
  split
  · exact h
  · exact uartSendEn61107_alive fun _ => h
  · rename_i hu
    have hread : ∀ serial serialSet, Alive (readRegisters b F io s serial serialSet) := fun _ _ =>
      h.congr rfl rfl rfl
    obtain ⟨serial,serialSet,heq | heq | heq | heq⟩ := receivedEn61107_cases b F io s
    · rw [heq]
      exact ⟨h.recovery,fun _ => ⟨retryDelayMs,by decide,rfl⟩⟩
    · rw [heq]
      exact hread _ _
    · rw [heq]
      exact uartSendStandardData1_alive fun _ => hread _ _
    · rw [heq]
      exact uartSendInstValues_alive fun _ => hread _ _
  · rw [receivedInstValues_eq]
    exact uartSendStandardData1_alive fun _ => h.congr rfl rfl rfl
  · rw [receivedStandardData1_eq]
    exact uartSendStandardData2_alive fun _ => h.congr rfl rfl rfl
  · rename_i hu
    rw [receivedStandardData2_eq]
    refine endCycle_alive ?_ io
    exact hidle (by simp [hu])

theorem next_alive (h : Alive s) {e : Event F} (he : e ≠ .destroy) : Alive (next b F s e) := by
  cases e with
  | send =>
    simp only [next,requestSend]
    split_ifs
    · exact h
    · exact h
    · exact uartSendEn61107Ident_alive fun _ => h.congr rfl rfl rfl
  | rx c => exact rxChar_alive h c
  | task io =>
    refine receivedTask_alive ?_ io
    exact h.congr rfl rfl rfl
  | timer =>
    simp only [next,receiveTimeoutTimerFunc]
    split_ifs with hr
    · exact uartSendEn61107Ident_alive fun hno => absurd hno Bool.false_ne_true
    · exact sendAgain_alive (Bool.eq_false_iff.mpr hr)
    · exact backOff_alive _
  | ota inProgress => exact h.congr rfl rfl rfl
  | destroy => exact absurd rfl he

/-- A request goes out, or the recovery begins. -/
def Resumes (s t : State) : Prop :=
  (∃ frame, t.log = s.log ++ [.send frame]) ∨
    s.isInErrorRecovery = false ∧ t.isInErrorRecovery = true

theorem uartSend_log {t : UartState} {eod : UInt8} {timeout : ℕ} {frame : List UInt8}
    (hidle : s.isInErrorRecovery = false) :
    (uartSend s t eod timeout frame).log = s.log ++ [.send frame] := by
  simp [uartSend,hidle,post]

theorem uartSendEn61107Ident_log (hidle : s.isInErrorRecovery = false) :
    (uartSendEn61107Ident s).log = s.log ++ [.send (ascii "/?!\r\n")] := by
  simp [uartSendEn61107Ident,resetEtx,uartSend_log,hidle]

theorem sendAgain_log (hidle : s.isInErrorRecovery = false) (hu : s.uartState ≠ .none) :
    ∃ frame, (sendAgain s).log = s.log ++ [.send frame] := by
  rw [sendAgain]
  split
  · exact ⟨_,uartSendEn61107Ident_log hidle⟩
  · exact ⟨_,uartSendEn61107Ident_log hidle⟩
  · exact ⟨_,uartSend_log hidle⟩
  · exact ⟨_,uartSend_log hidle⟩
  · exact ⟨_,uartSend_log hidle⟩
  · exact absurd ‹_› hu

theorem receiveTimeoutTimerFunc_resumes (hw : Waiting s) : Resumes s (receiveTimeoutTimerFunc s) := by
  simp only [receiveTimeoutTimerFunc]
  split_ifs with hr
  · exact Or.inl ⟨_,uartSendEn61107Ident_log rfl⟩
  · have hu : s.uartState ≠ .none := hw.resolve_right hr
    left
    refine sendAgain_log ?_ ?_
    · exact Bool.eq_false_iff.mpr hr
    · exact hu
  · exact Or.inr ⟨Bool.eq_false_iff.mpr hr,rfl⟩

theorem requestSend_log (hw : ¬Waiting s) (hota : s.otaInProgress = false) :
    (requestSend s).log = s.log ++ [.send (ascii "/?!\r\n")] := by
  rw [Waiting,not_or,not_not,Bool.not_eq_true] at hw
  obtain ⟨hu,hr⟩ := hw
  rw [requestSend,if_neg (by simp [hota]),if_neg (by simp [hu,hr])]
  refine uartSendEn61107Ident_log ?_
  exact hr

end Timer

theorem run_alive {b : Build} {F : Floats} {es : List (Event F)} {s : State}
    (h : Run (Guarded (fun _ e => e ≠ .destroy) (step b F)) requestInit es s) : Alive s := by
  refine h.invariant (I := Alive) ?_ ⟨fun _ => rfl,fun hw => absurd hw (by simp [Waiting,requestInit])⟩
  rintro s e t hs ⟨he,_,rfl⟩
  exact next_alive hs he

/-- In every run in which the request is not destroyed, the timer is armed while the machine
waits for the meter or for the end of a recovery; when it fires a request goes out or a recovery
begins, and while nothing is waited for a new cycle can be started. -/
theorem never_stuck {b : Build} {F : Floats} {es : List (Event F)} {s : State}
    (h : Run (Guarded (fun _ e => e ≠ .destroy) (step b F)) requestInit es s) :
    (Waiting s → ∃ delay ≤ errorRecoveryDelayMs, s.receiveTimeoutTimer = some delay) ∧
      (Waiting s → Resumes s (next b F s .timer)) ∧
      (¬Waiting s → s.otaInProgress = false →
        (next b F s .send).log = s.log ++ [.send (ascii "/?!\r\n")]) :=
  ⟨(run_alive h).armed,receiveTimeoutTimerFunc_resumes (s := { s with receiveTimeoutTimer := none }),
    requestSend_log⟩

/-- The meter does not answer the first request. -/
theorem never_stuck_silent : ∃ s,
    Run (Guarded (fun _ e => e ≠ .destroy) (step sampleBuild sampleFloats)) requestInit
      [.send,.timer,.timer] s ∧
    s.isInErrorRecovery = true ∧ ∃ delay ≤ errorRecoveryDelayMs, s.receiveTimeoutTimer = some delay := by
  have hrun : Run (Guarded (fun _ e => e ≠ .destroy) (step sampleBuild sampleFloats)) requestInit
      [.send,.timer,.timer]
      ([Event.send,.timer,.timer].foldl (next sampleBuild sampleFloats) requestInit) := by
    refine .cons ⟨by simp,trivial,rfl⟩ ?_
    refine .cons ⟨by simp,rfl,rfl⟩ ?_
    exact .single ⟨by simp,rfl,rfl⟩
  exact ⟨_,hrun,rfl,(never_stuck hrun).1 (Or.inr rfl)⟩

end En61107
end MeterLogger
