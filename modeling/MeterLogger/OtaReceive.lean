import MeterLogger.OtaIntegrity

/-!
# Received bytes

What becomes of a packet: it completes the header, it is refused, or its body bytes are hashed
and handed to the writer at the offsets that the header gives. The invariant of the download
is kept.
-/

namespace MeterLogger
namespace Ota

open CStrings FlashWriter OtaHeader

variable {P : Platform}

theorem rehashLoop_eq {io : FlashIo} {f : Flash} {fuel addr endAddr : ℕ} {ctx result : List UInt8}
    (hfuel : endAddr-addr < fuel) (h : rehashLoop io f fuel addr endAddr ctx = some result) :
    result = ctx ++ readFlash f addr (endAddr-addr) := by
  induction fuel generalizing addr ctx with
  | zero => omega
  | succ fuel ih =>
    rw [rehashLoop] at h
    by_cases hlt : addr < endAddr
    · rw [if_pos hlt] at h
      by_cases hread : io.readOk addr = true
      · simp only [hread,if_true] at h
        have hchunk : ∀ len, 0 < len → len ≤ endAddr-addr →
            rehashLoop io f fuel (addr+len) endAddr (ctx ++ readFlash f addr len) = some result →
            result = ctx ++ readFlash f addr (endAddr-addr) := by
          intro len hpos hle hloop
          have hrest : endAddr-(addr+len) = endAddr-addr-len := by omega
          have hsum : len+(endAddr-addr-len) = endAddr-addr := by omega
          rw [ih (by omega) hloop,hrest,List.append_assoc,readFlash_append,hsum]
        split at h
        · exact hchunk _ (by omega) (by omega) h
        · exact hchunk _ (by omega) (by omega) h
      · simp only [hread,Bool.false_eq_true,if_false] at h
        exact absurd h (by simp)
    · rw [if_neg hlt] at h
      have hzero : endAddr-addr = 0 := by omega
      rw [hzero,← Option.some.inj h]
      simp [readFlash]

section Writing

variable {s t : State P} {io : FlashIo} {image data : List UInt8}

/-- What writing leaves as it is. -/
structure Steady (s t : State P) : Prop where
  inProgress : t.inProgress = s.inProgress
  retryPending : t.retryPending = s.retryPending
  retryTimer : t.retryTimer = s.retryTimer
  requestOffset : t.requestOffset = s.requestOffset
  headersParsed : t.headersParsed = s.headersParsed
  phase : t.phase = s.phase
  firmwareSize : t.firmwareSize = s.firmwareSize
  firmwareSizeKnown : t.firmwareSizeKnown = s.firmwareSizeKnown
  command : commandOf t = commandOf s
  unstaged : Unstaged s → Unstaged t

theorem Steady.trans {u : State P} (h : Steady s t) (h' : Steady t u) : Steady s u where
  inProgress := h'.inProgress.trans h.inProgress
  retryPending := h'.retryPending.trans h.retryPending
  retryTimer := h'.retryTimer.trans h.retryTimer
  requestOffset := h'.requestOffset.trans h.requestOffset
  headersParsed := h'.headersParsed.trans h.headersParsed
  phase := h'.phase.trans h.phase
  firmwareSize := h'.firmwareSize.trans h.firmwareSize
  firmwareSizeKnown := h'.firmwareSizeKnown.trans h.firmwareSizeKnown
  command := h'.command.trans h.command
  unstaged := fun hu => h'.unstaged (h.unstaged hu)

/-- Either the download is given up, or the image has grown by the data. -/
structure Grown (P : Platform) (s t : State P) (image : List UInt8) : Prop where
  steady : Steady s t
  isValidBinary : t.isValidBinary = true
  receivedBytes : t.receivedBytes = image.length
  live : Live P t image

theorem writeBody_grown (hv : s.isValidBinary = true) (hlen : image.length = s.receivedBytes)
    (h : Live P s image) (io : FlashIo) (data : List UInt8) :
    Stopped s (writeBody P io s data) ∨ Grown P s (writeBody P io s data) (image ++ data) := by
  have hsum : s.receivedBytes+data.length = (image ++ data).length := by
    rw [List.length_append,hlen]
  rw [writeBody]
  generalize hu : (if s.hasSha256 then { s with shaCtx := s.shaCtx ++ data } else s) = u
  have hsteady : Steady s u ∧ u.isValidBinary = true ∧ u.receivedBytes = s.receivedBytes ∧
      u.targetBaseAddr = s.targetBaseAddr ∧ u.status = s.status ∧ u.flash = s.flash ∧
      u.hasSha256 = s.hasSha256 ∧ (s.hasSha256 = true → u.shaCtx = image ++ data) := by
    rw [← hu]
    by_cases hsha : s.hasSha256 = true
    · rw [if_pos hsha]
      refine ⟨⟨rfl,rfl,rfl,rfl,rfl,rfl,rfl,rfl,rfl,id⟩,hv,rfl,rfl,rfl,rfl,rfl,fun _ => ?_⟩
      show s.shaCtx ++ data = image ++ data
      rw [h.hashed hsha]
    · rw [if_neg hsha]
      exact ⟨⟨rfl,rfl,rfl,rfl,rfl,rfl,rfl,rfl,rfl,id⟩,hv,rfl,rfl,rfl,rfl,rfl,
        fun hyes => absurd hyes hsha⟩
  obtain ⟨hst,huv,hub,hubase,hustatus,huflash,husha,huctx⟩ := hsteady
  have hunstaged : ∀ sectors, Unstaged s → Unstaged (u.post (.writeSectors sectors)) :=
    fun _ hs => (hst.unstaged hs).post fun _ => by simp
  have hrom : u.targetRom = s.targetRom := congrArg Command.targetRom hst.command
  cases hok : io.writeOk with
  | false =>
    left
    rw [if_pos (show (!false) = true from rfl)]
    apply otaFailUpdate_stopped
    exact hunstaged (P.writer.sectors u.status data)
  | true =>
    right
    refine ⟨hst.trans ⟨rfl,rfl,rfl,rfl,rfl,rfl,rfl,rfl,rfl,fun hs => hs.post fun _ => by simp⟩,
      huv,?_,?_,?_,?_⟩
    · show u.receivedBytes+data.length = _
      rw [hub,hsum]
    · show u.targetBaseAddr = P.roms u.targetRom
      rw [hubase,hrom]
      exact h.base
    · show Writing P.writer (P.roms u.targetRom) _ (P.writer.advance u.status data)
        (P.writer.program u.status data u.flash)
      rw [hrom,hustatus,huflash]
      exact h.writing.append data
    · show u.hasSha256 = true → u.shaCtx = _
      rw [husha]
      exact huctx

theorem eraseFirst_steady (s : State P) : Steady s (eraseFirst P s) :=
  ⟨rfl,rfl,rfl,rfl,rfl,rfl,rfl,rfl,rfl,fun hs => Unstaged.post hs fun _ => by simp⟩

theorem initWriter_writing (hlen : image.length = s.receivedBytes) (h : Parked P s image) :
    Writing P.writer (P.roms s.targetRom) image (initWriter P (eraseFirst P s)).status
      (initWriter P (eraseFirst P s)).flash := by
  show Writing P.writer (P.roms s.targetRom) image
    (P.writer.init (P.roms s.targetRom+s.receivedBytes))
    (erase s.flash ((P.roms s.targetRom+s.receivedBytes)/sectorSize))
  rw [← hlen]
  exact Writing.start (P.roms_aligned _) h.aligned h.holds

theorem otaRehashFlash_eq (h : Writing P.writer s.targetBaseAddr image s.status s.flash)
    (halign : image.length%sectorSize = 0) (hbase : s.targetBaseAddr%sectorSize = 0)
    (hlen : image.length = s.receivedBytes) {ctx : List UInt8} (hsha : s.hasSha256 = true)
    (hr : otaRehashFlash io s = some ctx) : ctx = image := by
  rw [otaRehashFlash,if_pos hsha,← hlen] at hr
  have hctx := rehashLoop_eq (by omega) hr
  have hheld := h.rewind hbase
  have hwhole : image.length/sectorSize*sectorSize = image.length := by
    have hdiv := Nat.div_add_mod' image.length sectorSize
    omega
  rw [hwhole,List.take_length] at hheld
  rw [hctx,Nat.add_sub_cancel_left,List.nil_append,hheld.readFlash_eq]

theorem startWriter_spec (hlen : image.length = s.receivedBytes) (h : Parked P s image)
    (io : FlashIo) (magicByte : UInt8) :
    (Unstaged s → Unstaged (startWriter P io s magicByte).1) ∧
      ((startWriter P io s magicByte).2 = none → Grown P s (startWriter P io s magicByte).1 image) := by
  have hst := eraseFirst_steady s
  rw [startWriter]
  split
  · exact ⟨id,fun hno => absurd hno (by simp)⟩
  · cases hok : io.eraseOk with
    | false =>
      rw [if_pos (show (!false) = true from rfl)]
      exact ⟨hst.unstaged,fun hno => absurd hno (by simp)⟩
    | true =>
      rw [if_neg (show ¬(!true) = true from Bool.false_ne_true)]
      have hwriting := initWriter_writing hlen h
      cases hr : otaRehashFlash io (initWriter P (eraseFirst P s)) with
      | none =>
        simp only [hr]
        exact ⟨hst.unstaged,fun hno => absurd hno (by simp)⟩
      | some ctx =>
        have hctx : (initWriter P (eraseFirst P s)).hasSha256 = true → ctx = image := fun hsha =>
          otaRehashFlash_eq (s := initWriter P (eraseFirst P s)) hwriting h.aligned
            (P.roms_aligned _) hlen hsha hr
        simp only [hr]
        exact ⟨hst.unstaged,fun _ => ⟨hst.trans ⟨rfl,rfl,rfl,rfl,rfl,rfl,rfl,rfl,rfl,id⟩,rfl,
          hlen.symm,rfl,hwriting,hctx⟩⟩

/-- What becomes of body bytes: the download is given up, or they are accepted. -/
theorem receiveBody_spec (hl : s.retryPending = false) (hlen : image.length = s.receivedBytes)
    (h : Stored P s image) (io : FlashIo) (data : List UInt8) :
    Stopped s (receiveBody P io s data) ∨
      Steady s (receiveBody P io s data) ∧
        (receiveBody P io s data).receivedBytes = (image ++ data).length ∧
        Stored P (receiveBody P io s data) (image ++ data) := by
  have hlive : live s = s.isValidBinary := by
    rw [live,hl]
    simp
  have hgrown : ∀ t, Grown P s t (image ++ data) → Steady s t ∧
      t.receivedBytes = (image ++ data).length ∧ Stored P t (image ++ data) := by
    intro t ht
    refine ⟨ht.steady,ht.receivedBytes,?_⟩
    rw [Stored,live,ht.isValidBinary,ht.steady.retryPending,hl,if_pos (by simp)]
    exact ht.live
  rw [Stored,hlive] at h
  rw [receiveBody]
  split
  · rename_i hnil
    right
    rw [hnil,List.append_nil,Stored,hlive]
    exact ⟨⟨rfl,rfl,rfl,rfl,rfl,rfl,rfl,rfl,rfl,id⟩,hlen.symm,h⟩
  · split
    · exact Or.inl (otaFailUpdate_stopped id _ _)
    · split
      · exact Or.inl (otaFailUpdate_stopped id _ _)
      · split
        · rename_i hv
          rw [if_pos hv] at h
          exact (writeBody_grown hv hlen h io data).imp_right (hgrown _)
        · rename_i hv
          rw [if_neg hv] at h
          obtain ⟨hunstaged,hstart⟩ := startWriter_spec hlen h io (data.headD 0)
          rcases hw : startWriter P io s (data.headD 0) with ⟨u,_ | error⟩
          · rw [hw] at hunstaged hstart
            have hu := hstart rfl
            have hwrite := writeBody_grown hu.isValidBinary hu.receivedBytes.symm hu.live io data
            rcases hwrite with hstop | hgrow
            · exact Or.inl ⟨hstop.inProgress,fun hs => hstop.unstaged (hunstaged hs)⟩
            · exact Or.inr (hgrown _ ⟨hu.steady.trans hgrow.steady,hgrow.isValidBinary,
                hgrow.receivedBytes,hgrow.live⟩)
          · rw [hw] at hunstaged
            exact Or.inl (otaFailUpdate_stopped hunstaged _ _)

end Writing

section Responses

variable {s t : State P} {header : List UInt8}

/-- What an accepted header leaves as it is, and the size it gives. -/
structure Opened (s t : State P) : Prop where
  inProgress : t.inProgress = s.inProgress
  retryPending : t.retryPending = s.retryPending
  retryTimer : t.retryTimer = s.retryTimer
  phase : t.phase = s.phase
  command : commandOf t = commandOf s
  log : t.log = s.log
  size_ge : minFirmwareSize ≤ t.firmwareSize
  size_le : t.firmwareSize ≤ maxFirmwareSize

/-- A full response: the download begins again. -/
structure Whole (s t : State P) : Prop where
  requestOffset : t.requestOffset = 0
  receivedBytes : t.receivedBytes = 0
  isValidBinary : t.isValidBinary = false

/-- A partial response: what has been accepted stays. -/
structure Part (s t : State P) : Prop where
  requestOffset : t.requestOffset = s.requestOffset
  receivedBytes : t.receivedBytes = s.receivedBytes
  live : live t = live s
  same : SameImage s t

theorem passed {p : Prop} [Decidable p] {error : String} {x : State P × Option String}
    (h : (if p then (s,some error) else x).2 = none) :
    ¬p ∧ (if p then (s,some error) else x) = x := by
  by_cases hp : p
  · rw [if_pos hp] at h
    exact absurd h (by simp)
  · exact ⟨hp,if_neg hp⟩

theorem acceptWhole_spec {length : ℕ} (h : (acceptWhole s length).2 = none) :
    Opened s (acceptWhole s length).1 ∧ Whole s (acceptWhole s length).1 := by
  rw [acceptWhole] at h ⊢
  obtain ⟨hsize,heq⟩ := passed h
  rw [not_or,Nat.not_lt,Nat.not_lt] at hsize
  rw [heq]
  exact ⟨⟨rfl,rfl,rfl,rfl,rfl,rfl,hsize.1,hsize.2⟩,rfl,rfl,rfl⟩

theorem acceptRange_spec {length start stop total : ℕ}
    (h : (acceptRange s length start stop total).2 = none) :
    start = s.requestOffset ∧ Opened s (acceptRange s length start stop total).1 ∧
      Part s (acceptRange s length start stop total).1 := by
  rw [acceptRange] at h ⊢
  obtain ⟨hrange,heq₁⟩ := passed h
  rw [heq₁] at h ⊢
  obtain ⟨hsize,heq₂⟩ := passed h
  rw [heq₂] at h ⊢
  obtain ⟨_,heq₃⟩ := passed h
  rw [heq₃] at h ⊢
  obtain ⟨_,heq₄⟩ := passed h
  rw [heq₄]
  rw [not_or,Nat.not_lt,Nat.not_lt] at hsize
  rw [not_or,not_not] at hrange
  exact ⟨hrange.1,⟨rfl,rfl,rfl,rfl,rfl,rfl,hsize.1,hsize.2⟩,rfl,rfl,rfl,
    rfl,rfl,rfl,rfl,rfl,rfl,rfl⟩

/-- The kind of the response is no matter to what an accepted header leaves as it is. -/
def answered (s : State P) (code : ℕ) : State P :=
  { s with
    responseStatusCode := code
    responseRangeEnd := 0
    responseRangeTotal := 0
    responseRangeValid := false }

theorem Opened.of_answered {code : ℕ} (h : Opened (answered s code) t) : Opened s t :=
  ⟨h.inProgress,h.retryPending,h.retryTimer,h.phase,h.command,h.log,h.size_ge,h.size_le⟩

theorem Whole.of_answered {code : ℕ} (h : Whole (answered s code) t) : Whole s t :=
  ⟨h.requestOffset,h.receivedBytes,h.isValidBinary⟩

theorem Part.of_answered {code : ℕ} (h : Part (answered s code) t) : Part s t :=
  ⟨h.requestOffset,h.receivedBytes,h.live,h.same.status,h.same.targetRom,h.same.targetBaseAddr,
    h.same.shaCtx,h.same.expectedSha256₁,h.same.expectedSha256₂,h.same.flash⟩

theorem acceptWhole_log (s : State P) (length : ℕ) : (acceptWhole s length).1.log = s.log := by
  rw [acceptWhole]
  split <;> rfl

theorem acceptRange_log (s : State P) (length start stop total : ℕ) :
    (acceptRange s length start stop total).1.log = s.log := by
  rw [acceptRange]
  split
  · rfl
  · split
    · rfl
    · split
      · rfl
      · split <;> rfl

theorem acceptResponse_log (s : State P) (header : List UInt8) (code length : ℕ) :
    (acceptResponse s header code length).1.log = s.log := by
  rw [acceptResponse]
  split
  · exact acceptWhole_log _ _
  · split
    · rfl
    · exact acceptRange_log _ _ _ _ _

theorem acceptResponse_spec {s : State P} {header : List UInt8} {code : ℕ} (length : ℕ)
    (hcode : code = 200 ∨ code = 206) (hstatus : otaParseStatusCode header = some code)
    (h : (acceptResponse s header code length).2 = none) :
    Opened s (acceptResponse s header code length).1 ∧
      startOf header = some (acceptResponse s header code length).1.requestOffset ∧
      (Whole s (acceptResponse s header code length).1 ∨
        Part s (acceptResponse s header code length).1) := by
  rw [acceptResponse] at h ⊢
  rw [startOf,hstatus]
  rcases hcode with rfl | rfl
  · rw [if_pos rfl] at h ⊢
    obtain ⟨ho,hw⟩ := acceptWhole_spec (s := answered s 200) h
    refine ⟨ho.of_answered,?_,Or.inl hw.of_answered⟩
    show some 0 = some _
    exact congrArg some hw.requestOffset.symm
  · have hne : ¬(206 : ℕ) = 200 := by decide
    rw [if_neg hne] at h ⊢
    rcases hrange : contentRange header with _ | ⟨start,stop,total⟩
    · rw [hrange] at h
      exact absurd h (by simp)
    · rw [hrange] at h
      obtain ⟨hstart,ho,hp⟩ := acceptRange_spec (s := answered s 206) h
      refine ⟨ho.of_answered,?_,Or.inr hp.of_answered⟩
      show some start = some _
      exact congrArg some (hstart.trans hp.requestOffset.symm)

theorem acceptHeader_spec (s : State P) (header : List UInt8) :
    (acceptHeader s header).1.log = s.log ∧
      ((acceptHeader s header).2 = none →
        (acceptHeader s header).1.headersParsed = true ∧ Opened s (acceptHeader s header).1 ∧
          startOf header = some (acceptHeader s header).1.requestOffset ∧
          (Whole s (acceptHeader s header).1 ∨ Part s (acceptHeader s header).1)) := by
  rw [acceptHeader]
  cases hstatus : otaParseStatusCode header with
  | none => exact ⟨rfl,fun h => absurd h (by simp)⟩
  | some code =>
    dsimp only
    by_cases hrefused : code ≠ 200 ∧ code ≠ 206
    · rw [if_pos hrefused]
      exact ⟨rfl,fun h => absurd h (by simp)⟩
    · rw [if_neg hrefused]
      have hcode : code = 200 ∨ code = 206 := by omega
      cases hlength : contentLength header with
      | none => exact ⟨rfl,fun h => absurd h (by simp)⟩
      | some length =>
        dsimp only
        have hlog := acceptResponse_log s header code length
        have hspec := acceptResponse_spec (s := s) length hcode hstatus
        rcases hr : acceptResponse s header code length with ⟨t,_ | error⟩
        · rw [hr] at hlog hspec
          obtain ⟨ho,hstart,hkind⟩ := hspec rfl
          refine ⟨hlog,fun _ => ⟨rfl,?_,hstart,?_⟩⟩
          · exact ⟨ho.inProgress,ho.retryPending,ho.retryTimer,ho.phase,ho.command,ho.log,
              ho.size_ge,ho.size_le⟩
          · rcases hkind with hw | hp
            · exact Or.inl ⟨hw.requestOffset,hw.receivedBytes,hw.isValidBinary⟩
            · exact Or.inr ⟨hp.requestOffset,hp.receivedBytes,hp.live,hp.same.status,
                hp.same.targetRom,hp.same.targetBaseAddr,hp.same.shaCtx,hp.same.expectedSha256₁,
                hp.same.expectedSha256₂,hp.same.flash⟩
        · rw [hr] at hlog
          exact ⟨hlog,fun h => absurd h (by simp)⟩

end Responses

section Receiving

theorem collectHeader_eq {s : State P} (hshort : s.headerBuffer.length < otaMaxHeaderSize-1)
    (data : List UInt8) :
    collectHeader s data =
      { s with headerBuffer := (s.headerBuffer ++ data).take (otaMaxHeaderSize-1) } := by
  rw [collectHeader,List.take_append,List.take_of_length_le (l := s.headerBuffer) (by omega)]
  split
  · rfl
  · rw [List.take_of_length_le (l := data) le_rfl,List.take_of_length_le (l := data) (by omega)]

theorem endHeader_spec {u : State P} {stream data : List UInt8} {n : ℕ}
    (hbuffer : u.headerBuffer = (stream ++ data).take (otaMaxHeaderSize-1))
    (hn : totalHeaderSize ((stream ++ data).take (otaMaxHeaderSize-1)) = some n) :
    (∃ t, endHeader u data stream.length n = (t,none) ∧ Stopped u t) ∨
      ∃ t, endHeader u data stream.length n = (t,some ((stream ++ data).drop n)) ∧
        stream.length ≤ n ∧ n ≤ (stream ++ data).length ∧
        bodyStart (stream ++ data) = some (n,t.requestOffset) ∧
        t.headersParsed = true ∧ Opened u t ∧ (Whole u t ∨ Part u t) := by
  have hle : n ≤ ((stream ++ data).take (otaMaxHeaderSize-1)).length := (totalHeaderSize_spec hn).1
  rw [List.length_take] at hle
  have htake : ((stream ++ data).take (otaMaxHeaderSize-1)).take n = (stream ++ data).take n := by
    rw [List.take_take,Nat.min_eq_left (by omega)]
  rw [endHeader,hbuffer,acceptHeader_take hn,htake]
  obtain ⟨hlog,hspec⟩ := acceptHeader_spec u ((stream ++ data).take n)
  rcases ha : acceptHeader u ((stream ++ data).take n) with ⟨t,_ | error⟩
  · rw [ha] at hlog hspec
    obtain ⟨hheaders,hopened,hstart,hkind⟩ := hspec rfl
    have ht : Unstaged u → Unstaged t := fun hs rom hm => hs rom (hlog ▸ hm)
    dsimp only
    split
    · exact Or.inl ⟨_,rfl,otaFailUpdate_stopped ht _ _⟩
    · split
      · exact Or.inl ⟨_,rfl,otaFailUpdate_stopped ht _ _⟩
      · have hdrop : data.drop (n-stream.length) = (stream ++ data).drop n := by
          rw [List.drop_append,List.drop_of_length_le (l := stream) (by omega),List.nil_append]
        rw [hdrop]
        exact Or.inr ⟨t,rfl,by omega,by omega,bodyStart_eq hn hstart,hheaders,hopened,hkind⟩
  · rw [ha] at hlog
    exact Or.inl ⟨_,rfl,otaFailUpdate_stopped (fun hs rom hm => hs rom (hlog ▸ hm)) _ _⟩

variable {c : Command} {w : World P} {stream data : List UInt8} {delivered : ℕ → Option UInt8}
  {n start : ℕ}

theorem bodyStart_take (h : bodyStart stream = some (n,start)) :
    bodyStart (stream.take n) = some (n,start) := by
  rw [bodyStart,Option.bind_eq_some_iff] at h
  obtain ⟨m,hm,hs⟩ := h
  rw [Option.map_eq_some_iff] at hs
  obtain ⟨start',hs,heq⟩ := hs
  obtain ⟨rfl,rfl⟩ := Prod.mk.inj heq
  have hle := (totalHeaderSize_spec hm).1
  rw [List.length_take] at hle
  have htake : (stream.take m).take (otaMaxHeaderSize-1) = (stream.take (otaMaxHeaderSize-1)).take m := by
    rw [List.take_take,List.take_take,Nat.min_comm]
  apply bodyStart_eq
  · rw [← List.take_append_drop m (stream.take (otaMaxHeaderSize-1))] at hm
    rw [htake]
    apply totalHeaderSize_of_append hm
    rw [List.length_take,List.length_take]
    omega
  · rw [List.take_take,Nat.min_self]
    exact hs

theorem deliver_take (hb : bodyStart (stream ++ data) = some (n,start)) (hle : stream.length ≤ n) :
    deliver stream data delivered =
      deliver ((stream ++ data).take n) ((stream ++ data).drop n) delivered := by
  have hzero : stream.length-n = ((stream ++ data).take n).length-n := by
    rw [List.length_take]
    omega
  rw [deliver,deliver,List.take_append_drop,hb]
  dsimp only
  rw [hzero]

/-- The body bytes of a packet are delivered at the offsets behind those accepted before. -/
theorem deliver_grown {image : List UInt8} (hb : bodyStart (stream ++ data) = some (n,start))
    (hn : n ≤ stream.length) (hlen : image.length = start+(stream.length-n))
    (h : ∀ i (hi : i < image.length), delivered i = some image[i]) (i : ℕ)
    (hi : i < (image ++ data).length) :
    deliver stream data delivered i = some (image ++ data)[i] := by
  have htotal : (stream ++ data).length = stream.length+data.length := List.length_append
  rw [List.length_append] at hi
  rw [deliver,hb]
  dsimp only
  by_cases hold : i < image.length
  · rw [if_neg (by omega),List.getElem_append_left hold]
    exact h i hold
  · have hindex : n+(i-start)-stream.length = i-image.length := by omega
    rw [if_pos (by omega),List.getElem_append_right (by omega),
      List.getElem?_append_right (by omega),hindex,List.getElem?_eq_getElem (by omega)]

theorem Good.body (h : Good P c w) (hl : Listening w.ota) (hphase : w.ota.phase = .established)
    (hheaders : w.ota.headersParsed = true) (hb : InBody w n) (data : List UInt8) (io : FlashIo) :
    Inv P c ⟨receiveBody P io w.ota data,w.stream ++ data,deliver w.stream data w.delivered⟩ := by
  obtain ⟨image,ha⟩ := h.accepted
  have hstart := bodyStart_append hb.start data
  have hlen := ha.length.trans hb.received
  rcases receiveBody_spec hl.retryPending ha.length ha.stored io data with hstop | ⟨hs,hbytes,hstored⟩
  · exact Inv.stopped hstop.inProgress (hstop.unstaged h.unstaged) _ _
  · have hbody : InBody ⟨receiveBody P io w.ota data,w.stream ++ data,
        deliver w.stream data w.delivered⟩ n := by
      refine ⟨?_,?_,?_⟩
      · rw [hs.requestOffset]
        exact hstart
      · rw [List.length_append]
        exact Nat.le_add_right_of_le hb.header_le
      · have hle := hb.header_le
        show (receiveBody P io w.ota data).receivedBytes =
          (receiveBody P io w.ota data).requestOffset+((w.stream ++ data).length-n)
        rw [hbytes,hs.requestOffset,List.length_append,List.length_append,hlen]
        omega
    apply Inv.goes (hs.inProgress.trans hl.inProgress)
    refine ⟨⟨image ++ data,hbytes.symm,?_,hstored⟩,?_,fun _ => ⟨?_,?_,?_⟩,?_,?_,?_⟩
    · exact deliver_grown hstart hb.header_le hlen ha.delivered
    · show (receiveBody P io w.ota data).firmwareSizeKnown = true →
        _ ≤ (receiveBody P io w.ota data).firmwareSize ∧ (receiveBody P io w.ota data).firmwareSize ≤ _
      rw [hs.firmwareSizeKnown,hs.firmwareSize]
      exact h.size
    · intro hno
      exact absurd (hs.phase.trans hphase) hno
    · intro _ hno
      exact absurd (hno.symm.trans (hs.headersParsed.trans hheaders)) (by decide)
    · exact fun _ _ => ⟨n,hbody⟩
    · show (receiveBody P io w.ota data).retryTimer = true → (receiveBody P io w.ota data).retryPending = true
      rw [hs.retryTimer,hs.retryPending]
      exact h.armed
    · exact hs.unstaged h.unstaged
    · exact hs.command.trans h.command

theorem Good.opened {t : State P} {buffer : List UInt8} (h : Good P c w)
    (hphase : w.ota.phase = .established) (hoffset : w.ota.requestOffset = w.ota.receivedBytes)
    (ho : Opened { w.ota with headerBuffer := buffer } t) (hheaders : t.headersParsed = true)
    (hkind : Whole { w.ota with headerBuffer := buffer } t ∨
      Part { w.ota with headerBuffer := buffer } t)
    (hb : bodyStart stream = some (n,t.requestOffset)) (hn : n = stream.length) :
    Good P c ⟨t,stream,w.delivered⟩ ∧ InBody ⟨t,stream,w.delivered⟩ n := by
  have hoffset' : t.receivedBytes = t.requestOffset := by
    rcases hkind with hw | hp
    · rw [hw.receivedBytes,hw.requestOffset]
    · rw [hp.receivedBytes,hp.requestOffset]
      exact hoffset.symm
  have hbody : InBody ⟨t,stream,w.delivered⟩ n := by
    refine ⟨hb,hn.le,?_⟩
    show t.receivedBytes = t.requestOffset+(stream.length-n)
    rw [hn,Nat.sub_self]
    exact hoffset'
  refine ⟨⟨?_,fun _ => ⟨ho.size_ge,ho.size_le⟩,fun _ => ⟨?_,?_,?_⟩,?_,?_,?_⟩,hbody⟩
  · rcases hkind with hw | hp
    · refine ⟨[],hw.receivedBytes.symm,fun i hi => absurd hi (Nat.not_lt_zero i),?_⟩
      rw [Stored,live,hw.isValidBinary]
      exact ⟨rfl,Holds.nil _ _⟩
    · obtain ⟨image,ha⟩ := h.accepted
      have hcollected := ha.of_same (t := { w.ota with headerBuffer := buffer })
        ⟨rfl,rfl,rfl,rfl,rfl,rfl,rfl⟩ rfl rfl stream
      exact ⟨image,hcollected.of_same hp.same hp.live hp.receivedBytes stream⟩
  · intro hno
    exact absurd (ho.phase.trans hphase) hno
  · intro _ hno
    exact absurd (hno.symm.trans hheaders) (by decide)
  · exact fun _ _ => ⟨n,hbody⟩
  · show t.retryTimer = true → t.retryPending = true
    rw [ho.retryTimer,ho.retryPending]
    exact h.armed
  · exact fun rom hm => h.unstaged rom (ho.log ▸ hm)
  · exact ho.command.trans h.command

theorem Good.collected (h : Good P c w) (hl : Listening w.ota) (hphase : w.ota.phase = .established)
    (hparsed : w.ota.headersParsed = false) (hh : InHeader w)
    (hshort : (w.stream ++ data).length < otaMaxHeaderSize-1)
    (hn : totalHeaderSize (w.stream ++ data) = none) :
    Inv P c ⟨{ w.ota with headerBuffer := w.stream ++ data },w.stream ++ data,
      deliver w.stream data w.delivered⟩ := by
  have hnone : deliver w.stream data w.delivered = w.delivered := by
    rw [deliver,bodyStart,List.take_of_length_le (by omega),hn]
    rfl
  obtain ⟨image,ha⟩ := h.accepted
  have haccepted := ha.of_same (t := { w.ota with headerBuffer := w.stream ++ data })
    ⟨rfl,rfl,rfl,rfl,rfl,rfl,rfl⟩ rfl rfl (w.stream ++ data)
  rw [hnone]
  refine Inv.goes hl.inProgress ⟨⟨image,haccepted⟩,h.size,fun _ => ⟨?_,?_,?_⟩,h.armed,h.unstaged,
    h.command⟩
  · exact fun hno => absurd hphase hno
  · exact fun _ _ => ⟨rfl,hshort,hn,hh.offset⟩
  · exact fun _ hno => absurd (hparsed.symm.trans hno) (by decide)

theorem Good.packet (h : Good P c w) (hl : Listening w.ota) (hphase : w.ota.phase = .established)
    (data : List UInt8) (io : FlashIo) :
    Inv P c ⟨match receiveHeader w.ota data with
      | (s,none) => s
      | (s,some body) => receiveBody P io s body,w.stream ++ data,
      deliver w.stream data w.delivered⟩ := by
  rw [receiveHeader]
  cases hparsed : w.ota.headersParsed with
  | true =>
    obtain ⟨n,hb⟩ := (h.connection hl.retryPending).body hphase hparsed
    exact h.body hl hphase hparsed hb data io
  | false =>
    have hh := (h.connection hl.retryPending).header hphase hparsed
    have hcollect := collectHeader_eq (s := w.ota) (hh.buffer ▸ hh.short) data
    rw [if_neg Bool.false_ne_true,hh.buffer] at *
    dsimp only
    rw [hcollect]
    dsimp only
    cases hn : totalHeaderSize ((w.stream ++ data).take (otaMaxHeaderSize-1)) with
    | none =>
      dsimp only
      by_cases hfull : otaMaxHeaderSize-1 ≤ ((w.stream ++ data).take (otaMaxHeaderSize-1)).length
      · rw [if_pos hfull]
        have hunstaged : Unstaged { w.ota with
          headerBuffer := (w.stream ++ data).take (otaMaxHeaderSize-1) } := h.unstaged
        exact Inv.stopped (otaFailUpdate_inProgress _ _ _) (hunstaged.fail _ _) _ _
      · rw [if_neg hfull]
        rw [List.length_take] at hfull
        have htake : (w.stream ++ data).take (otaMaxHeaderSize-1) = w.stream ++ data :=
          List.take_of_length_le (by omega)
        rw [htake] at hn ⊢
        exact h.collected hl hphase hparsed hh (by omega) hn
    | some n =>
      dsimp only
      rcases endHeader_spec (u := { w.ota with
          headerBuffer := (w.stream ++ data).take (otaMaxHeaderSize-1) }) rfl hn with
        ⟨t,ht,hstop⟩ | ⟨t,ht,hle,hle',hstart,hheaders,ho,hkind⟩
      · rw [ht]
        exact Inv.stopped hstop.inProgress (hstop.unstaged h.unstaged) _ _
      · rw [ht,deliver_take hstart hle]
        have hlength : n = ((w.stream ++ data).take n).length := by
          rw [List.length_take]
          omega
        obtain ⟨hgood,hbody⟩ := h.opened hphase hh.offset ho hheaders hkind
          (bodyStart_take hstart) hlength
        have hinv := hgood.body ⟨ho.inProgress.trans hl.inProgress,ho.retryPending.trans hl.retryPending⟩
          (ho.phase.trans hphase) hheaders hbody ((w.stream ++ data).drop n) io
        rw [List.take_append_drop] at hinv
        exact hinv

theorem Good.touched (h : Good P c w) (timer : Bool) (progress : ℕ) {log : List Action}
    (hlog : ∀ rom, .setTempRom rom ∉ log) :
    Good P c ⟨{ w.ota with timeoutTimer := timer, lastReportedProgress := progress, log := log },
      w.stream,w.delivered⟩ := by
  obtain ⟨image,ha⟩ := h.accepted
  have haccepted := ha.of_same (t := { w.ota with
    timeoutTimer := timer, lastReportedProgress := progress, log := log })
    ⟨rfl,rfl,rfl,rfl,rfl,rfl,rfl⟩ rfl rfl w.stream
  refine ⟨⟨image,haccepted⟩,h.size,fun hp => ⟨?_,?_,?_⟩,h.armed,hlog,h.command⟩
  · exact (h.connection hp).quiet
  · intro hphase hparsed
    have hh := (h.connection hp).header hphase hparsed
    exact ⟨hh.buffer,hh.short,hh.unended,hh.offset⟩
  · intro hphase hparsed
    obtain ⟨n,hb⟩ := (h.connection hp).body hphase hparsed
    exact ⟨n,hb.start,hb.header_le,hb.received⟩

theorem Inv.received (h : Inv P c w) (hphase : w.ota.phase = .established) (data : List UInt8)
    (io : FlashIo) : Inv P c (worldNext P w (.received data io)) := by
  rw [worldNext,next,otaTcpRecvCb]
  by_cases hl : Listening w.ota
  · have hg := (h.good hl.inProgress).touched true w.ota.lastReportedProgress
      (h.good hl.inProgress).unstaged
    rw [hl.guard,if_neg Bool.false_ne_true,if_neg Bool.false_ne_true]
    exact hg.packet ⟨hl.inProgress,hl.retryPending⟩ hphase data io
  · rw [not_listening hl,if_pos rfl,if_pos rfl]
    exact h

end Receiving

end Ota
end MeterLogger
