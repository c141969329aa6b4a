import MeterLogger.Kmp
import MeterLogger.MeterFifo

/-!
# Reception of KMP frames

The receive interrupt puts each byte into the fifo and posts an event for every stop byte;
the task that runs for an event takes everything out of the fifo and hands it to
`kmp_decode_frame`. The bytes of the meter are cut into pieces by the interrupts, and the
task runs somewhere between them.
-/

namespace MeterLogger
namespace KmpReceive

open Kmp MeterFifo Runs

def kmpReceivedTaskQueueLength : ℕ := 64

/-- The fifo, the events posted to the task, the bytes still to come from the meter, and the
messages handed to `kmp_decode_frame`. -/
structure Uart where
  fifo : Fifo
  posted : ℕ
  line : List UInt8
  decoded : List (List UInt8)

def isStop (c : UInt8) : Bool := c = 0x0d || c = 0x06

def rxChar (s : Uart) (c : UInt8) : Uart :=
  { s with
    fifo := (kmpFifoPut s.fifo c).1
    posted :=
      if isStop c then min (s.posted+1) kmpReceivedTaskQueueLength else s.posted }

/-- `uart0_rx_intr_handler` for the bytes the hardware has received. -/
def uart0RxIntrHandler (s : Uart) (piece : List UInt8) : Uart := piece.foldl rxChar s

/-- `while (kmp_fifo_get(&c) && (i < KMP_FRAME_L))`: past the limit a byte is still taken. -/
def drain : ℕ → Fifo → List UInt8 × Fifo
  | 0, f => ([],((kmpFifoGet f).map (·.2)).getD f)
  | n+1, f =>
    match kmpFifoGet f with
    | none => ([],f)
    | some (c,f') => (c::(drain n f').1,(drain n f').2)

/-- `kmp_received_task` up to the call of `kmp_decode_frame`. -/
def kmpReceivedTask (s : Uart) : Uart :=
  { s with
    fifo := (drain kmpFrameL s.fifo).2
    posted := s.posted-1
    decoded := s.decoded ++ [(drain kmpFrameL s.fifo).1] }

inductive Event
  | rx (n : ℕ)
  | task
  deriving DecidableEq

/-- An interrupt delivers a nonempty piece of the stream that fits the fifo; the task runs
for a posted event. -/
def step (s : Uart) (e : Event) (t : Uart) : Prop :=
  match e with
  | .rx n =>
    0 < n ∧ n ≤ s.line.length ∧ s.fifo.fillCount+n ≤ queueSize ∧
      t = { uart0RxIntrHandler s (s.line.take n) with line := s.line.drop n }
  | .task => 0 < s.posted ∧ t = kmpReceivedTask s

def start (line : List UInt8) : Uart := ⟨boot,0,line,[]⟩

/-- A reply of the meter: at least destination and command, and the right checksum. -/
def ReplyFrame (frame : List UInt8) : Prop :=
  ∃ body : List UInt8, 2 ≤ body.length ∧ frame = wire 0x40 (checked body)

theorem uart0RxIntrHandler_spec {s : Uart} (hf : Valid s.fifo) (piece : List UInt8)
    (hfit : s.fifo.fillCount+piece.length ≤ queueSize) :
    Valid (uart0RxIntrHandler s piece).fifo ∧
      contents (uart0RxIntrHandler s piece).fifo = contents s.fifo ++ piece ∧
      (uart0RxIntrHandler s piece).posted =
        piece.foldl (fun n c => if isStop c then min (n+1) kmpReceivedTaskQueueLength else n)
          s.posted ∧
      (uart0RxIntrHandler s piece).decoded = s.decoded := by
  induction piece generalizing s with
  | nil => exact ⟨hf,by simp [uart0RxIntrHandler],rfl,rfl⟩
  | cons c piece ih =>
    simp only [List.length_cons] at hfit
    obtain ⟨_,hvalid,hcont⟩ := fifoPut_room hf (by omega) c
    have hfill : (fifoPut s.fifo c).1.fillCount = s.fifo.fillCount+1 := by
      have hlen := congrArg List.length hcont
      simpa using hlen
    obtain ⟨hv,hc,hp,hd⟩ := ih (s := rxChar s c) hvalid (by
      show (fifoPut s.fifo c).1.fillCount+piece.length ≤ queueSize
      omega)
    refine ⟨hv,hc.trans ?_,hp,hd⟩
    show contents (fifoPut s.fifo c).1 ++ piece = _
    rw [hcont,List.append_assoc]
    rfl

theorem drain_spec {f : Fifo} (hf : Valid f) {n : ℕ} (hn : f.fillCount < n) :
    (drain n f).1 = contents f ∧ Valid (drain n f).2 ∧ contents (drain n f).2 = [] := by
  induction n generalizing f with
  | zero => omega
  | succ n ih =>
    cases hq : contents f with
    | nil =>
      have hget : kmpFifoGet f = none := fifoGet_nil hq
      rw [drain,hget]
      exact ⟨rfl,hf,hq⟩
    | cons c q =>
      obtain ⟨f',hget,hvalid,hcont⟩ := fifoGet_cons hf hq
      have hget' : kmpFifoGet f = some (c,f') := hget
      have hlen := congrArg List.length hq
      have hlen' := congrArg List.length hcont
      simp only [contents_length,List.length_cons] at hlen hlen'
      obtain ⟨hd,hv,he⟩ := ih hvalid (by omega)
      have hstep : drain (n+1) f = (c::(drain n f').1,(drain n f').2) := by
        rw [drain,hget']
      rw [hstep,hd,hcont]
      exact ⟨rfl,hv,he⟩

theorem stop_reserved (b : UInt8) (h : isStop b = true) : kmpCode.reserved b = true := by
  revert h
  show isStop b = true → reserved b = true
  revert b
  exact Bytes.forall_byte (by decide +kernel)

theorem ReplyFrame.stop_last {frame : List UInt8} (h : ReplyFrame frame) :
    ∃ front, frame = front ++ [0x0d] ∧ ∀ b ∈ front, isStop b = false := by
  obtain ⟨body,_,rfl⟩ := h
  refine ⟨0x40::kmpCode.stuff (checked body),rfl,?_⟩
  intro b hb
  rcases List.mem_cons.mp hb with rfl | hb
  · decide
  · rw [Bool.eq_false_iff]
    intro hstop
    rw [kmpCode.stuff_reserved hb (stop_reserved b hstop)] at hstop
    exact absurd hstop (by decide)

theorem length_le_of_no_stop {text front ys zs : List UInt8} (htext : ∀ b ∈ text, isStop b = false)
    (h : text ++ ys = front ++ 0x0d::zs) : text.length ≤ front.length := by
  by_contra hlt
  have hfront : front ++ [0x0d] <+: text ++ ys := by
    rw [h]
    exact ⟨zs,by simp⟩
  have hpre : front ++ [0x0d] <+: text := by
    apply List.prefix_of_prefix_length_le hfront (List.prefix_append _ _)
    simp only [List.length_append,List.length_singleton]
    omega
  have hmem : (0x0d : UInt8) ∈ text := hpre.subset (by simp)
  exact absurd (htext _ hmem) (by decide)

theorem first_stop {text front ys zs : List UInt8} {b : UInt8} (hb : isStop b = true)
    (htext : ∀ c ∈ text, isStop c = false) (hfront : ∀ c ∈ front, isStop c = false)
    (h : text ++ b::ys = front ++ 0x0d::zs) : text = front ∧ b = 0x0d ∧ ys = zs := by
  have hle := length_le_of_no_stop htext h
  have hge : front.length ≤ text.length := by
    by_contra hlt
    have htext' : text ++ [b] <+: front ++ 0x0d::zs := by
      rw [← h]
      exact ⟨ys,by simp⟩
    have hpre : text ++ [b] <+: front := by
      apply List.prefix_of_prefix_length_le htext' (List.prefix_append _ _)
      simp only [List.length_append,List.length_singleton]
      omega
    have hmem : b ∈ front := hpre.subset (by simp)
    rw [hfront b hmem] at hb
    cases hb
  obtain ⟨hfirst,hrest⟩ := List.append_inj h (by omega)
  exact ⟨hfirst,List.cons.inj hrest⟩

/-- The next bytes come after the task has run for the last frame, and a piece does not go
past the end of a frame. -/
def Calm (s : Uart) (e : Event) : Prop :=
  ∀ n, e = .rx n → s.posted = 0 ∧ ∀ b ∈ (s.line.take n).dropLast, isStop b = false

/-- The frames behind those decoded: one may be in the fifo, whole with its event posted or
in part. -/
structure InStep (frames : List (List UInt8)) (s : Uart) : Prop where
  valid : Valid s.fifo
  split : ∃ rest, frames = s.decoded ++ rest ∧ contents s.fifo ++ s.line = rest.flatten ∧
    ((s.posted = 0 ∧ (rest = [] ∨ ∃ frame more, rest = frame::more ∧
        (contents s.fifo).length < frame.length)) ∨
      (s.posted = 1 ∧ ∃ more, rest = contents s.fifo::more))

theorem posted_quiet (piece : List UInt8) (n : ℕ) (h : ∀ b ∈ piece, isStop b = false) :
    piece.foldl (fun n c => if isStop c then min (n+1) kmpReceivedTaskQueueLength else n) n = n := by
  induction piece with
  | nil => rfl
  | cons c piece ih =>
    rw [List.foldl_cons,h c (by simp)]
    exact ih fun b hb => h b (by simp [hb])

theorem inStep_rx {frames : List (List UInt8)} (hframes : ∀ frame ∈ frames, ReplyFrame frame)
    {s t : Uart} {n : ℕ} (h : InStep frames s) (hcalm : Calm s (.rx n)) (hstep : step s (.rx n) t) :
    InStep frames t := by
  obtain ⟨hpos,hle,hfit,rfl⟩ := hstep
  obtain ⟨hposted,hquiet⟩ := hcalm n rfl
  obtain ⟨hvalid,rest,hsplit,hstream,hstate⟩ := h
  have htake : (s.line.take n).length = n := by
    rw [List.length_take]
    omega
  -- The piece is its last byte behind bytes that end no frame.
  obtain ⟨front,b,hpiece⟩ : ∃ front b, s.line.take n = front ++ [b] := by
    have hne : s.line.take n ≠ [] := List.ne_nil_of_length_pos (by omega)
    exact ⟨_,_,(List.dropLast_concat_getLast hne).symm⟩
  rw [hpiece,List.dropLast_concat] at hquiet
  have hline : s.line = front ++ b::s.line.drop n := by
    conv_lhs => rw [← List.take_append_drop n s.line,hpiece,List.append_assoc]
    rfl
  obtain ⟨frame,more,rfl,hpart⟩ : ∃ frame more, rest = frame::more ∧
      (contents s.fifo).length < frame.length := by
    rcases hstate with ⟨_,rfl | hrest⟩ | ⟨hone,_⟩
    · rw [hline] at hstream
      simp at hstream
    · exact hrest
    · omega
  have hin : frame ∈ frames := by rw [hsplit]; simp
  obtain ⟨before,rfl,hbefore⟩ := (hframes frame hin).stop_last
  simp only [List.length_append,List.length_singleton] at hpart
  -- What is in the fifo is a part of the frame before its stop byte.
  rw [hline,List.flatten_cons,List.append_assoc,List.singleton_append] at hstream
  have hcontents : ∀ c ∈ contents s.fifo, isStop c = false := by
    have hqueued : contents s.fifo <+: before ++ 0x0d::more.flatten := by
      rw [← hstream]
      exact List.prefix_append _ _
    have hpre : contents s.fifo <+: before := by
      apply List.prefix_of_prefix_length_le hqueued (List.prefix_append _ _)
      omega
    exact fun c hc => hbefore c (hpre.subset hc)
  have htext : ∀ c ∈ contents s.fifo ++ front, isStop c = false := by
    intro c hc
    rcases List.mem_append.mp hc with hc | hc
    · exact hcontents c hc
    · exact hquiet c hc
  obtain ⟨hvalid',hcont',hposted',hdecoded'⟩ :=
    uart0RxIntrHandler_spec hvalid (s.line.take n) (by omega)
  rw [hpiece] at hcont' hposted'
  rw [← List.append_assoc] at hcont' hstream
  rw [List.foldl_append,posted_quiet front _ hquiet,hposted] at hposted'
  refine ⟨hvalid',(before ++ [0x0d])::more,?_,?_,?_⟩
  · simp only [hdecoded']
    exact hsplit
  · simp only [hpiece,hcont']
    rw [List.append_assoc,List.singleton_append,hstream]
    simp
  · simp only [hpiece,hcont',hposted',List.foldl_cons,List.foldl_nil]
    by_cases hb : isStop b = true
    · obtain ⟨hall,rfl,_⟩ := first_stop hb htext hbefore hstream
      right
      rw [if_pos hb,hall]
      exact ⟨rfl,more,rfl⟩
    · left
      rw [if_neg hb]
      refine ⟨rfl,Or.inr ⟨_,more,rfl,?_⟩⟩
      have hquiet' : ∀ c ∈ contents s.fifo ++ front ++ [b], isStop c = false := by
        intro c hc
        rcases List.mem_append.mp hc with hc | hc
        · exact htext c hc
        · rw [List.mem_singleton.mp hc]
          exact Bool.eq_false_iff.mpr hb
      have hstream' : contents s.fifo ++ front ++ [b] ++ s.line.drop n =
          before ++ 0x0d::more.flatten := by
        simpa using hstream
      have hlt := length_le_of_no_stop hquiet' hstream'
      simp only [List.length_append,List.length_singleton] at hlt ⊢
      omega

theorem inStep_task {frames : List (List UInt8)} {s t : Uart} (h : InStep frames s)
    (hframes : ∀ frame ∈ frames, ReplyFrame frame) (hstep : step s .task t) : InStep frames t := by
  obtain ⟨hpos,rfl⟩ := hstep
  obtain ⟨hvalid,rest,hsplit,hstream,hstate⟩ := h
  obtain ⟨hone,more,rfl⟩ : s.posted = 1 ∧ ∃ more, rest = contents s.fifo::more := by
    rcases hstate with ⟨hzero,_⟩ | hone
    · omega
    · exact hone
  have hfill := hvalid.fill_le
  obtain ⟨hmessage,hvalid',hempty⟩ := drain_spec hvalid (n := kmpFrameL) (by
    simp only [queueSize,kmpFrameL] at *
    omega)
  refine ⟨hvalid',more,?_,?_,Or.inl ⟨by simp [kmpReceivedTask,hone],?_⟩⟩
  · simp only [kmpReceivedTask,hmessage]
    rw [hsplit,List.append_assoc,List.singleton_append]
  · simp only [kmpReceivedTask,hempty]
    rw [List.flatten_cons] at hstream
    exact List.append_cancel_left hstream
  · simp only [kmpReceivedTask,hempty,List.length_nil]
    cases more with
    | nil => exact Or.inl rfl
    | cons frame more =>
      have hin : frame ∈ frames := by rw [hsplit]; simp
      obtain ⟨front,rfl,_⟩ := (hframes frame hin).stop_last
      exact Or.inr ⟨_,more,rfl,by simp⟩

theorem inStep_start {frames : List (List UInt8)} (hframes : ∀ frame ∈ frames, ReplyFrame frame) :
    InStep frames (start frames.flatten) := by
  refine ⟨valid_boot,frames,rfl,rfl,Or.inl ⟨rfl,?_⟩⟩
  cases frames with
  | nil => exact Or.inl rfl
  | cons frame more =>
    obtain ⟨front,hfront,_⟩ := (hframes frame (by simp)).stop_last
    exact Or.inr ⟨frame,more,rfl,by rw [hfront]; simp [contents,start,boot]⟩

/-- While the interrupts keep to the frames and wait for the task, the messages decoded are
the frames, whole and in order, and all of them once everything has been taken. -/
theorem frames_decoded {frames : List (List UInt8)} (hframes : ∀ frame ∈ frames, ReplyFrame frame)
    {es : List Event} {s : Uart} (h : Run (Guarded Calm step) (start frames.flatten) es s) :
    s.decoded <+: frames ∧ (s.line = [] → s.posted = 0 → s.decoded = frames) := by
  have hinv : InStep frames s := by
    refine h.invariant (I := InStep frames) ?_ (inStep_start hframes)
    intro s e t hs hstep
    cases e with
    | rx n => exact inStep_rx hframes hs hstep.1 hstep.2
    | task => exact inStep_task hs hframes hstep.2
  obtain ⟨_,rest,hsplit,hstream,hstate⟩ := hinv
  refine ⟨⟨rest,hsplit.symm⟩,?_⟩
  intro hline hposted
  rcases hstate with ⟨_,rfl | ⟨frame,more,rfl,hlt⟩⟩ | ⟨hone,_⟩
  · rw [hsplit,List.append_nil]
  · rw [hline,List.append_nil] at hstream
    have hlen := congrArg List.length hstream
    simp only [List.flatten_cons,List.length_append] at hlen
    omega
  · omega

def typeReply : List UInt8 := wire 0x40 (checked [0x3f,0x01,0x12,0x34,0x05,0x07])

theorem replyFrame_typeReply : ReplyFrame typeReply := ⟨_,by decide,rfl⟩

/-- Two replies, the first in two pieces and the second after the task has run. -/
theorem frames_decoded_pieces : ∃ s,
    Run (Guarded Calm step) (start [typeReply,typeReply].flatten)
      [.rx 4,.rx 6,.task,.rx 10,.task] s ∧ s.line = [] ∧ s.posted = 0 ∧
      s.decoded = [typeReply,typeReply] := by
  have hrx : ∀ {s : Uart} (n : ℕ), s.posted = 0 → (∀ b ∈ (s.line.take n).dropLast, isStop b = false) →
      Calm s (.rx n) := fun n hposted hquiet m hm => by
    cases hm
    exact ⟨hposted,hquiet⟩
  have htask : ∀ {s : Uart}, Calm s .task := fun _ h => nomatch h
  have hrun : ∃ s, Run (Guarded Calm step) (start [typeReply,typeReply].flatten)
      [.rx 4,.rx 6,.task,.rx 10,.task] s ∧ s.line = [] ∧ s.posted = 0 := by
    refine ⟨_,.cons ⟨hrx 4 ?_ ?_,?_,?_,?_,rfl⟩ (.cons ⟨hrx 6 ?_ ?_,?_,?_,?_,rfl⟩
      (.cons ⟨htask,?_,rfl⟩ (.cons ⟨hrx 10 ?_ ?_,?_,?_,?_,rfl⟩ (.cons ⟨htask,?_,rfl⟩ (.nil _))))),?_,?_⟩
    all_goals decide +kernel
  obtain ⟨s,hs,hline,hposted⟩ := hrun
  have hframes : ∀ frame ∈ [typeReply,typeReply], ReplyFrame frame := by
    simp [replyFrame_typeReply]
  exact ⟨s,hs,hline,hposted,(frames_decoded hframes hs).2 hline hposted⟩

/-- One interrupt with two replies in it: the first event takes both out as one message. -/
theorem frames_merged : ¬∀ (frames : List (List UInt8)), (∀ frame ∈ frames, ReplyFrame frame) →
    ∀ (es : List Event) (s : Uart), Run step (start frames.flatten) es s →
      s.decoded <+: frames ∧ (s.line = [] → s.posted = 0 → s.decoded = frames) := by
  intro h
  have hrun : ∃ s, Run step (start [typeReply,typeReply].flatten) [.rx 20,.task] s ∧
      s.decoded = [typeReply ++ typeReply] := by
    refine ⟨_,.cons ⟨?_,?_,?_,rfl⟩ (.cons ⟨?_,rfl⟩ (.nil _)),?_⟩
    all_goals decide
  obtain ⟨s,hs,hdecoded⟩ := hrun
  have hpre := (h [typeReply,typeReply] (by simp [replyFrame_typeReply]) _ s hs).1
  rw [hdecoded] at hpre
  revert hpre
  decide

end KmpReceive
end MeterLogger
