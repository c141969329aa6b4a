import MeterLogger.EspFs

/-!
# Serving the web pages

`cgiEspFsHook` sends a file of the file system in pieces of 1024 bytes, and `cgiEspFsTemplate` sends
one with its `%token%`s replaced. Over all the calls for a request, what is sent is the meaning of
what is read, wherever the pieces are cut; and what is read is the file, or stops at the end of a
piece.
-/

namespace MeterLogger
namespace HttpdEspFs

open Buffers CStrings EspFs

/-- What the connection is given, and the calls of the template's callback. -/
inductive Sent
  | startResponse (code : ℕ)
  | header (field value : List UInt8)
  | endHeaders
  | text (bytes : List UInt8)
  | token (name : Option (List UInt8))

inductive CgiRes
  | more
  | done
  | notFound
deriving DecidableEq

def mimeTypes : List (List UInt8 × List UInt8) :=
  [(ascii "htm",ascii "text/htm"),(ascii "html",ascii "text/html"),(ascii "css",ascii "text/css"),
    (ascii "js",ascii "text/javascript"),(ascii "txt",ascii "text/plain"),
    (ascii "jpg",ascii "image/jpeg"),(ascii "jpeg",ascii "image/jpeg"),
    (ascii "png",ascii "image/png")]

/-- The type for what stands behind the last dot, of a url that is not empty. -/
def httpdGetMimetype (url : List UInt8) : List UInt8 :=
  let ext := (url.reverse.takeWhile (· ≠ 46)).reverse
  ((mimeTypes.find? fun m => m.1 = ext).map Prod.snd).getD (ascii "text/html")

/-- A call of `cgiEspFsHook`; `none` when the fuel is used up. -/
def cgiEspFsHook (mem : Buf) (fuel : ℕ) (connected : Bool) (url : List UInt8)
    (file : Option EspFsFile) : Option (Option EspFsFile × List Sent × CgiRes) :=
  if connected = false then some (file,[],.done)
  else
    match file with
    | none => do
      match ← espFsOpen mem fuel url with
      | none => some (none,[],.notFound)
      | some file =>
        some (some file,[.startResponse 200,
          .header (ascii "Content-Type") (httpdGetMimetype url),
          .header (ascii "Cache-Control") (ascii "max-age=3600, must-revalidate"),
          .endHeaders],.more)
    | some file => do
      let r ← espFsRead mem file 1024
      let sent := if 0 < r.2.length then [.text r.2] else []
      some (some r.1,sent,if r.2.length ≠ 1024 then .done else .more)

/-- `TplData`, with the characters of a token that has begun. -/
structure TplData where
  file : EspFsFile
  token : Option (List UInt8)

/-- The local variables of `cgiEspFsTemplate`, with what was sent. -/
structure Scan where
  sp : ℕ
  e : ℕ
  token : Option (List UInt8)
  sent : List Sent

def Scan.raw (s : Scan) (buff : List UInt8) : List Sent :=
  if s.sp ≠ 0 then [.text ((buff.drop s.e).take s.sp)] else []

/-- The size of `token`. -/
def tokenSize : ℕ := 64

/-- The character at `x`. -/
def scanChar (buff : List UInt8) (s : Scan) (x : ℕ) : Scan :=
  let c := buff.getD x 0
  match s.token with
  | none =>
    if c = 37 then { s with sp := 0, token := some [], sent := s.sent ++ s.raw buff }
    else { s with sp := s.sp+1 }
  | some token =>
    if c = 37 then
      { s with
        e := x+1
        token := none
        sent := s.sent ++ [if token = [] then .text [37] else .token (some token)] }
    else if token.length < tokenSize-1 then { s with token := some (token ++ [c]) }
    else s

/-- A call of `cgiEspFsTemplate`. -/
def cgiEspFsTemplate (mem : Buf) (fuel : ℕ) (connected : Bool) (url : List UInt8)
    (tpd : Option TplData) : Option (Option TplData × List Sent × CgiRes) :=
  if connected = false then some (tpd,[.token none],.done)
  else
    match tpd with
    | none => do
      match ← espFsOpen mem fuel url with
      | none => some (none,[],.notFound)
      | some file =>
        some (some ⟨file,none⟩,[.startResponse 200,
          .header (ascii "Content-Type") (httpdGetMimetype url),.endHeaders],.more)
    | some tpd => do
      let r ← espFsRead mem tpd.file 1024
      let s := (List.range r.2.length).foldl (scanChar r.2) ⟨0,0,tpd.token,[]⟩
      let sent := s.sent ++ s.raw r.2
      some (some ⟨r.1,s.token⟩,
        if r.2.length ≠ 1024 then (sent ++ [.token none],.done) else (sent,.more))

/-- The calls for a request while the connection stays, with all that they send; `none` when the fuel
is used up. -/
def calls {σ : Type} (cgi : Option σ → Option (Option σ × List Sent × CgiRes)) :
    ℕ → Option σ → Option (List Sent × CgiRes)
  | 0, _ => none
  | fuel+1, cgiData => do
    let r ← cgi cgiData
    if r.2.2 = .more then
      let t ← calls cgi fuel r.1
      some (r.2.1 ++ t.1,t.2)
    else some r.2

/-- A character of the page, or a token that the callback replaces. -/
inductive Piece
  | char (c : UInt8)
  | token (name : List UInt8)
deriving DecidableEq

/-- A name between two `%`; without one they stand for `%`. -/
def named (name : List UInt8) : Piece :=
  if name = [] then .char 37 else .token (name.take (tokenSize-1))

/-- Text and names in turn; the last name lacks its second `%` and stands for nothing. -/
def expandParts : List (List UInt8) → List Piece
  | text::name::more::rest => text.map .char ++ named name::expandParts (more::rest)
  | text::_ => text.map .char
  | [] => []

def expand (page : List UInt8) : List Piece := expandParts (page.splitOn 37)

def pieces (sent : List Sent) : List Piece := sent.flatMap fun
  | .text bytes => bytes.map .char
  | .token (some name) => [.token name]
  | _ => []

@[simp] theorem pieces_append (sent sent' : List Sent) :
    pieces (sent ++ sent') = pieces sent ++ pieces sent' := List.flatMap_append

/-- The token that has begun and what is put out at a character. -/
def step (token : Option (List UInt8)) (c : UInt8) : Option (List UInt8) × List Piece :=
  match token with
  | none => if c = 37 then (some [],[]) else (none,[.char c])
  | some token =>
    if c = 37 then (none,[if token = [] then .char 37 else .token token])
    else (some (if token.length < tokenSize-1 then token ++ [c] else token),[])

def run : Option (List UInt8) → List UInt8 → Option (List UInt8) × List Piece
  | token, [] => (token,[])
  | token, c::cs =>
    let r := step token c
    let t := run r.1 cs
    (t.1,r.2 ++ t.2)

theorem run_append (token : Option (List UInt8)) (xs ys : List UInt8) :
    run token (xs ++ ys) =
      ((run (run token xs).1 ys).1,(run token xs).2 ++ (run (run token xs).1 ys).2) := by
  induction xs generalizing token with
  | nil => rfl
  | cons x xs ih => simp [run,ih]

/-- Names and text in turn, when the token has begun with `token`. -/
def openParts (token : List UInt8) : List (List UInt8) → List Piece
  | name::more::rest => named (token ++ name)::expandParts (more::rest)
  | _ => []

theorem named_token {token : List UInt8} (h : token.length < tokenSize) :
    named token = if token = [] then .char 37 else .token token := by
  have hle : token.length ≤ tokenSize-1 := Nat.le_pred_of_lt h
  rw [named,List.take_of_length_le hle]

theorem openParts_cut {token : List UInt8} (h : token.length = tokenSize-1) (c : UInt8)
    (name : List UInt8) (rest : List (List UInt8)) :
    openParts token ((c::name)::rest) = openParts token (name::rest) := by
  have hne : token ≠ [] := fun hnil => by
    rw [hnil] at h
    exact absurd h (by decide)
  cases rest with
  | nil => rfl
  | cons more rest =>
    simp only [openParts,named,List.append_eq_nil_iff,hne,false_and,if_false]
    rw [List.take_left' h,List.take_left' h]

theorem openParts_more (token name : List UInt8) (c : UInt8) (rest : List (List UInt8)) :
    openParts (token ++ [c]) (name::rest) = openParts token ((c::name)::rest) := by
  cases rest with
  | nil => rfl
  | cons more rest => rw [openParts,openParts,List.append_assoc,List.singleton_append]

theorem run_spec (cs : List UInt8) :
    (run none cs).2 = expand cs ∧
      ∀ token : List UInt8, token.length < tokenSize →
        (run (some token) cs).2 = openParts token (cs.splitOn 37) := by
  induction cs with
  | nil => exact ⟨rfl,fun _ _ => rfl⟩
  | cons c cs ih =>
    obtain ⟨hnone,hsome⟩ := ih
    rw [expand] at *
    rw [List.splitOn_cons_eq_if_modifyHead]
    have hparts := List.splitOn_ne_nil 37 cs
    obtain ⟨name,rest,hsplit⟩ := List.exists_cons_of_ne_nil hparts
    simp only [hsplit] at hnone hsome ⊢
    by_cases hc : c = 37
    · subst hc
      simp only [run,step,if_true,beq_self_eq_true]
      refine ⟨?_,fun token htoken => ?_⟩
      · rw [hsome [] (by decide)]
        cases rest <;> rfl
      · rw [hnone,← named_token htoken,openParts,List.append_nil]
        rfl
    · have hbeq : (c == 37) = false := by simp [hc]
      simp only [run,step,hc,hbeq,if_false,List.modifyHead_cons,Bool.false_eq_true]
      refine ⟨?_,fun token htoken => ?_⟩
      · rw [hnone]
        match rest with
        | [] => rfl
        | [_] => rfl
        | _::_::_ => rfl
      · by_cases hroom : token.length < tokenSize-1
        · rw [if_pos hroom,hsome (token ++ [c]) (by
            rw [List.length_append,List.length_singleton]
            exact Nat.add_lt_of_lt_sub hroom),openParts_more]
          rfl
        · have hfull : token.length = tokenSize-1 := by
            simp only [tokenSize] at *
            omega
          rw [if_neg hroom,hsome token htoken,openParts_cut hfull]
          rfl

/-- The scan of a piece up to `x`, when it began with the token `t`. -/
structure Scanned (buff : List UInt8) (t : Option (List UInt8)) (x : ℕ) (s : Scan) : Prop where
  token : s.token = (run t (buff.take x)).1
  sent : pieces (s.sent ++ s.raw buff) = (run t (buff.take x)).2
  text : s.token = none → s.e+s.sp = x
  inside : s.token ≠ none → s.sp = 0

theorem pieces_text (bytes : List UInt8) : pieces [.text bytes] = bytes.map .char :=
  List.flatMap_singleton ..

theorem pieces_raw (s : Scan) (buff : List UInt8) :
    pieces (s.raw buff) = ((buff.drop s.e).take s.sp).map .char := by
  rw [Scan.raw]
  split_ifs with hsome
  · exact pieces_text _
  · rw [not_not.mp hsome]
    rfl

theorem Scanned.step {buff : List UInt8} {t : Option (List UInt8)} {x : ℕ} {s : Scan}
    (h : Scanned buff t x s) (hx : x < buff.length) :
    Scanned buff t (x+1) (scanChar buff s x) := by
  have htake : buff.take (x+1) = buff.take x ++ [buff.getD x 0] := by
    rw [List.take_add_one,List.getElem?_eq_getElem hx,List.getD_eq_getElem _ _ hx]
    rfl
  have hrun := run_append t (buff.take x) [buff.getD x 0]
  have hsent := h.sent
  rw [← htake,← h.token,← hsent] at hrun
  rw [pieces_append,pieces_raw] at hsent
  simp only [run,List.append_nil] at hrun
  rw [scanChar]
  cases htoken : s.token with
  | none =>
    have hpos := h.text htoken
    rw [htoken] at hrun
    by_cases hc : buff.getD x 0 = 37
    · simp only [if_pos hc]
      simp only [HttpdEspFs.step,if_pos hc,List.append_nil] at hrun
      exact
        { token := by rw [hrun]
          sent := by rw [hrun]; simp [Scan.raw]
          text := nofun
          inside := fun _ => rfl }
    · simp only [if_neg hc]
      simp only [HttpdEspFs.step,if_neg hc] at hrun
      refine ⟨by rw [hrun],?_,fun _ => ?_,fun hne => absurd rfl hne⟩
      · have hmore : (buff.drop s.e).take (s.sp+1) =
            (buff.drop s.e).take s.sp ++ [buff.getD x 0] := by
          have hlt : s.sp < (buff.drop s.e).length := by
            rw [List.length_drop]
            omega
          rw [List.take_add_one,List.getElem?_eq_getElem hlt,List.getElem_drop,
            ← List.getD_eq_getElem _ 0 (by omega)]
          simp only [hpos]
          rfl
        rw [hrun,pieces_append,pieces_append,pieces_raw,pieces_raw,hmore,List.map_append,
          List.append_assoc]
        rfl
      · show s.e+(s.sp+1) = x+1
        omega
  | some token =>
    have hzero := h.inside (by rw [htoken]; exact nofun)
    rw [htoken] at hrun
    have hraw : ∀ sent' : List Sent, pieces (sent' ++ s.raw buff) = pieces sent' := fun sent' => by
      rw [pieces_append,pieces_raw,hzero,List.take_zero,List.map_nil,List.append_nil]
    by_cases hc : buff.getD x 0 = 37
    · simp only [if_pos hc]
      simp only [HttpdEspFs.step,if_pos hc,hraw] at hrun
      refine ⟨by rw [hrun],?_,fun _ => ?_,fun hne => absurd rfl hne⟩
      · rw [hrun,pieces_append,pieces_append,pieces_raw]
        simp only [hzero,List.take_zero,List.map_nil,List.append_nil]
        split_ifs <;> rfl
      · show x+1+s.sp = x+1
        omega
    · simp only [if_neg hc]
      simp only [HttpdEspFs.step,if_neg hc,List.append_nil,hraw] at hrun
      split_ifs with hroom
      · rw [if_pos hroom] at hrun
        exact ⟨by rw [hrun],by rw [hrun]; exact hraw _,nofun,fun _ => hzero⟩
      · rw [if_neg hroom] at hrun
        exact ⟨by rw [hrun]; exact htoken,by rw [hrun]; exact hraw _,
          fun hnone => absurd (htoken.symm.trans hnone) nofun,fun _ => hzero⟩

theorem scanned (buff : List UInt8) (t : Option (List UInt8)) :
    Scanned buff t buff.length
      ((List.range buff.length).foldl (scanChar buff) ⟨0,0,t,[]⟩) := by
  have hall : ∀ n ≤ buff.length,
      Scanned buff t n ((List.range n).foldl (scanChar buff) ⟨0,0,t,[]⟩) := by
    intro n hn
    induction n with
    | zero => exact ⟨rfl,rfl,fun _ => rfl,fun _ => rfl⟩
    | succ n ih =>
      rw [List.range_succ,List.foldl_append]
      exact (ih (Nat.le_of_succ_le hn)).step hn
  exact hall buff.length (Nat.le_refl _)

variable {mem : Buf} {data given : List UInt8} {σ κ : Type}

/-- A call of a cgi with the next piece of its file: what it puts out is that of the piece in the
state `κ` it is in, and it goes on after a whole piece. -/
def Calls (mem : Buf) (cgi : Option σ → Option (Option σ × List Sent × CgiRes))
    (file : σ → EspFsFile) (state : σ → κ) (run : κ → List UInt8 → κ × List Piece) : Prop :=
  ∀ d fh' out, espFsRead mem (file d) 1024 = some (fh',out) →
    ∃ d' sent, cgi (some d) = some (some d',sent,if out.length ≠ 1024 then .done else .more) ∧
      file d' = fh' ∧ state d' = (run (state d) out).1 ∧ pieces sent = (run (state d) out).2

/-- Reads of an open file of which `Open given` says that `given` was read of it. A read that gives
less than was asked for completes the file, or the file is `cut` and it gives nothing. -/
def Reads (mem : Buf) (data : List UInt8) (Open : List UInt8 → EspFsFile → Prop)
    (cut : EspFsFile → Prop) : Prop :=
  ∀ given fh len, Open given fh → ∃ fh' out, espFsRead mem fh len = some (fh',out) ∧
    Open (given ++ out) fh' ∧ given ++ out <+: data ∧ out.length ≤ len ∧
      (out.length < len → given ++ out = data ∨ cut fh ∧ out = [])

theorem calls_spec {cgi : Option σ → Option (Option σ × List Sent × CgiRes)}
    {file : σ → EspFsFile} {state : σ → κ} {run : κ → List UInt8 → κ × List Piece}
    (hrun : ∀ k xs ys, run k (xs ++ ys) =
      ((run (run k xs).1 ys).1,(run k xs).2 ++ (run (run k xs).1 ys).2))
    (hcalls : Calls mem cgi file state run) {Open : List UInt8 → EspFsFile → Prop}
    {cut : EspFsFile → Prop} (hreads : Reads mem data Open cut) {fuel : ℕ} {d : σ} (hopen : Open given (file d))
    (hfuel : data.length-given.length < 1024*fuel) :
    ∃ sent body, calls cgi fuel (some d) = some (sent,.done) ∧
      pieces sent = (run (state d) body).2 ∧ given ++ body <+: data ∧
      (given ++ body = data ∨
        (∃ fh, cut fh) ∧ 1024 ∣ body.length ∧ (¬cut (file d) → body ≠ [])) := by
  induction fuel generalizing given d with
  | zero => exact absurd hfuel (Nat.not_lt_zero _)
  | succ fuel ih =>
    obtain ⟨fh',out,hread,hopen',hbegins,hle,hall⟩ := hreads given (file d) 1024 hopen
    obtain ⟨d',sent,hcall,rfl,hstate,hsent⟩ := hcalls d fh' out hread
    rw [calls,hcall]
    by_cases hlast : out.length ≠ 1024
    · refine ⟨sent,out,?_,hsent,hbegins,?_⟩
      · simp [hlast]
      · refine (hall (by omega)).imp id fun hcut =>
          ⟨⟨_,hcut.1⟩,?_,fun hfresh => absurd hcut.1 hfresh⟩
        rw [hcut.2]
        exact Nat.dvd_zero _
    · have hpiece : out.length = 1024 := not_not.mp hlast
      have hlen := hbegins.length_le
      rw [List.length_append] at hlen
      obtain ⟨sent',body,hcalls',hsent',hbegins',hall'⟩ := ih hopen' (by
        rw [List.length_append]
        omega)
      rw [List.append_assoc] at hbegins' hall'
      refine ⟨sent ++ sent',out ++ body,?_,?_,hbegins',hall'.imp id fun hcut => ⟨hcut.1,?_,fun _ hnil => ?_⟩⟩
      · simp [hpiece,hcalls']
      · rw [pieces_append,hsent,hsent',hrun,hstate]
      · rw [List.length_append,hpiece]
        exact Nat.dvd_add (Nat.dvd_refl _) hcut.2.1
      · rw [(List.append_eq_nil_iff.mp hnil).1] at hpiece
        exact absurd hpiece (by decide)

theorem reads_opened (mem : Buf) (data : List UInt8) :
    Reads mem data (Opened mem data) (Exhausted mem) := by
  intro given fh len hopen
  obtain ⟨fh',out,hread,hopen',hle,hall⟩ := hopen.read len
  exact ⟨fh',out,hread,hopen',hopen'.begins,hle,hall⟩

theorem reads_plain (mem : Buf) (data : List UInt8) :
    Reads mem data (Plain mem data) (fun _ => False) := by
  intro given fh len hopen
  obtain ⟨fh',out,hread,hopen',hle,hall⟩ := read_plain hopen len
  have hbegins : given ++ out <+: data := Opened.begins (Or.inl hopen')
  exact ⟨fh',out,hread,hopen',hbegins,hle,fun hless => Or.inl (hall hless)⟩

def chars (u : Unit) (cs : List UInt8) : Unit × List Piece := (u,cs.map .char)

theorem hook_calls (mem : Buf) (fuel : ℕ) (url : List UInt8) :
    Calls mem (cgiEspFsHook mem fuel true url) id (fun _ => ()) chars := by
  intro fh fh' out hread
  refine ⟨fh',if 0 < out.length then [.text out] else [],?_,rfl,rfl,?_⟩
  · rw [id_eq] at hread
    simp [cgiEspFsHook,hread]
  · split_ifs with hsome
    · exact pieces_text out
    · rw [List.eq_nil_of_length_eq_zero (Nat.eq_zero_of_not_pos hsome)]
      rfl

theorem template_calls (mem : Buf) (fuel : ℕ) (url : List UInt8) :
    Calls mem (cgiEspFsTemplate mem fuel true url) TplData.file TplData.token run := by
  intro tpd fh' out hread
  have hscanned := scanned out tpd.token
  have htoken := hscanned.token
  have hsent := hscanned.sent
  rw [List.take_length] at htoken hsent
  rw [cgiEspFsTemplate]
  simp only [Bool.true_eq_false,if_false,hread,Option.bind_eq_bind,Option.bind_some]
  split_ifs with hlast
  · refine ⟨_,_,rfl,rfl,htoken,?_⟩
    rw [pieces_append,hsent]
    exact List.append_nil _
  · exact ⟨_,_,rfl,rfl,htoken,hsent⟩

/-- What is sent of a file: all of it, unless it is compressed, when whole pieces of it may be all. -/
def Sends (compression : UInt8) (data body : List UInt8) : Prop :=
  body <+: data ∧
    (body = data ∨ compression = compressHeatshrink ∧ 1024 ∣ body.length ∧ body ≠ [])

theorem opened_served {compression : UInt8}
    (hcompression : compression = compressNone ∨ compression = compressHeatshrink)
    {cgi : Option σ → Option (Option σ × List Sent × CgiRes)}
    {file : σ → EspFsFile} {state : σ → κ} {run : κ → List UInt8 → κ × List Piece}
    (hrun : ∀ k xs ys, run k (xs ++ ys) =
      ((run (run k xs).1 ys).1,(run k xs).2 ++ (run (run k xs).1 ys).2))
    (hcalls : Calls mem cgi file state run) {d : σ} {head : List Sent}
    (hfirst : cgi none = some (some d,head,.more)) (hhead : pieces head = [])
    (hopen : Opened mem data [] (file d)) (hfresh : ¬Exhausted mem (file d))
    (hplain : compression = compressNone → Plain mem data [] (file d)) :
    ∃ sent body, calls cgi (data.length/1024+2) none = some (sent,.done) ∧
      pieces sent = (run (state d) body).2 ∧ Sends compression data body := by
  have hfuel : data.length-([] : List UInt8).length < 1024*(data.length/1024+1) := by
    rw [List.length_nil]
    omega
  have hserved : ∃ sent body, calls cgi (data.length/1024+1) (some d) = some (sent,.done) ∧
      pieces sent = (run (state d) body).2 ∧ Sends compression data body := by
    rcases hcompression with hnone | hheat
    · obtain ⟨sent,body,hsent,hpieces,hbegins,hall⟩ :=
        calls_spec hrun hcalls (reads_plain mem data) (hplain hnone) hfuel
      exact ⟨sent,body,hsent,hpieces,hbegins,hall.imp id fun hcut => hcut.1.elim fun _ => False.elim⟩
    · obtain ⟨sent,body,hsent,hpieces,hbegins,hall⟩ :=
        calls_spec hrun hcalls (reads_opened mem data) hopen hfuel
      exact ⟨sent,body,hsent,hpieces,hbegins,
        hall.imp id fun hcut => ⟨hheat,hcut.2.1,hcut.2.2 hfresh⟩⟩
  obtain ⟨sent,body,hsent,hpieces,hsends⟩ := hserved
  refine ⟨head ++ sent,body,?_,?_,hsends⟩
  · rw [calls,hfirst]
    simp [hsent]
  · rw [pieces_append,hhead,hpieces,List.nil_append]

theorem hook_opens {fuel : ℕ} {url : List UInt8} {fh : EspFsFile}
    (hopen : espFsOpen mem fuel url = some (some fh)) :
    ∃ head, cgiEspFsHook mem fuel true url none = some (some fh,head,.more) ∧ pieces head = [] := by
  rw [cgiEspFsHook,if_neg (by decide)]
  simp only [hopen,Option.bind_eq_bind,Option.bind_some]
  exact ⟨_,rfl,rfl⟩

theorem template_opens {fuel : ℕ} {url : List UInt8} {fh : EspFsFile}
    (hopen : espFsOpen mem fuel url = some (some fh)) :
    ∃ head, cgiEspFsTemplate mem fuel true url none = some (some ⟨fh,none⟩,head,.more) ∧
      pieces head = [] := by
  rw [cgiEspFsTemplate,if_neg (by decide)]
  simp only [hopen,Option.bind_eq_bind,Option.bind_some]
  exact ⟨_,rfl,rfl⟩

/-- Every page of the image is served: a path without a file is answered with not found. For one with
a file the hook sends the file, and the template hook what the file stands for as a template, both
wherever the pieces are cut. Of a compressed file it may be whole pieces of 1024 bytes only. -/
theorem pages_served {compression : UInt8} {level : ℤ}
    (hcompression : compression = compressNone ∨ compression = compressHeatshrink)
    (hlevel : level = -1 ∨ 1 ≤ level ∧ level ≤ 9) (files : List HostFile)
    (hfiles : ∀ f ∈ files, Fits f) (url : List UInt8) (fuel : ℕ) (hfuel : files.length < fuel) :
    ∃ image, mkespfsimage compression level files = some image ∧
      ∀ mem, load mem espFsData image.length = image →
        match files.find? fun f => f.fdat ≠ [] ∧ f.realName = stripped url with
        | none => ∀ n, calls (cgiEspFsHook mem fuel true url) (n+1) none = some ([],.notFound) ∧
            calls (cgiEspFsTemplate mem fuel true url) (n+1) none = some ([],.notFound)
        | some f =>
            (∃ sent body, calls (cgiEspFsHook mem fuel true url) (f.fdat.length/1024+2) none =
                some (sent,.done) ∧
              pieces sent = body.map .char ∧ Sends compression f.fdat body) ∧
            ∃ sent body, calls (cgiEspFsTemplate mem fuel true url) (f.fdat.length/1024+2) none =
                some (sent,.done) ∧
              pieces sent = expand body ∧ Sends compression f.fdat body := by
  obtain ⟨image,himage,hfind⟩ := espFsOpen_image hcompression hlevel hfiles url hfuel
  refine ⟨image,himage,fun mem hload => ?_⟩
  have hfinds := hfind mem hload
  rw [Finds] at hfinds
  cases hcase : files.find? fun f => f.fdat ≠ [] ∧ f.realName = stripped url with
  | none =>
    rw [hcase] at hfinds
    have hopen : espFsOpen mem fuel url = some none := hfinds
    intro n
    exact ⟨by simp [calls,cgiEspFsHook,hopen],by simp [calls,cgiEspFsTemplate,hopen]⟩
  | some f =>
    rw [hcase] at hfinds
    obtain ⟨fh,hopen,hopened,hfresh,hplain⟩ := hfinds
    obtain ⟨head,hhook,hhead⟩ := hook_opens hopen
    obtain ⟨head',htemplate,hhead'⟩ := template_opens hopen
    constructor
    · exact opened_served hcompression (fun _ xs ys => by simp [chars])
        (hook_calls mem fuel url) hhook hhead hopened hfresh hplain
    · obtain ⟨sent,body,hsent,hpieces,hsends⟩ := opened_served hcompression run_append
        (template_calls mem fuel url) htemplate hhead' hopened hfresh hplain
      exact ⟨sent,body,hsent,hpieces.trans (run_spec body).1,hsends⟩

theorem pages_served_sample :
    ∃ image, mkespfsimage compressHeatshrink (-1) pages = some image ∧
      ∀ mem, load mem espFsData image.length = image →
        match pages.find? fun f => f.fdat ≠ [] ∧ f.realName = stripped (ascii "/index.tpl") with
        | none => ∀ n,
            calls (cgiEspFsHook mem 3 true (ascii "/index.tpl")) (n+1) none =
                some ([],.notFound) ∧
              calls (cgiEspFsTemplate mem 3 true (ascii "/index.tpl")) (n+1) none =
                some ([],.notFound)
        | some f =>
            (∃ sent body, calls (cgiEspFsHook mem 3 true (ascii "/index.tpl"))
                (f.fdat.length/1024+2) none = some (sent,.done) ∧
              pieces sent = body.map .char ∧ Sends compressHeatshrink f.fdat body) ∧
            ∃ sent body, calls (cgiEspFsTemplate mem 3 true (ascii "/index.tpl"))
                (f.fdat.length/1024+2) none = some (sent,.done) ∧
              pieces sent = expand body ∧ Sends compressHeatshrink f.fdat body :=
  pages_served (Or.inr rfl) (Or.inl rfl) pages pages_fit (ascii "/index.tpl") 3 (by decide)

end HttpdEspFs
end MeterLogger
