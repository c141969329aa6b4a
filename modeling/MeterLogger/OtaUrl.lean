import MeterLogger.OtaFlash

/-!
# Splitting the URL of a firmware

`start_ota_update` looks for the delimiters of its URL one by one, over the whole string, and copies
the parts into five buffers. In whatever order the delimiters stand, the parts are those that the
URL is made of, and no buffer is overrun.
-/

namespace MeterLogger
namespace Ota

open CStrings Decimal OtaHeader

/-- `strchr`: the offset of the first such byte. -/
def strchrAt : List UInt8 → UInt8 → Option ℕ
  | [], _ => none
  | b::bs, c => if b = c then some 0 else (strchrAt bs c).map (·+1)

inductive Buffer
  | otaUrl
  | otaHost
  | portBuffer
  | otaHostHeader
  | otaPath

def Buffer.size : Buffer → ℕ
  | .otaUrl => 256
  | .otaHost => 64
  | .portBuffer => 6
  | .otaHostHeader => 72
  | .otaPath => 128

/-- Bytes written to a buffer, from index `first` on. -/
structure Write where
  buffer : Buffer
  first : ℕ
  bytes : List UInt8

def Write.Fits (w : Write) : Prop := w.first+w.bytes.length ≤ w.buffer.size

/-- `memcpy` of a part, and the NUL behind it. -/
def copyPart (buffer : Buffer) (first : ℕ) (bytes : List UInt8) : List Write :=
  [⟨buffer,first,bytes⟩,⟨buffer,first+bytes.length,[0]⟩]

/-- `tfp_snprintf` to `ota_host_header`: what is left of the text. -/
def printed (text : List UInt8) : List UInt8 := text.take 71

def printHeader (text : List UInt8) : List Write := [⟨.otaHostHeader,0,printed text ++ [0]⟩]

/-- The scheme is skipped; one other than `http` is refused. -/
def skipScheme (url : List UInt8) : Option (List UInt8) :=
  if (ascii "http://").isPrefixOf url then some (url.drop 7)
  else if (ascii "https://").isPrefixOf url then none
  else if (strstr url (ascii "://")).isSome then none
  else some url

def cutAt (finish : ℕ) (delimiter : Option ℕ) : ℕ :=
  match delimiter with
  | some i => if i < finish then i else finish
  | none => finish

/-- The loop that looks for the colon of the authority; a second one is refused. -/
def colonLoop : List UInt8 → ℕ → Option ℕ → Option (Option ℕ)
  | [], _, colon => some colon
  | c::cs, i, colon =>
    if c = 58 then if colon.isSome then none else colonLoop cs (i+1) (some i)
    else colonLoop cs (i+1) colon

def portLoop : List UInt8 → ℕ → Option ℕ
  | [], parsedPort => some parsedPort
  | c::cs, parsedPort =>
    if c < 48 ∨ 57 < c then none
    else
      let parsedPort := parsedPort*10+(c.toNat-48)
      if parsedPort > 65535 then none else portLoop cs parsedPort

/-- The writes of a step and what it finds, `none` if the URL is refused. -/
abbrev Step (α : Type) := List Write × Option α

def splitPort (p : List UInt8) (authorityEnd colon : ℕ) : Step (List UInt8 × ℕ × List UInt8) :=
  let hostLen := colon
  let portLen := authorityEnd-colon-1
  if hostLen = 0 ∨ hostLen ≥ 64 ∨ portLen = 0 ∨ portLen > 5 then ([],none)
  else
    let host := p.take hostLen
    let portBuffer := (p.drop (colon+1)).take portLen
    let writes := copyPart .otaHost 0 host ++ copyPart .portBuffer 0 portBuffer
    match portLoop portBuffer 0 with
    | none => (writes,none)
    | some parsedPort =>
      if parsedPort = 0 ∨ parsedPort > 65535 then (writes,none)
      else
        let text := host ++ 58::decimal parsedPort
        (writes ++ printHeader text,some (host,parsedPort,printed text))

def splitHost (p : List UInt8) (authorityEnd : ℕ) : Step (List UInt8 × ℕ × List UInt8) :=
  let hostLen := authorityEnd
  if hostLen = 0 ∨ hostLen ≥ 64 then ([],none)
  else
    let host := p.take hostLen
    (copyPart .otaHost 0 host ++ printHeader host,some (host,otaDefaultPort,printed host))

def splitAuthority (p : List UInt8) (authorityEnd : ℕ) : Step (List UInt8 × ℕ × List UInt8) :=
  match colonLoop (p.take authorityEnd) 0 none with
  | none => ([],none)
  | some (some colon) => splitPort p authorityEnd colon
  | some none => splitHost p authorityEnd

def pathStart (p : List UInt8) (slash question fragment : Option ℕ) : Option ℕ :=
  let limit := fragment.getD p.length
  if slash.any fun i => i < limit && question.all (i < ·) then slash
  else if question.any (· < limit) then question
  else none

def splitPath (p : List UInt8) (slash question fragment : Option ℕ) : Step (List UInt8) :=
  match pathStart p slash question fragment with
  | none => (copyPart .otaPath 0 [47],some [47])
  | some start =>
    let pathEnd := ((strchrAt (p.drop start) 35).map (start+·)).getD p.length
    let pathLen := pathEnd-start
    let path := (p.drop start).take pathLen
    if pathLen+(if some start = question then 1 else 0) ≥ 128 then ([],none)
    else if some start = question then
      (⟨.otaPath,0,[47]⟩::copyPart .otaPath 1 path,some (47::path))
    else (copyPart .otaPath 0 path,some path)

/-- `start_ota_update` from the check of the URL's length to the path. -/
def splitUrl (url : List UInt8) : Step Url :=
  if url.length ≥ 256 then ([],none)
  else
    let writes := copyPart .otaUrl 0 url
    match skipScheme url with
    | none => (writes,none)
    | some p =>
      let slash := strchrAt p 47
      let question := strchrAt p 63
      let fragment := strchrAt p 35
      let authorityEnd := cutAt (cutAt (cutAt p.length slash) question) fragment
      match splitAuthority p authorityEnd with
      | (more,none) => (writes ++ more,none)
      | (more,some (host,port,hostHeader)) =>
        match splitPath p slash question fragment with
        | (last,none) => (writes ++ more ++ last,none)
        | (last,some path) => (writes ++ more ++ last,some ⟨host,port,hostHeader,path⟩)

/-- Host and port of an authority; the port is 80 if there is none. -/
def IsAuthority (authority host : List UInt8) (port : ℕ) (hostHeader : List UInt8) : Prop :=
  host ≠ [] ∧ host.length < 64 ∧ 58 ∉ host ∧
    (authority = host ∧ port = 80 ∧ hostHeader = host ∨
      ∃ digits, authority = host ++ 58::digits ∧ IsNumeral digits port ∧ digits.length ≤ 5 ∧
        1 ≤ port ∧ port ≤ 65535 ∧ hostHeader = host ++ 58::decimal port)

/-- The path and the query as they are asked for. -/
def requestTarget : List UInt8 → List UInt8
  | [] => [47]
  | c::cs => if c = 63 then 47::c::cs else c::cs

/-- An authority, then a path or a query, then a fragment. -/
structure Parts (p authority target fragment : List UInt8) : Prop where
  whole : p = authority ++ (target ++ fragment)
  authority : ∀ c ∈ authority, c ≠ 47 ∧ c ≠ 63 ∧ c ≠ 35
  begins : ∀ c ∈ target.head?, c = 47 ∨ c = 63
  target : 35 ∉ target
  fragment : ∀ c ∈ fragment.head?, c = 35

/-- The URL is of `http`, or names no scheme, and its parts give `u`. -/
def Splits (url : List UInt8) (u : Url) : Prop :=
  url.length < 256 ∧ ∃ scheme authority target fragment,
    (scheme = ascii "http://" ∨ scheme = [] ∧ ¬ascii "://" <:+: url) ∧
      (∃ p, url = scheme ++ p ∧ Parts p authority target fragment) ∧
      IsAuthority authority u.host u.port u.hostHeader ∧
      u.path = requestTarget target ∧ u.path.length < 128

section Delimiters

variable {xs ys : List UInt8} {c : UInt8} {n i : ℕ}

theorem strchrAt_append (h : c ∉ xs) (ys : List UInt8) :
    strchrAt (xs ++ ys) c = (strchrAt ys c).map (xs.length+·) := by
  induction xs with
  | nil => simp
  | cons x xs ih =>
    rw [List.mem_cons,not_or] at h
    rw [List.cons_append,strchrAt,if_neg (Ne.symm h.1),ih h.2,Option.map_map,List.length_cons]
    congr 1
    funext k
    simp only [Function.comp_apply]
    omega

theorem strchrAt_later {x : UInt8} (h : x ≠ c) (hi : strchrAt (x::xs) c = some i) : 0 < i := by
  rw [strchrAt,if_neg h] at hi
  obtain ⟨k,-,rfl⟩ := Option.map_eq_some_iff.1 hi
  exact Nat.succ_pos k

theorem le_cutAt (hn : xs.length ≤ n) (ys : List UInt8) (c : UInt8) :
    xs.length ≤ cutAt n ((strchrAt ys c).map (xs.length+·)) := by
  cases strchrAt ys c with
  | none => exact hn
  | some k =>
    simp only [Option.map_some,cutAt]
    split
    · exact Nat.le_add_right _ _
    · exact hn

theorem cutAt_stays (xs ys : List UInt8) (c : UInt8) :
    cutAt xs.length ((strchrAt ys c).map (xs.length+·)) = xs.length := by
  cases strchrAt ys c with
  | none => rfl
  | some k =>
    simp only [Option.map_some,cutAt]
    exact if_neg (by omega)

theorem cutAt_found (hn : xs.length ≤ n) (ys : List UInt8) (c : UInt8) :
    cutAt n ((strchrAt (c::ys) c).map (xs.length+·)) = xs.length := by
  rw [strchrAt,if_pos rfl,Option.map_some,Nat.add_zero]
  simp only [cutAt]
  split <;> omega

end Delimiters

theorem exists_parts (p : List UInt8) : ∃ authority target fragment,
    Parts p authority target fragment := by
  have hhead : ∀ (q : UInt8 → Bool) (xs : List UInt8), ∀ c ∈ (xs.dropWhile q).head?, q c = false := by
    intro q xs c hc
    have hnot := List.head?_dropWhile_not q xs
    rw [Option.mem_def.1 hc] at hnot
    simpa using hnot
  refine ⟨p.takeWhile fun c => c ≠ 47 ∧ c ≠ 63 ∧ c ≠ 35,
    (p.dropWhile fun c => c ≠ 47 ∧ c ≠ 63 ∧ c ≠ 35).takeWhile (· ≠ 35),
    (p.dropWhile fun c => c ≠ 47 ∧ c ≠ 63 ∧ c ≠ 35).dropWhile (· ≠ 35),?_,?_,?_,?_,?_⟩
  · rw [List.takeWhile_append_dropWhile,List.takeWhile_append_dropWhile]
  · intro c hc
    simpa using List.mem_takeWhile_imp hc
  · intro c hc
    have hfirst : c ∈ (p.dropWhile fun c => c ≠ 47 ∧ c ≠ 63 ∧ c ≠ 35).head? := by
      cases hr : p.dropWhile fun c => c ≠ 47 ∧ c ≠ 63 ∧ c ≠ 35 with
      | nil =>
        rw [hr] at hc
        cases hc
      | cons x xs =>
        rw [hr,List.takeWhile_cons] at hc
        split at hc
        · exact hc
        · cases hc
    have hne : c ≠ 35 := by
      simpa using List.mem_takeWhile_imp (List.mem_of_head? hc)
    have hdelim := hhead _ p c hfirst
    simp only [decide_eq_false_iff_not,not_and_or,not_not] at hdelim
    exact hdelim.imp_right fun h => h.resolve_right hne
  · intro h35
    simpa using List.mem_takeWhile_imp h35
  · intro c hc
    simpa using hhead _ _ c hc

section Positions

variable {p authority target fragment : List UInt8}

theorem Parts.offset (h : Parts p authority target fragment) {c : UInt8}
    (hc : c = 47 ∨ c = 63 ∨ c = 35) :
    strchrAt p c = (strchrAt (target ++ fragment) c).map (authority.length+·) := by
  have hfree : c ∉ authority := by
    intro hmem
    have hne := h.authority c hmem
    rcases hc with rfl | rfl | rfl
    · exact hne.1 rfl
    · exact hne.2.1 rfl
    · exact hne.2.2 rfl
  rw [h.whole,strchrAt_append hfree]

theorem Parts.head (h : Parts p authority target fragment) :
    ∀ c ∈ (target ++ fragment).head?, c = 47 ∨ c = 63 ∨ c = 35 := by
  intro c hc
  cases htarget : target with
  | nil =>
    rw [htarget,List.nil_append] at hc
    exact Or.inr (Or.inr (h.fragment c hc))
  | cons x xs =>
    rw [htarget] at hc
    exact (h.begins c (htarget ▸ hc)).imp_right Or.inl

theorem Parts.authorityEnd (h : Parts p authority target fragment) :
    cutAt (cutAt (cutAt p.length (strchrAt p 47)) (strchrAt p 63)) (strchrAt p 35) =
      authority.length := by
  have hhead := h.head
  have hlen : authority.length ≤ p.length := by
    rw [h.whole,List.length_append]
    exact Nat.le_add_right _ _
  rw [h.offset (Or.inl rfl),h.offset (Or.inr (Or.inl rfl)),h.offset (Or.inr (Or.inr rfl))]
  cases hrest : target ++ fragment with
  | nil =>
    have hwhole : p.length = authority.length := by rw [h.whole,hrest,List.append_nil]
    simp only [strchrAt,Option.map_none,cutAt,hwhole]
  | cons x xs =>
    rw [hrest] at hhead
    rcases hhead x rfl with rfl | rfl | rfl
    · rw [cutAt_found hlen,cutAt_stays,cutAt_stays]
    · rw [cutAt_found (le_cutAt hlen _ _),cutAt_stays]
    · exact cutAt_found (le_cutAt (le_cutAt hlen _ _) _ _) _ _

theorem Parts.limit (h : Parts p authority target fragment) :
    (strchrAt p 35).getD p.length = authority.length+target.length := by
  rw [h.offset (Or.inr (Or.inr rfl)),strchrAt_append h.target]
  have hfragment := h.fragment
  cases fragment with
  | nil => simp [strchrAt,h.whole]
  | cons c cs =>
    obtain rfl := hfragment c rfl
    rw [strchrAt,if_pos rfl]
    rfl

theorem Parts.pathStart_nil (h : Parts p authority [] fragment) :
    pathStart p (strchrAt p 47) (strchrAt p 63) (strchrAt p 35) = none := by
  have hbehind : ∀ c, ((strchrAt ([] ++ fragment) c).map (authority.length+·)).any
      (fun i => decide (i < authority.length)) = false := by
    intro c
    cases strchrAt ([] ++ fragment) c <;> simp
  have hslash : ((strchrAt ([] ++ fragment) 47).map (authority.length+·)).any
      (fun i => decide (i < authority.length) &&
        ((strchrAt ([] ++ fragment) 63).map (authority.length+·)).all (i < ·)) = false := by
    cases strchrAt ([] ++ fragment) 47 <;> simp
  simp only [pathStart]
  rw [h.limit,h.offset (Or.inl rfl),h.offset (Or.inr (Or.inl rfl)),List.length_nil,Nat.add_zero,
    hslash,hbehind]
  rfl

theorem Parts.pathStart_cons {c : UInt8} {cs : List UInt8}
    (h : Parts p authority (c::cs) fragment) :
    pathStart p (strchrAt p 47) (strchrAt p 63) (strchrAt p 35) = some authority.length ∧
      (some authority.length = strchrAt p 63 ↔ c = 63) := by
  have hlimit : authority.length < authority.length+(c::cs).length := by
    rw [List.length_cons]
    omega
  simp only [pathStart]
  rw [h.limit,h.offset (Or.inl rfl),h.offset (Or.inr (Or.inl rfl)),List.cons_append]
  rcases h.begins c rfl with rfl | rfl
  · have hslash : strchrAt (47::(cs ++ fragment)) 47 = some 0 := if_pos rfl
    rw [hslash,Option.map_some,Nat.add_zero]
    cases hquestion : strchrAt (47::(cs ++ fragment)) 63 with
    | none => simp
    | some k =>
      have hpos := strchrAt_later (by decide) hquestion
      constructor
      · simp [hpos]
      · simp
        omega
  · have hquestion : strchrAt (63::(cs ++ fragment)) 63 = some 0 := if_pos rfl
    rw [hquestion,Option.map_some,Nat.add_zero]
    cases hslash : strchrAt (63::(cs ++ fragment)) 47 with
    | none => simp
    | some k =>
      have hpos := strchrAt_later (by decide) hslash
      simp

theorem copyPart_fits {buffer : Buffer} {first : ℕ} {bytes : List UInt8}
    (h : first+bytes.length < buffer.size) : ∀ w ∈ copyPart buffer first bytes, w.Fits := by
  intro w hw
  rw [copyPart,List.mem_cons,List.mem_singleton] at hw
  rcases hw with rfl | rfl
  · exact Nat.le_of_lt h
  · exact h

theorem Parts.splitPath (h : Parts p authority target fragment) :
    (∀ w ∈ (Ota.splitPath p (strchrAt p 47) (strchrAt p 63) (strchrAt p 35)).1, w.Fits) ∧
      (Ota.splitPath p (strchrAt p 47) (strchrAt p 63) (strchrAt p 35)).2 =
        if 128 ≤ (requestTarget target).length then none else some (requestTarget target) := by
  cases target with
  | nil =>
    rw [Ota.splitPath,h.pathStart_nil]
    exact ⟨copyPart_fits (by decide),rfl⟩
  | cons c cs =>
    obtain ⟨hstart,hquestion⟩ := h.pathStart_cons
    have hdrop : p.drop authority.length = c::cs ++ fragment := by
      rw [h.whole,List.drop_left]
    have hend : ((strchrAt (c::cs ++ fragment) 35).map (authority.length+·)).getD p.length =
        authority.length+(c::cs).length := by
      rw [← h.offset (Or.inr (Or.inr rfl)),h.limit]
    have hpath : (c::cs ++ fragment).take (c::cs).length = c::cs := List.take_left
    rw [Ota.splitPath,hstart]
    simp only [hdrop,hend,Nat.add_sub_cancel_left,hpath,hquestion]
    by_cases hc : c = 63
    · have htarget : requestTarget (c::cs) = 47::c::cs := if_pos hc
      rw [htarget,if_pos hc,if_pos hc]
      by_cases hlong : (c::cs).length+1 ≥ 128
      · rw [if_pos hlong]
        exact ⟨fun w hw => absurd hw List.not_mem_nil,(if_pos hlong).symm⟩
      · have hroom : 1+(c::cs).length < Buffer.otaPath.size := by
          rw [Buffer.size]
          omega
        rw [if_neg hlong]
        refine ⟨fun w hw => ?_,(if_neg hlong).symm⟩
        rcases List.mem_cons.1 hw with rfl | hw
        · exact (by decide : 0+1 ≤ 128)
        · exact copyPart_fits hroom w hw
    · have htarget : requestTarget (c::cs) = c::cs := if_neg hc
      rw [htarget,if_neg hc,if_neg hc,Nat.add_zero]
      by_cases hlong : (c::cs).length ≥ 128
      · rw [if_pos hlong]
        exact ⟨fun w hw => absurd hw List.not_mem_nil,(if_pos hlong).symm⟩
      · have hroom : 0+(c::cs).length < Buffer.otaPath.size := by
          rw [Buffer.size]
          omega
        rw [if_neg hlong]
        exact ⟨copyPart_fits hroom,(if_neg hlong).symm⟩

end Positions

section Authority

variable {host port rest digits : List UInt8} {n i : ℕ}

theorem colonLoop_found (xs : List UInt8) (i colon : ℕ) :
    colonLoop xs i (some colon) = if 58 ∈ xs then none else some (some colon) := by
  induction xs generalizing i with
  | nil => rfl
  | cons c cs ih =>
    rw [colonLoop,ih]
    by_cases hc : c = 58
    · simp [hc]
    · simp [hc,Ne.symm hc]

theorem colonLoop_none {xs : List UInt8} (h : 58 ∉ xs) (i : ℕ) :
    colonLoop xs i none = some none := by
  induction xs generalizing i with
  | nil => rfl
  | cons c cs ih =>
    rw [List.mem_cons,not_or] at h
    rw [colonLoop,if_neg (Ne.symm h.1),ih h.2]

theorem colonLoop_colon (h : 58 ∉ host) (port : List UInt8) (i : ℕ) :
    colonLoop (host ++ 58::port) i none =
      if 58 ∈ port then none else some (some (i+host.length)) := by
  induction host generalizing i with
  | nil => exact colonLoop_found port (i+1) i
  | cons c cs ih =>
    rw [List.mem_cons,not_or] at h
    rw [List.cons_append,colonLoop,if_neg (Ne.symm h.1),ih h.2,List.length_cons,
      Nat.add_right_comm,Nat.add_assoc i]

/-- The port is read unless a byte of it is no digit or the value passes the largest port. -/
theorem portLoop_eq (hn : n ≤ 65535) : portLoop digits n =
    if digits.all isDigit = true ∧ readDigits n digits ≤ 65535 then some (readDigits n digits)
    else none := by
  induction digits generalizing n with
  | nil => exact (if_pos ⟨rfl,hn⟩).symm
  | cons c cs ih =>
    have hcons : readDigits n (c::cs) = readDigits (n*10+(c.toNat-48)) cs := rfl
    rw [portLoop,hcons]
    by_cases hdigit : isDigit c = true
    · have hrange : ¬(c < 48 ∨ 57 < c) := by
        simpa [isDigit,not_or,UInt8.not_lt] using hdigit
      rw [if_neg hrange]
      by_cases hlarge : n*10+(c.toNat-48) > 65535
      · have hle := le_readDigits (n*10+(c.toNat-48)) cs
        have hno : ¬((c::cs).all isDigit = true ∧
            readDigits (n*10+(c.toNat-48)) cs ≤ 65535) := fun h => absurd h.2 (by omega)
        rw [if_neg hno]
        exact if_pos hlarge
      · have hall : (c::cs).all isDigit = cs.all isDigit := by
          rw [List.all_cons,hdigit,Bool.true_and]
        rw [hall,← ih (by omega)]
        exact if_neg hlarge
    · have hrange : c < 48 ∨ 57 < c := by
        by_contra hno
        rw [not_or,UInt8.not_lt,UInt8.not_lt] at hno
        exact hdigit (by simpa [isDigit] using hno)
      have hall : ¬((c::cs).all isDigit = true ∧ readDigits (n*10+(c.toNat-48)) cs ≤ 65535) := by
        rw [List.all_cons,Bool.and_eq_true]
        exact fun h => hdigit h.1.1
      rw [if_pos hrange,if_neg hall]

theorem printHeader_fits (text : List UInt8) : ∀ w ∈ printHeader text, w.Fits := by
  intro w hw
  rw [printHeader,List.mem_singleton] at hw
  have hle := List.length_take_le 71 text
  subst hw
  simp only [Write.Fits,Buffer.size,printed,List.length_append,List.length_singleton]
  omega

theorem parseAuthority_port (hhost : 58 ∉ host) (port : List UInt8) :
    parseAuthority (host ++ 58::port) =
      if 58 ∈ port ∨ host.length = 0 ∨ 64 ≤ host.length ∨ port.length = 0 ∨ 5 < port.length ∨
          ¬port.all isDigit ∨ readDigits 0 port = 0 ∨ 65535 < readDigits 0 port then none
      else some (host,readDigits 0 port,host ++ 58::decimal (readDigits 0 port)) := by
  have hfree : ∀ c ∈ host, decide (c ≠ 58) = true := fun c hc => decide_eq_true (ne_of_free hhost c hc)
  have htake : (host ++ 58::port).takeWhile (· ≠ 58) = host := by
    rw [List.takeWhile_append_of_pos hfree,List.takeWhile_cons_of_neg (by decide),List.append_nil]
  have hdrop : (host ++ 58::port).dropWhile (· ≠ 58) = 58::port := by
    rw [List.dropWhile_append_of_pos hfree,List.dropWhile_cons_of_neg (by decide)]
  rw [parseAuthority,htake,hdrop]

theorem parseAuthority_host (hhost : 58 ∉ host) : parseAuthority host =
    if host.length = 0 ∨ 64 ≤ host.length then none else some (host,otaDefaultPort,host) := by
  have hfree : ∀ c ∈ host, decide (c ≠ 58) = true := fun c hc => decide_eq_true (ne_of_free hhost c hc)
  rw [parseAuthority,List.takeWhile_eq_self_iff.2 hfree,List.dropWhile_eq_nil_iff.2 hfree]

theorem splitPort_eq (hhost : 58 ∉ host) (hport : 58 ∉ port) (rest : List UInt8) :
    (∀ w ∈ (splitPort (host ++ 58::port ++ rest) (host ++ 58::port).length host.length).1, w.Fits) ∧
      (splitPort (host ++ 58::port ++ rest) (host ++ 58::port).length host.length).2 =
        parseAuthority (host ++ 58::port) := by
  have hlen : (host ++ 58::port).length-host.length-1 = port.length := by
    rw [List.length_append,List.length_cons]
    omega
  have htake : (host ++ 58::port ++ rest).take host.length = host := by
    rw [List.append_assoc,List.take_left]
  have hdrop : (host ++ 58::port ++ rest).drop (host.length+1) = port ++ rest := by
    rw [List.append_assoc,List.drop_append,Nat.add_sub_cancel_left,
      List.drop_eq_nil_of_le (Nat.le_succ _)]
    rfl
  rw [parseAuthority_port hhost]
  simp only [splitPort,hlen,htake,hdrop,List.take_left]
  by_cases hsizes : host.length = 0 ∨ host.length ≥ 64 ∨ port.length = 0 ∨ port.length > 5
  · rw [if_pos hsizes,if_pos (by tauto)]
    exact ⟨fun w hw => absurd hw List.not_mem_nil,rfl⟩
  · have hcopied : ∀ w ∈ copyPart .otaHost 0 host ++ copyPart .portBuffer 0 port, w.Fits := by
      have hhostRoom : 0+host.length < Buffer.otaHost.size := by
        rw [Buffer.size]
        omega
      have hportRoom : 0+port.length < Buffer.portBuffer.size := by
        rw [Buffer.size]
        omega
      intro w hw
      rcases List.mem_append.1 hw with hw | hw
      · exact copyPart_fits hhostRoom w hw
      · exact copyPart_fits hportRoom w hw
    rw [if_neg hsizes,portLoop_eq (Nat.zero_le _)]
    by_cases hread : port.all isDigit = true ∧ readDigits 0 port ≤ 65535
    · rw [if_pos hread]
      by_cases hzero : readDigits 0 port = 0
      · simp only [if_pos (Or.inl hzero)]
        rw [if_pos (by tauto)]
        exact ⟨hcopied,rfl⟩
      · have hvalue : ¬(readDigits 0 port = 0 ∨ readDigits 0 port > 65535) := by omega
        have haccepted : ¬(58 ∈ port ∨ host.length = 0 ∨ 64 ≤ host.length ∨ port.length = 0 ∨
            5 < port.length ∨ ¬port.all isDigit ∨ readDigits 0 port = 0 ∨
            65535 < readDigits 0 port) := by
          rintro (h | h | h | h | h | h | h | h)
          · exact hport h
          · exact hsizes (Or.inl h)
          · exact hsizes (Or.inr (Or.inl h))
          · exact hsizes (Or.inr (Or.inr (Or.inl h)))
          · exact hsizes (Or.inr (Or.inr (Or.inr h)))
          · exact h hread.1
          · exact hzero h
          · exact absurd hread.2 (by omega)
        have hdec : (decimal (readDigits 0 port)).length ≤ 5 :=
          decimal_length_le (by omega) (by decide)
        have hwhole : printed (host ++ 58::decimal (readDigits 0 port)) =
            host ++ 58::decimal (readDigits 0 port) := by
          refine List.take_of_length_le ?_
          rw [List.length_append,List.length_cons]
          omega
        simp only [if_neg hvalue,hwhole]
        rw [if_neg haccepted]
        refine ⟨fun w hw => ?_,rfl⟩
        rcases List.mem_append.1 hw with hw | hw
        · exact hcopied w hw
        · exact printHeader_fits _ w hw
    · rw [if_neg hread,if_pos]
      · exact ⟨hcopied,rfl⟩
      · by_cases hall : port.all isDigit = true
        · have hlarge : 65535 < readDigits 0 port := not_le.1 fun hle => hread ⟨hall,hle⟩
          tauto
        · tauto

theorem splitHost_eq (hhost : 58 ∉ host) (rest : List UInt8) :
    (∀ w ∈ (splitHost (host ++ rest) host.length).1, w.Fits) ∧
      (splitHost (host ++ rest) host.length).2 = parseAuthority host := by
  rw [parseAuthority_host hhost]
  simp only [splitHost,List.take_left]
  by_cases hsizes : host.length = 0 ∨ host.length ≥ 64
  · rw [if_pos hsizes]
    exact ⟨fun w hw => absurd hw List.not_mem_nil,(if_pos hsizes).symm⟩
  · have hwhole : printed host = host := List.take_of_length_le (by omega)
    have hroom : 0+host.length < Buffer.otaHost.size := by
      rw [Buffer.size]
      omega
    rw [if_neg hsizes,hwhole]
    refine ⟨fun w hw => ?_,(if_neg hsizes).symm⟩
    rcases List.mem_append.1 hw with hw | hw
    · exact copyPart_fits hroom w hw
    · exact printHeader_fits host w hw

theorem splitAuthority_eq (authority rest : List UInt8) :
    (∀ w ∈ (splitAuthority (authority ++ rest) authority.length).1, w.Fits) ∧
      (splitAuthority (authority ++ rest) authority.length).2 = parseAuthority authority := by
  rw [splitAuthority,List.take_left]
  by_cases hcolon : 58 ∈ authority
  · obtain ⟨host,port,rfl,hhost⟩ := List.eq_append_cons_of_mem hcolon
    rw [colonLoop_colon hhost]
    by_cases hport : 58 ∈ port
    · rw [if_pos hport,parseAuthority_port hhost,if_pos (Or.inl hport)]
      exact ⟨fun w hw => absurd hw List.not_mem_nil,rfl⟩
    · rw [if_neg hport,Nat.zero_add]
      exact splitPort_eq hhost hport rest
  · rw [colonLoop_none hcolon]
    exact splitHost_eq hcolon rest

end Authority

section Whole

variable {p authority target fragment url : List UInt8}

theorem Parts.takeWhile (h : Parts p authority target fragment) :
    p.takeWhile (fun c => c ≠ 47 ∧ c ≠ 63 ∧ c ≠ 35) = authority := by
  have hfree : ∀ c ∈ authority, decide (c ≠ 47 ∧ c ≠ 63 ∧ c ≠ 35) = true := fun c hc =>
    decide_eq_true (h.authority c hc)
  have hhead := h.head
  rw [h.whole,List.takeWhile_append_of_pos hfree]
  cases hrest : target ++ fragment with
  | nil => rw [List.takeWhile_nil,List.append_nil]
  | cons c cs =>
    rw [hrest] at hhead
    have hstop : (c::cs).takeWhile (fun c => c ≠ 47 ∧ c ≠ 63 ∧ c ≠ 35) = [] := by
      refine List.takeWhile_cons_of_neg ?_
      rcases hhead c rfl with rfl | rfl | rfl <;> decide
    rw [hstop,List.append_nil]

theorem Parts.parsePath (h : Parts p authority target fragment) : Ota.parsePath p =
    if 128 ≤ (requestTarget target).length then none else some (requestTarget target) := by
  have hpath : p.takeWhile (· ≠ 35) = authority ++ target := by
    have hfree : ∀ c ∈ authority ++ target, decide (c ≠ 35) = true := by
      intro c hc
      rcases List.mem_append.1 hc with hc | hc
      · exact decide_eq_true (h.authority c hc).2.2
      · exact decide_eq_true (ne_of_free h.target c hc)
    have hfragment := h.fragment
    rw [h.whole,← List.append_assoc,List.takeWhile_append_of_pos hfree]
    cases fragment with
    | nil => rw [List.takeWhile_nil,List.append_nil]
    | cons c cs =>
      obtain rfl := hfragment c rfl
      rw [List.takeWhile_cons_of_neg (by decide),List.append_nil]
  have htarget : (authority ++ target).dropWhile (fun c => c ≠ 47 ∧ c ≠ 63) = target := by
    have hfree : ∀ c ∈ authority, decide (c ≠ 47 ∧ c ≠ 63) = true := fun c hc =>
      decide_eq_true ⟨(h.authority c hc).1,(h.authority c hc).2.1⟩
    have hbegins := h.begins
    rw [List.dropWhile_append_of_pos hfree]
    cases target with
    | nil => rfl
    | cons c cs =>
      refine List.dropWhile_cons_of_neg ?_
      rcases hbegins c rfl with rfl | rfl <;> decide
  rw [Ota.parsePath,hpath,htarget]
  cases target with
  | nil => rfl
  | cons c cs =>
    by_cases hc : c = 63
    · simp [requestTarget,hc]
    · simp [requestTarget,hc]

theorem parseUrl_eq (url : List UInt8) : parseUrl url =
    if url.length ≥ 256 then none
    else (skipScheme url).bind fun p =>
      (parseAuthority (p.takeWhile fun c => c ≠ 47 ∧ c ≠ 63 ∧ c ≠ 35)).bind fun authority =>
        (parsePath p).map fun path => ⟨authority.1,authority.2.1,authority.2.2,path⟩ := by
  rw [parseUrl,skipScheme]
  by_cases hlong : url.length ≥ 256
  · rw [if_pos hlong,if_pos hlong]
  · rw [if_neg hlong,if_neg hlong]
    by_cases hhttp : (ascii "http://").isPrefixOf url = true
    · simp only [hhttp,Bool.not_true,Bool.false_and,if_true,Bool.false_eq_true,if_false,
        Option.bind_some]
      cases parseAuthority _ <;> exact rfl
    · simp only [Bool.not_eq_true] at hhttp
      by_cases hhttps : (ascii "https://").isPrefixOf url = true
      · simp only [hhttp,hhttps,Bool.not_false,Bool.true_and,Bool.true_or,if_true,
          Bool.false_eq_true,if_false,Option.bind_none]
      · simp only [Bool.not_eq_true] at hhttps
        by_cases hscheme : (strstr url (ascii "://")).isSome = true
        · simp only [hhttp,hhttps,hscheme,Bool.not_false,Bool.true_and,Bool.false_or,if_true,
            Bool.false_eq_true,if_false,Option.bind_none]
        · simp only [Bool.not_eq_true] at hscheme
          simp only [hhttp,hhttps,hscheme,Bool.not_false,Bool.true_and,Bool.false_or,
            Bool.false_eq_true,if_false,Option.bind_some]
          cases parseAuthority _ <;> exact rfl

theorem splitUrl_eq (url : List UInt8) :
    (∀ w ∈ (splitUrl url).1, w.Fits) ∧ (splitUrl url).2 = parseUrl url := by
  rw [parseUrl_eq,splitUrl]
  by_cases hlong : url.length ≥ 256
  · rw [if_pos hlong,if_pos hlong]
    exact ⟨fun w hw => absurd hw List.not_mem_nil,rfl⟩
  · have hcopied : ∀ w ∈ copyPart .otaUrl 0 url, w.Fits := by
      apply copyPart_fits
      rw [Buffer.size]
      omega
    rw [if_neg hlong,if_neg hlong]
    cases skipScheme url with
    | none => exact ⟨hcopied,rfl⟩
    | some p =>
      obtain ⟨authority,target,fragment,hparts⟩ := exists_parts p
      obtain ⟨hauthority,hfound⟩ := splitAuthority_eq authority (target ++ fragment)
      rw [← hparts.whole] at hauthority hfound
      obtain ⟨hpath,htarget⟩ := hparts.splitPath
      rw [← hparts.parsePath] at htarget
      simp only [hparts.authorityEnd,Option.bind_some,hparts.takeWhile,← hfound,← htarget]
      rcases hsplit : splitAuthority p authority.length with ⟨more,_ | ⟨host,port,hostHeader⟩⟩
      · rw [hsplit] at hauthority
        refine ⟨fun w hw => ?_,rfl⟩
        rcases List.mem_append.1 hw with hw | hw
        · exact hcopied w hw
        · exact hauthority w hw
      · rw [hsplit] at hauthority
        have hboth : ∀ w ∈ copyPart .otaUrl 0 url ++ more, w.Fits := by
          intro w hw
          rcases List.mem_append.1 hw with hw | hw
          · exact hcopied w hw
          · exact hauthority w hw
        rcases hlast : splitPath p (strchrAt p 47) (strchrAt p 63) (strchrAt p 35) with
          ⟨last,_ | path⟩
        · rw [hlast] at hpath
          refine ⟨fun w hw => ?_,rfl⟩
          rcases List.mem_append.1 hw with hw | hw
          · exact hboth w hw
          · exact hpath w hw
        · rw [hlast] at hpath
          refine ⟨fun w hw => ?_,rfl⟩
          rcases List.mem_append.1 hw with hw | hw
          · exact hboth w hw
          · exact hpath w hw

theorem strstr_isSome {hay needle : List UInt8} :
    (strstr hay needle).isSome = true ↔ needle <:+: hay := by
  constructor
  · intro h
    obtain ⟨found,hfound⟩ := Option.isSome_iff_exists.1 h
    obtain ⟨hpre,hsuf⟩ := strstr_some hfound
    exact hpre.isInfix.trans hsuf.isInfix
  · rintro ⟨before,behind,rfl⟩
    obtain ⟨first,hfirst,-⟩ := strstr_of_occurs (List.prefix_append needle behind)
      (⟨before,(List.append_assoc ..).symm⟩ : needle ++ behind <:+ before ++ needle ++ behind)
    rw [hfirst]
    rfl

/-- The scheme: `http://` is skipped, and a URL without a scheme is taken as it is. -/
theorem skipScheme_iff {url p : List UInt8} : skipScheme url = some p ↔
    ∃ scheme, (scheme = ascii "http://" ∨ scheme = [] ∧ ¬ascii "://" <:+: url) ∧
      url = scheme ++ p := by
  have hinside : ∀ scheme, ascii "://" <:+: scheme → scheme.isPrefixOf url = true →
      ascii "://" <:+: url := fun _ hsep hpre =>
    hsep.trans (List.isPrefixOf_iff_prefix.1 hpre).isInfix
  rw [skipScheme]
  constructor
  · intro h
    by_cases hhttp : (ascii "http://").isPrefixOf url = true
    · obtain ⟨rest,rfl⟩ := List.isPrefixOf_iff_prefix.1 hhttp
      rw [if_pos hhttp] at h
      exact ⟨_,Or.inl rfl,congrArg (ascii "http://" ++ ·) (Option.some.inj h)⟩
    · rw [if_neg hhttp] at h
      by_cases hhttps : (ascii "https://").isPrefixOf url = true
      · rw [if_pos hhttps] at h
        cases h
      · rw [if_neg hhttps] at h
        by_cases hsep : (strstr url (ascii "://")).isSome = true
        · rw [if_pos hsep] at h
          cases h
        · rw [if_neg hsep] at h
          exact ⟨[],Or.inr ⟨rfl,fun hno => hsep (strstr_isSome.2 hno)⟩,Option.some.inj h⟩
  · rintro ⟨scheme,rfl | ⟨rfl,hno⟩,hurl⟩
    · have hhttp : (ascii "http://").isPrefixOf url = true :=
        List.isPrefixOf_iff_prefix.2 ⟨p,hurl.symm⟩
      rw [if_pos hhttp,hurl]
      exact rfl
    · have hhttp : ¬(ascii "http://").isPrefixOf url = true := fun h =>
        hno (hinside _ ⟨ascii "http",[],rfl⟩ h)
      have hhttps : ¬(ascii "https://").isPrefixOf url = true := fun h =>
        hno (hinside _ ⟨ascii "https",[],rfl⟩ h)
      have hsep : ¬(strstr url (ascii "://")).isSome = true := fun h => hno (strstr_isSome.1 h)
      rw [if_neg hhttp,if_neg hhttps,if_neg hsep,hurl]
      exact rfl

theorem parseAuthority_iff {authority host hostHeader : List UInt8} {port : ℕ} :
    parseAuthority authority = some (host,port,hostHeader) ↔
      IsAuthority authority host port hostHeader := by
  constructor
  · intro h
    by_cases hcolon : 58 ∈ authority
    · obtain ⟨name,digits,rfl,hname⟩ := List.eq_append_cons_of_mem hcolon
      rw [parseAuthority_port hname] at h
      split at h
      · cases h
      · rename_i hok
        simp only [not_or,not_not] at hok
        cases h
        obtain ⟨-,hpos,hlen,hdigits,hfive,hall,hzero,hlarge⟩ := hok
        refine ⟨?_,by omega,hname,Or.inr ⟨digits,rfl,⟨?_,?_,rfl⟩,by omega,by omega,by omega,rfl⟩⟩
        · exact fun hnil => hpos (hnil ▸ rfl)
        · exact fun hnil => hdigits (hnil ▸ rfl)
        · simpa using hall
    · rw [parseAuthority_host hcolon] at h
      split at h
      · cases h
      · rename_i hok
        rw [not_or] at hok
        cases h
        exact ⟨fun hnil => hok.1 (hnil ▸ rfl),by omega,hcolon,Or.inl ⟨rfl,rfl,rfl⟩⟩
  · rintro ⟨hne,hlen,hfree,⟨rfl,rfl,rfl⟩ | ⟨digits,rfl,⟨hdigits,hall,rfl⟩,hfive,hone,hlarge,rfl⟩⟩
    · have hpos := List.length_pos_of_ne_nil hne
      rw [parseAuthority_host hfree,if_neg (by omega)]
      exact rfl
    · have hpos := List.length_pos_of_ne_nil hne
      have hmany := List.length_pos_of_ne_nil hdigits
      have hcolon : 58 ∉ digits := fun hmem => absurd (hall 58 hmem) (by decide)
      have hok : ¬(58 ∈ digits ∨ host.length = 0 ∨ 64 ≤ host.length ∨ digits.length = 0 ∨
          5 < digits.length ∨ ¬digits.all isDigit ∨ readDigits 0 digits = 0 ∨
          65535 < readDigits 0 digits) := by
        have hdec : digits.all isDigit = true := List.all_eq_true.2 hall
        simp only [hcolon,hdec,not_true,false_or]
        omega
      rw [parseAuthority_port hfree,if_neg hok]

theorem parseUrl_iff {u : Url} : parseUrl url = some u ↔ Splits url u := by
  rw [parseUrl_eq]
  constructor
  · intro h
    by_cases hlong : url.length ≥ 256
    · rw [if_pos hlong] at h
      cases h
    · rw [if_neg hlong] at h
      obtain ⟨p,hp,h⟩ := Option.bind_eq_some_iff.1 h
      obtain ⟨scheme,hscheme,hurl⟩ := skipScheme_iff.1 hp
      obtain ⟨authority,target,fragment,hparts⟩ := exists_parts p
      rw [hparts.takeWhile] at h
      obtain ⟨⟨host,port,hostHeader⟩,hauthority,h⟩ := Option.bind_eq_some_iff.1 h
      obtain ⟨path,hpath,rfl⟩ := Option.map_eq_some_iff.1 h
      rw [hparts.parsePath] at hpath
      split at hpath
      · cases hpath
      · rename_i hfits
        cases hpath
        exact ⟨by omega,scheme,authority,target,fragment,hscheme,⟨p,hurl,hparts⟩,
          parseAuthority_iff.1 hauthority,rfl,not_le.1 hfits⟩
  · rintro ⟨hshort,scheme,authority,target,fragment,hscheme,⟨p,hurl,hparts⟩,hauthority,hpath,hfits⟩
    rw [hpath] at hfits
    rw [if_neg (by omega),skipScheme_iff.2 ⟨scheme,hscheme,hurl⟩,Option.bind_some,hparts.takeWhile,
      parseAuthority_iff.2 hauthority,Option.bind_some,hparts.parsePath,if_neg (by omega),
      Option.map_some,← hpath]

end Whole

section Start

variable {P : Platform}

theorem reportExhausted_url (s : State P) : (reportExhausted s).url = s.url := by
  simp only [reportExhausted,State.report,State.post]
  split_ifs <;> rfl

theorem otaTriggerReconnect_url (s : State P) (reason : RetryReason) :
    (otaTriggerReconnect s reason).url = s.url := by
  rw [otaTriggerReconnect]
  split
  · rfl
  · have hseen : ∀ t : State P, (seeFailure t reason).url = t.url := fun t => by cases reason <;> rfl
    simp only
    split
    · rw [retryLater]
      split
      · exact hseen _
      · exact hseen _
    · rw [retryExhausted]
      exact (reportExhausted_url _).trans (hseen _)

theorem dnsGethostbyname_url (s : State P) (dns : DnsResult) :
    (dnsGethostbyname s dns).url = s.url := by
  cases dns with
  | ok connectOk =>
    rw [dnsGethostbyname,otaDnsFoundCb]
    split
    · rfl
    · cases connectOk with
      | false => exact otaTriggerReconnect_url _ _
      | true => rfl
  | inProgress => rfl
  | error => exact otaTriggerReconnect_url _ _

/-- With well-formed digests the update starts just when the URL can be split, and it has its
parts. -/
theorem startOtaUpdate_url (s : State P) (a : StartArgs)
    (h₁ : (otaParseSha256 a.hexSha256₁).isSome = true)
    (h₂ : (otaParseSha256 a.hexSha256₂).isSome = true) :
    ((startOtaUpdate s a).2 = true ↔ ∃ u, a.url.bind parseUrl = some u) ∧
      ∀ u, a.url.bind parseUrl = some u → (startOtaUpdate s a).1.url = u := by
  have hok := setDigests_ok (resetForStart s) a.hexSha256₁ a.hexSha256₂
  rw [h₁,h₂] at hok
  rw [startOtaUpdate]
  rcases hset : setDigests (resetForStart s) a.hexSha256₁ a.hexSha256₂ with ⟨t,ok⟩
  rw [hset] at hok
  obtain rfl : ok = true := hok
  cases hurl : a.url.bind parseUrl with
  | none =>
    constructor
    · refine iff_of_false Bool.false_ne_true ?_
      rintro ⟨u,hu⟩
      cases hu
    · intro u hu
      cases hu
  | some url =>
    refine ⟨iff_of_true rfl ⟨url,rfl⟩,fun u hu => ?_⟩
    exact (dnsGethostbyname_url _ a.dns).trans (Option.some.inj hu)

/-- Every URL is refused or split into its parts, and no buffer is overrun. -/
theorem url_split (url : List UInt8) :
    (∀ w ∈ (splitUrl url).1, w.Fits) ∧ (∀ u, (splitUrl url).2 = some u ↔ Splits url u) ∧
      ∀ (s : State P) (a : StartArgs), a.url = some url →
        (otaParseSha256 a.hexSha256₁).isSome = true → (otaParseSha256 a.hexSha256₂).isSome = true →
        ((startOtaUpdate s a).2 = true ↔ ∃ u, Splits url u) ∧
          ∀ u, Splits url u → (startOtaUpdate s a).1.url = u := by
  obtain ⟨hfits,hsplit⟩ := splitUrl_eq url
  refine ⟨hfits,fun u => hsplit ▸ parseUrl_iff,?_⟩
  intro s a hurl h₁ h₂
  have hstart := startOtaUpdate_url s a h₁ h₂
  rw [hurl,Option.bind_some] at hstart
  simp only [parseUrl_iff] at hstart
  exact hstart

end Start

end Ota
end MeterLogger
