import MeterLogger.Bytes
import MeterLogger.CStrings

/-!
# Parsing of HTTP response headers

The parsing functions of `ota.c` over C strings. The header buffer holds the header and
whatever body bytes came with it; none of the functions looks behind the blank line that
ends the header, so what they return does not depend on how the stream was cut.
-/

namespace MeterLogger
namespace OtaHeader

open CStrings

def crlf : List UInt8 := ascii "\r\n"
def headerEnd : List UInt8 := ascii "\r\n\r\n"

def otaAsciiLower (c : UInt8) : UInt8 := if 65 ≤ c ∧ c ≤ 90 then c+32 else c

/-- `ota_ascii_equal_n` for a string `b` of at least `n` bytes. -/
def otaAsciiEqualN (a b : List UInt8) (n : ℕ) : Bool :=
  (a.take n).map otaAsciiLower = (b.take n).map otaAsciiLower

/-- One header line: the value of its field, if it is `name`, and whether it came before. -/
def headerLine (name line lineEnd : List UInt8) (found : Option (List UInt8) × Bool) :
    Option (List UInt8) × Bool :=
  match strchr line 58 with
  | none => found
  | some colon =>
    if lineEnd.length < colon.length ∧ line.length-colon.length = name.length ∧
        otaAsciiEqualN line name name.length then
      match found.1 with
      | some value => (some value,true)
      | none => (some ((colon.drop 1).dropWhile isBlank),found.2)
    else found

def headerLoop (name : List UInt8) :
    ℕ → List UInt8 → Option (List UInt8) × Bool → Option (List UInt8) × Bool
  | 0, _, found => found
  | fuel+1, line, found =>
    if line = [] ∨ crlf.isPrefixOf line then found
    else
      match strstr line crlf with
      | none => (none,found.2)
      | some lineEnd => headerLoop name fuel (lineEnd.drop 2) (headerLine name line lineEnd found)

/-- The value of a header field and whether the field occurs twice. -/
def otaGetHeaderValue (headers name : List UInt8) : Option (List UInt8) × Bool :=
  match strstr headers crlf with
  | none => (none,false)
  | some line => headerLoop name headers.length (line.drop 2) (none,false)

/-- The digits of a number; fails where the value would leave 32 bits. -/
def otaDigits : ℕ → List UInt8 → Option (ℕ × List UInt8)
  | value, [] => some (value,[])
  | value, b::p =>
    if isDigit b then
      if value > (0xFFFFFFFF-(b.toNat-48))/10 then none
      else otaDigits (value*10+(b.toNat-48)) p
    else some (value,b::p)

def otaNumber (p : List UInt8) : Option (ℕ × List UInt8) :=
  if isDigit (p.headD 0) then otaDigits 0 p else none

def atLineEnd (p : List UInt8) : Bool := p.headD 0 ∈ [13,10,0]

def otaParseUint32 (p : List UInt8) : Option ℕ := do
  let (value,p) ← otaNumber (p.dropWhile isBlank)
  if atLineEnd (p.dropWhile isBlank) then some value else none

def skipByte (c : UInt8) : List UInt8 → Option (List UInt8)
  | [] => none
  | b::p => if b = c then some p else none

/-- `bytes START-END/TOTAL`. -/
def otaParseContentRange (p : List UInt8) : Option (ℕ × ℕ × ℕ) :=
  let p := p.dropWhile isBlank
  if ¬otaAsciiEqualN p (ascii "bytes") 5 ∨ ¬isBlank ((p.drop 5).headD 0) then none
  else do
    let (start,p) ← otaNumber ((p.drop 5).dropWhile isBlank)
    let p ← skipByte 45 p
    let (stop,p) ← otaNumber p
    let p ← skipByte 47 p
    let (total,p) ← otaNumber p
    if atLineEnd (p.dropWhile isBlank) then some (start,stop,total) else none

def otaParseStatusCode (line : List UInt8) : Option ℕ :=
  match strstr line crlf with
  | none => none
  | some lineEnd =>
    if ¬((ascii "HTTP/1.0 ").isPrefixOf line ∨ (ascii "HTTP/1.1 ").isPrefixOf line) then none
    else if line.length-lineEnd.length < 12 then none
    else if ¬(isDigit (line.getD 9 0) ∧ isDigit (line.getD 10 0) ∧ isDigit (line.getD 11 0)) then
      none
    else if line.getD 12 0 ≠ 32 ∧ line.getD 12 0 ≠ 13 then none
    else some (((line.getD 9 0).toNat-48)*100+((line.getD 10 0).toNat-48)*10+
      ((line.getD 11 0).toNat-48))

/-- `hex_char_to_val`, `none` for -1. -/
def hexCharToVal (c : UInt8) : Option ℕ :=
  if 48 ≤ c ∧ c ≤ 57 then some (c.toNat-48)
  else if 97 ≤ c ∧ c ≤ 102 then some (c.toNat-97+10)
  else if 65 ≤ c ∧ c ≤ 70 then some (c.toNat-65+10)
  else none

def hexToBytes : List UInt8 → Option (List UInt8)
  | high::low::hex => do
    let high ← hexCharToVal high
    let low ← hexCharToVal low
    let bytes ← hexToBytes hex
    some (UInt8.ofNat (high*16+low)::bytes)
  | _ => some []

/-- `ota_parse_sha256`: `none` for a malformed digest, `some none` for a missing one. -/
def otaParseSha256 (hex : Option (List UInt8)) : Option (Option (List UInt8)) :=
  match hex with
  | none => some none
  | some [] => some none
  | some hex => if hex.length ≠ 64 then none else (hexToBytes hex).map some

/-- The size of the header in the buffer, with the blank line that ends it. -/
def totalHeaderSize (buffer : List UInt8) : Option ℕ :=
  (strstr (cstr buffer) headerEnd).map fun marker => (cstr buffer).length-marker.length+4

section Line

variable {p : List UInt8}

/-- A pointer with a carriage return still to come reads the same when the string goes on. -/
theorem blanks_append (h : 13 ∈ p) (rest : List UInt8) :
    (p ++ rest).dropWhile isBlank = p.dropWhile isBlank ++ rest ∧ 13 ∈ p.dropWhile isBlank :=
  dropWhile_append_of_mem h (by decide) rest

theorem headD_append (h : 13 ∈ p) (rest : List UInt8) : (p ++ rest).headD 0 = p.headD 0 := by
  cases p with
  | nil => exact absurd h List.not_mem_nil
  | cons b p => rfl

theorem otaDigits_append (h : 13 ∈ p) (rest : List UInt8) (value : ℕ) :
    otaDigits value (p ++ rest) = (otaDigits value p).map (fun r => (r.1,r.2 ++ rest)) ∧
      ∀ r, otaDigits value p = some r → 13 ∈ r.2 := by
  induction p generalizing value with
  | nil => exact absurd h List.not_mem_nil
  | cons b p ih =>
    rw [List.cons_append,otaDigits,otaDigits]
    by_cases hb : isDigit b = true
    · rw [if_pos hb,if_pos hb]
      split
      · exact ⟨rfl,fun r hr => absurd hr (by simp)⟩
      · have hne : (13 : UInt8) ≠ b := fun h => by rw [← h] at hb; exact absurd hb (by decide)
        exact ih ((List.mem_cons.mp h).resolve_left hne) _
    · rw [if_neg hb,if_neg hb]
      refine ⟨rfl,?_⟩
      rintro r ⟨⟩
      exact h

theorem otaNumber_append (h : 13 ∈ p) (rest : List UInt8) :
    otaNumber (p ++ rest) = (otaNumber p).map (fun r => (r.1,r.2 ++ rest)) ∧
      ∀ r, otaNumber p = some r → 13 ∈ r.2 := by
  rw [otaNumber,otaNumber,headD_append h]
  split
  · exact otaDigits_append h rest 0
  · exact ⟨rfl,fun r hr => absurd hr (by simp)⟩

theorem skipByte_append {c : UInt8} (hc : c ≠ 13) (h : 13 ∈ p) (rest : List UInt8) :
    skipByte c (p ++ rest) = (skipByte c p).map (· ++ rest) ∧
      ∀ r, skipByte c p = some r → 13 ∈ r := by
  cases p with
  | nil => exact absurd h List.not_mem_nil
  | cons b p =>
    rw [List.cons_append,skipByte,skipByte]
    split
    · rename_i hb
      refine ⟨rfl,?_⟩
      rintro r ⟨⟩
      exact (List.mem_cons.mp h).resolve_left fun h => hc (by rw [← hb,h])
    · exact ⟨rfl,fun r hr => absurd hr (by simp)⟩

theorem atLineEnd_append (h : 13 ∈ p) (rest : List UInt8) :
    atLineEnd ((p ++ rest).dropWhile isBlank) = atLineEnd (p.dropWhile isBlank) := by
  obtain ⟨heq,hmem⟩ := blanks_append h rest
  rw [heq,atLineEnd,headD_append hmem,atLineEnd]

theorem otaParseUint32_append (h : 13 ∈ p) (rest : List UInt8) :
    otaParseUint32 (p ++ rest) = otaParseUint32 p := by
  obtain ⟨hblank,hmem⟩ := blanks_append h rest
  obtain ⟨hnum,hkeep⟩ := otaNumber_append hmem rest
  rw [otaParseUint32,otaParseUint32,hblank,hnum]
  cases hn : otaNumber (p.dropWhile isBlank) with
  | none => rfl
  | some r =>
    show (if atLineEnd ((r.2 ++ rest).dropWhile isBlank) then some r.1 else none) = _
    rw [atLineEnd_append (hkeep r hn)]
    rfl

theorem otaAsciiLower_cr (b : UInt8) : otaAsciiLower b = 13 ↔ b = 13 := by
  revert b
  exact Bytes.forall_byte (by decide +kernel)

theorem otaAsciiEqualN_append (h : 13 ∈ p) {name : List UInt8} (hname : 13 ∉ name)
    (rest : List UInt8) :
    otaAsciiEqualN (p ++ rest) name name.length = otaAsciiEqualN p name name.length := by
  by_cases hle : name.length ≤ p.length
  · rw [otaAsciiEqualN,otaAsciiEqualN,List.take_append_of_le_length hle]
  · have hno : ∀ q : List UInt8, 13 ∈ q.take name.length →
        otaAsciiEqualN q name name.length = false := by
      intro q hq
      rw [otaAsciiEqualN,decide_eq_false_iff_not]
      intro heq
      have hlow : (13 : UInt8) ∈ (q.take name.length).map otaAsciiLower :=
        List.mem_map.mpr ⟨13,hq,by decide⟩
      rw [heq,List.take_length,List.mem_map] at hlow
      obtain ⟨b,hb,hlow⟩ := hlow
      rw [otaAsciiLower_cr] at hlow
      exact hname (hlow ▸ hb)
    rw [hno p (by rwa [List.take_of_length_le (by omega)]),hno (p ++ rest)]
    rw [List.take_append,List.take_of_length_le (by omega)]
    exact List.mem_append_left _ h

theorem otaParseContentRange_append (h : 13 ∈ p) (rest : List UInt8) :
    otaParseContentRange (p ++ rest) = otaParseContentRange p := by
  obtain ⟨hblank,hmem⟩ := blanks_append h rest
  have hname := otaAsciiEqualN_append hmem (show 13 ∉ ascii "bytes" by decide) rest
  rw [otaParseContentRange,otaParseContentRange,hblank]
  generalize p.dropWhile isBlank = q at *
  change otaAsciiEqualN (q ++ rest) (ascii "bytes") 5 = otaAsciiEqualN q (ascii "bytes") 5 at hname
  by_cases hq : otaAsciiEqualN q (ascii "bytes") 5 = true
  · have hcr : 13 ∈ q.drop 5 := by
      rw [← List.take_append_drop 5 q,List.mem_append] at hmem
      refine hmem.resolve_left fun hin => ?_
      rw [otaAsciiEqualN,decide_eq_true_iff] at hq
      have hlow : (13 : UInt8) ∈ (q.take 5).map otaAsciiLower := List.mem_map.mpr ⟨13,hin,by decide⟩
      rw [hq] at hlow
      exact absurd hlow (by decide)
    have hdrop : (q ++ rest).drop 5 = q.drop 5 ++ rest := by
      apply List.drop_append_of_le_length
      rw [otaAsciiEqualN,decide_eq_true_iff] at hq
      have hlen := congrArg List.length hq
      simp only [List.length_map,List.length_take] at hlen
      have hfive : (ascii "bytes").length = 5 := by decide
      omega
    obtain ⟨hblank₂,hmem₂⟩ := blanks_append hcr rest
    simp only [hname,hdrop,headD_append hcr,hblank₂]
    split
    · rfl
    · obtain ⟨hn₁,hk₁⟩ := otaNumber_append hmem₂ rest
      rw [hn₁]
      cases h₁ : otaNumber ((q.drop 5).dropWhile isBlank) with
      | none => rfl
      | some start =>
        obtain ⟨hs₁,hk₂⟩ := skipByte_append (c := 45) (by decide) (hk₁ _ h₁) rest
        simp only [Option.map_some,Option.bind_eq_bind,Option.bind_some,hs₁]
        cases h₂ : skipByte 45 start.2 with
        | none => rfl
        | some p₂ =>
          obtain ⟨hn₂,hk₃⟩ := otaNumber_append (hk₂ _ h₂) rest
          simp only [Option.map_some,Option.bind_some,hn₂]
          cases h₃ : otaNumber p₂ with
          | none => rfl
          | some stop =>
            obtain ⟨hs₂,hk₄⟩ := skipByte_append (c := 47) (by decide) (hk₃ _ h₃) rest
            simp only [Option.map_some,Option.bind_some,hs₂]
            cases h₄ : skipByte 47 stop.2 with
            | none => rfl
            | some p₄ =>
              obtain ⟨hn₃,hk₅⟩ := otaNumber_append (hk₄ _ h₄) rest
              simp only [Option.map_some,Option.bind_some,hn₃]
              cases h₅ : otaNumber p₄ with
              | none => rfl
              | some total =>
                simp only [Option.map_some,Option.bind_some,atLineEnd_append (hk₅ _ h₅)]
  · simp only [hname,hq]
    rfl

end Line

/-- The start of a line of the header, which ends with a blank line: more lines to come, or the empty
one. -/
def AtLine (line : List UInt8) : Prop := headerEnd <:+ line ∨ line = crlf

theorem AtLine.length_pos {line : List UInt8} (h : AtLine line) : 0 < line.length := by
  rcases h with h | rfl
  · have hle := h.length_le
    have hfour : headerEnd.length = 4 := by decide
    omega
  · decide

theorem suffix_of_length_le {a b s : List UInt8} (ha : a <:+ s) (hb : b <:+ s)
    (h : a.length ≤ b.length) : a <:+ b := List.suffix_of_suffix_length_le ha hb h

theorem lineEnd_spec {line : List UInt8} (h : headerEnd <:+ line) :
    ∃ lineEnd, strstr line crlf = some lineEnd ∧ crlf <+: lineEnd ∧ lineEnd <:+ line ∧
      AtLine (lineEnd.drop 2) := by
  have hfour : headerEnd.length = 4 := by decide
  obtain ⟨lineEnd,hfind,hlen⟩ := strstr_of_occurs (show crlf <+: headerEnd by decide) h
  obtain ⟨hpre,hsuf⟩ := strstr_some hfind
  refine ⟨lineEnd,hfind,hpre,hsuf,?_⟩
  obtain ⟨front,rfl⟩ := suffix_of_length_le h hsuf hlen
  cases front with
  | nil => exact Or.inr (by decide)
  | cons a front =>
    cases front with
    | nil =>
      exfalso
      obtain ⟨rest,hrest⟩ := hpre
      have hcrlf : crlf = [13,10] := by decide
      have hend : headerEnd = [13,10,13,10] := by decide
      simp [hcrlf,hend] at hrest
    | cons b front => exact Or.inl (List.suffix_append _ _)

/-- The two answers of a header search are the same, one with the rest behind it. -/
def Extends (rest : List UInt8) (short long : Option (List UInt8) × Bool) : Prop :=
  long = (short.1.map (· ++ rest),short.2) ∧ ∀ value, short.1 = some value → 13 ∈ value

theorem headerLine_extends {name line lineEnd rest : List UInt8} {short long}
    (hname : 13 ∉ name) (hpre : crlf <+: lineEnd) (hsuf : lineEnd <:+ line)
    (h : Extends rest short long) :
    Extends rest (headerLine name line lineEnd short)
      (headerLine name (line ++ rest) (lineEnd ++ rest) long) := by
  obtain ⟨rfl,hcr⟩ := h
  rw [headerLine,headerLine]
  cases hc : strchr line 58 with
  | none =>
    refine ⟨?_,hcr⟩
    cases hc' : strchr (line ++ rest) 58 with
    | none => rfl
    | some colon =>
      have hle := (strchr_none_append hc hc').length_le
      have hlt : ¬(lineEnd ++ rest).length < colon.length := by
        simp only [List.length_append]
        omega
      simp only [hlt,false_and,if_false]
  | some colon =>
    rw [strchr_append hc]
    have hlt : (lineEnd ++ rest).length < (colon ++ rest).length ↔
        lineEnd.length < colon.length := by simp
    have hsub : (line ++ rest).length-(colon ++ rest).length = line.length-colon.length := by
      simp only [List.length_append]
      omega
    have hcolon := (strchr_some hc).1
    have hmemLine : 13 ∈ lineEnd := hpre.subset (by decide)
    have heq := otaAsciiEqualN_append (hsuf.subset hmemLine) hname rest
    simp only [hlt,hsub,heq]
    split
    · rename_i hcond
      have hvalue : 13 ∈ colon.drop 1 := by
        have hin : lineEnd <:+ colon.drop 1 :=
          suffix_of_length_le hsuf ((List.drop_suffix 1 colon).trans hcolon) (by simp; omega)
        exact hin.subset hmemLine
      obtain ⟨hblank,hmem⟩ := blanks_append hvalue rest
      have hdrop : (colon ++ rest).drop 1 = colon.drop 1 ++ rest :=
        List.drop_append_of_le_length (by omega)
      cases hv : short.1 with
      | none =>
        refine ⟨?_,?_⟩
        · simp only [Option.map_none,Option.map_some,hdrop,hblank]
        · rintro value ⟨⟩
          exact hmem
      | some value =>
        refine ⟨rfl,?_⟩
        rintro value ⟨⟩
        exact hcr _ hv
    · exact ⟨rfl,hcr⟩

theorem headerLoop_extends {name rest : List UInt8} (hname : 13 ∉ name) (fuel fuel' : ℕ)
    {line : List UInt8} (hline : AtLine line) (hfuel : line.length ≤ fuel)
    (hfuel' : (line ++ rest).length ≤ fuel') {short long} (h : Extends rest short long) :
    Extends rest (headerLoop name fuel line short) (headerLoop name fuel' (line ++ rest) long) := by
  induction fuel generalizing fuel' line short long with
  | zero => exact absurd hline.length_pos (by omega)
  | succ fuel ih =>
    have hpos := hline.length_pos
    have hne : line ≠ [] := List.ne_nil_of_length_pos hpos
    have hne' : line ++ rest ≠ [] := by simp [hne]
    obtain ⟨fuel',rfl⟩ : ∃ n, fuel' = n+1 := ⟨fuel'-1,by simp at hfuel'; omega⟩
    rw [headerLoop,headerLoop]
    by_cases hp : crlf.isPrefixOf line = true
    · have hp' : crlf.isPrefixOf (line ++ rest) = true := by
        rw [List.isPrefixOf_iff_prefix] at *
        exact hp.trans (List.prefix_append _ _)
      rw [if_pos (Or.inr hp),if_pos (Or.inr hp')]
      exact h
    · have hmore : headerEnd <:+ line := by
        refine hline.resolve_right fun heq => hp ?_
        rw [heq]
        decide
      have hp' : ¬crlf.isPrefixOf (line ++ rest) = true := by
        rw [List.isPrefixOf_iff_prefix] at *
        intro hpre
        apply hp
        exact List.prefix_of_prefix_length_le hpre (List.prefix_append _ _)
          (Nat.le_trans (by decide) hmore.length_le)
      obtain ⟨lineEnd,hfind,hpre,hsuf,hnext⟩ := lineEnd_spec hmore
      have hfind' := strstr_append hfind rest
      rw [if_neg (by simp [hne,hp]),if_neg (by simp [hne,hp']),hfind,hfind']
      have hlenEnd := hsuf.length_le
      have htwo := hpre.length_le
      have hcrlf : crlf.length = 2 := by decide
      have hdrop : (lineEnd ++ rest).drop 2 = lineEnd.drop 2 ++ rest :=
        List.drop_append_of_le_length (by omega)
      show Extends rest (headerLoop name fuel (lineEnd.drop 2) _)
        (headerLoop name fuel' ((lineEnd ++ rest).drop 2) _)
      rw [hdrop]
      apply ih fuel' hnext
      · simp only [List.length_drop]
        omega
      · simp only [List.length_append,List.length_drop] at *
        omega
      · exact headerLine_extends hname hpre hsuf h

theorem otaGetHeaderValue_extends {name headers : List UInt8} (hname : 13 ∉ name)
    (h : headerEnd <:+ headers) (rest : List UInt8) :
    Extends rest (otaGetHeaderValue headers name) (otaGetHeaderValue (headers ++ rest) name) := by
  obtain ⟨line,hfind,hpre,hsuf,hnext⟩ := lineEnd_spec h
  rw [otaGetHeaderValue,otaGetHeaderValue,hfind,strstr_append hfind]
  have htwo := hpre.length_le
  have hcrlf : crlf.length = 2 := by decide
  have hle := hsuf.length_le
  have hdrop : (line ++ rest).drop 2 = line.drop 2 ++ rest :=
    List.drop_append_of_le_length (by omega)
  show Extends rest (headerLoop name _ (line.drop 2) _) (headerLoop name _ ((line ++ rest).drop 2) _)
  rw [hdrop]
  apply headerLoop_extends hname _ _ hnext
  · simp only [List.length_drop]
    omega
  · simp only [List.length_append,List.length_drop]
    omega
  · exact ⟨rfl,fun _ hv => absurd hv (by simp)⟩

theorem otaParseStatusCode_append {headers : List UInt8} (h : headerEnd <:+ headers)
    (rest : List UInt8) : otaParseStatusCode (headers ++ rest) = otaParseStatusCode headers := by
  obtain ⟨lineEnd,hfind,hpre,hsuf,_⟩ := lineEnd_spec h
  rw [otaParseStatusCode,otaParseStatusCode,hfind,strstr_append hfind]
  have hsub : (headers ++ rest).length-(lineEnd ++ rest).length = headers.length-lineEnd.length := by
    simp only [List.length_append]
    omega
  by_cases hlen : headers.length-lineEnd.length < 12
  · simp only [hsub,hlen,if_true,ite_self]
  · have htwo := hpre.length_le
    have hcrlf : crlf.length = 2 := by decide
    have hget : ∀ i, i < 14 → (headers ++ rest).getD i 0 = headers.getD i 0 := by
      intro i hi
      simp [List.getD,List.getElem?_append_left (show i < headers.length by omega)]
    have hversion : ∀ s : List UInt8, s.length = 9 →
        s.isPrefixOf (headers ++ rest) = s.isPrefixOf headers := by
      intro s hs
      rw [Bool.eq_iff_iff,List.isPrefixOf_iff_prefix,List.isPrefixOf_iff_prefix]
      constructor
      · intro hlong
        exact List.prefix_of_prefix_length_le hlong (List.prefix_append _ _) (by omega)
      · intro hshort
        exact hshort.trans (List.prefix_append _ _)
    simp only [hsub,hget 9 (by omega),hget 10 (by omega),hget 11 (by omega),hget 12 (by omega),
      hversion (ascii "HTTP/1.0 ") (by decide),hversion (ascii "HTTP/1.1 ") (by decide)]

section Size

variable {buffer : List UInt8} {n : ℕ}

/-- The header is the start of the buffer up to its blank line, and has no NUL. -/
theorem totalHeaderSize_spec (h : totalHeaderSize buffer = some n) :
    n ≤ buffer.length ∧ headerEnd <:+ buffer.take n ∧
      ∀ rest, cstr (buffer ++ rest) = buffer.take n ++ cstr (buffer.drop n ++ rest) := by
  rw [totalHeaderSize,Option.map_eq_some_iff] at h
  obtain ⟨marker,hfind,rfl⟩ := h
  obtain ⟨⟨tail,rfl⟩,⟨front,hfront⟩⟩ := strstr_some hfind
  have hfour : headerEnd.length = 4 := by decide
  have hn : (cstr buffer).length-(headerEnd ++ tail).length+4 = (front ++ headerEnd).length := by
    rw [← hfront]
    simp only [List.length_append]
    omega
  have hpre : front ++ headerEnd <+: buffer := by
    refine List.IsPrefix.trans ⟨tail,?_⟩ (cstr_isInitial buffer)
    rw [List.append_assoc]
    exact hfront
  have hzero : (0 : UInt8) ∉ front ++ headerEnd := by
    intro hm
    apply zero_not_mem_cstr buffer
    rw [← hfront,← List.append_assoc]
    exact List.mem_append_left _ hm
  have htake : buffer.take (front ++ headerEnd).length = front ++ headerEnd :=
    (List.prefix_iff_eq_take.mp hpre).symm
  rw [hn]
  refine ⟨hpre.length_le,?_,?_⟩
  · rw [htake]
    exact List.suffix_append _ _
  · intro rest
    conv_lhs => rw [← List.take_append_drop (front ++ headerEnd).length buffer]
    rw [htake,List.append_assoc,cstr_append hzero]

theorem totalHeaderSize_append (h : totalHeaderSize buffer = some n) (rest : List UInt8) :
    totalHeaderSize (buffer ++ rest) = some n := by
  obtain ⟨hle,_,hcut⟩ := totalHeaderSize_spec h
  rw [totalHeaderSize,Option.map_eq_some_iff] at h
  obtain ⟨marker,hfind,hn⟩ := h
  by_cases hz : (0 : UInt8) ∈ buffer
  · rw [totalHeaderSize,cstr_of_mem hz,hfind]
    exact congrArg some hn
  · rw [totalHeaderSize,cstr_append hz]
    rw [cstr_self hz] at hfind hn
    rw [strstr_append hfind]
    refine congrArg some ?_
    simp only [List.length_append]
    omega

theorem totalHeaderSize_of_append {rest : List UInt8}
    (h : totalHeaderSize (buffer ++ rest) = some n) (hn : n ≤ buffer.length) :
    totalHeaderSize buffer = some n := by
  by_cases hz : (0 : UInt8) ∈ buffer
  · rwa [totalHeaderSize,cstr_of_mem hz] at h
  · rw [totalHeaderSize,cstr_append hz,Option.map_eq_some_iff] at h
    obtain ⟨marker,hfind,hsize⟩ := h
    have hfour : headerEnd.length = 4 := by decide
    have hle := (strstr_some hfind).2.length_le
    have hfit : headerEnd.length+(cstr rest).length ≤ marker.length := by
      simp only [List.length_append] at *
      omega
    obtain ⟨short,hshort,rfl⟩ := strstr_of_append hfind hfit
    rw [totalHeaderSize,cstr_self hz,hshort]
    refine congrArg some ?_
    simp only [List.length_append] at *
    omega

end Size

end OtaHeader
end MeterLogger
