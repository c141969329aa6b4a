import MeterLogger.OtaHeader

/-!
# Lookup of a header field

A header is a status line and lines that end with CRLF, up to the first empty one. The lookup of a
field finds the value of the first line with its name, and tells whether there is another one.
-/

namespace MeterLogger
namespace OtaLookup

open CStrings OtaHeader

def OneLine (line : List UInt8) : Prop := ¬crlf <:+: line

instance (line : List UInt8) : Decidable (OneLine line) :=
  inferInstanceAs (Decidable (¬crlf <:+: line))

/-- The lines with the empty line behind them, and what follows it. -/
def linesText (lines : List (List UInt8)) (body : List UInt8) : List UInt8 :=
  lines.foldr (fun line text => line ++ (crlf ++ text)) (crlf ++ body)

/-- The status line, the header lines up to the first empty one, and what is behind that. -/
structure Sections (headers status : List UInt8) (lines : List (List UInt8))
    (body : List UInt8) : Prop where
  statusLine : OneLine status
  headerLines : ∀ line ∈ lines, line ≠ [] ∧ OneLine line
  eq : headers = status ++ (crlf ++ linesText lines body)

/-- The name in front of the first colon is `name`, in any case. -/
def isField (name line : List UInt8) : Bool :=
  58 ∈ line && (line.takeWhile (· ≠ 58)).map otaAsciiLower = name.map otaAsciiLower

def fieldValue (line : List UInt8) : List UInt8 :=
  ((line.dropWhile (· ≠ 58)).drop 1).dropWhile isBlank

/-- The pointer to the value of the first line with the name, and whether there is another one. -/
structure Lookup (name : List UInt8) (lines : List (List UInt8)) (body : List UInt8)
    (result : Option (List UInt8) × Bool) : Prop where
  found : ∀ pre line post, lines = pre ++ line::post → (∀ l ∈ pre, isField name l = false) →
    isField name line = true →
    result.1 = some (fieldValue line ++ (crlf ++ linesText post body))
  absent : result.1 = none ↔ ∀ line ∈ lines, isField name line = false
  duplicate : result.2 = true ↔ 2 ≤ lines.countP (isField name)

section Lines

variable {line rest pre post : List UInt8}

theorem crlf_eq : crlf = [13,10] := by decide

theorem oneLine_nil : OneLine [] := by
  intro h
  have hnil := List.infix_nil.mp h
  rw [crlf_eq] at hnil
  cases hnil

theorem oneLine_cut (hline : OneLine line)
    (heq : line ++ (crlf ++ rest) = pre ++ (crlf ++ post)) :
    pre = line ∧ post = rest ∨ ∃ m, pre = line ++ (crlf ++ m) ∧ rest = m ++ (crlf ++ post) := by
  rw [crlf_eq] at heq ⊢
  rcases List.append_eq_append_iff.mp heq with ⟨m,hpre,hrest⟩ | ⟨m,hpre,hpost⟩
  · match m, hrest with
    | [], hrest =>
      rw [List.append_nil] at hpre
      exact Or.inl ⟨hpre,(List.append_cancel_left hrest).symm⟩
    | [b], hrest =>
      have hbyte : (10 : UInt8) = 13 := (List.cons.inj (List.cons.inj hrest).2).1
      exact absurd hbyte (by decide)
    | b::c::m, hrest =>
      obtain ⟨hb,htail⟩ := List.cons.inj hrest
      obtain ⟨hc,htail⟩ := List.cons.inj htail
      rw [← hb,← hc] at hpre
      exact Or.inr ⟨m,hpre,htail⟩
  · match m, hpost with
    | [], hpost =>
      rw [List.append_nil] at hpre
      exact Or.inl ⟨hpre.symm,List.append_cancel_left hpost⟩
    | [b], hpost =>
      have hbyte : (10 : UInt8) = 13 := (List.cons.inj (List.cons.inj hpost).2).1
      exact absurd hbyte (by decide)
    | b::c::m, hpost =>
      obtain ⟨hb,htail⟩ := List.cons.inj hpost
      obtain ⟨hc,_⟩ := List.cons.inj htail
      rw [← hb,← hc] at hpre
      refine absurd ?_ hline
      rw [hpre,crlf_eq]
      exact ⟨pre,m,by simp⟩

theorem oneLine_unique (hline : OneLine line) (hpre : OneLine pre)
    (heq : line ++ (crlf ++ rest) = pre ++ (crlf ++ post)) : line = pre ∧ rest = post := by
  rcases oneLine_cut hline heq with ⟨h,h'⟩ | ⟨m,h,_⟩
  · exact ⟨h.symm,h'.symm⟩
  · exact absurd ⟨line,m,by rw [h,List.append_assoc]⟩ hpre

theorem exists_oneLine {text : List UInt8} (h : crlf <:+: text) :
    ∃ line rest, text = line ++ (crlf ++ rest) ∧ OneLine line := by
  induction text with
  | nil =>
    have hnil := List.infix_nil.mp h
    rw [crlf_eq] at hnil
    cases hnil
  | cons b text ih =>
    by_cases hpre : crlf <+: b::text
    · obtain ⟨rest,hrest⟩ := hpre
      exact ⟨[],rest,hrest.symm,oneLine_nil⟩
    · obtain ⟨line,rest,heq,hline⟩ := ih ((List.infix_cons_iff.mp h).resolve_left hpre)
      refine ⟨b::line,rest,by rw [heq,List.cons_append],fun hinf => ?_⟩
      rcases List.infix_cons_iff.mp hinf with hpre' | hinf
      · refine hpre (hpre'.trans ?_)
        rw [heq,← List.cons_append]
        exact List.prefix_append _ _
      · exact hline hinf

theorem strstr_oneLine (hline : OneLine line) (rest : List UInt8) :
    strstr (line ++ (crlf ++ rest)) crlf = some (crlf ++ rest) := by
  obtain ⟨first,hfind,hlen⟩ := strstr_of_occurs (List.prefix_append crlf rest)
    (List.suffix_append line (crlf ++ rest))
  obtain ⟨⟨post,rfl⟩,⟨pre,hpre⟩⟩ := strstr_some hfind
  rcases oneLine_cut hline hpre.symm with ⟨_,h⟩ | ⟨m,_,h⟩
  · rw [hfind,h]
  · rw [h] at hlen
    simp only [List.length_append] at hlen
    have htwo : crlf.length = 2 := by decide
    omega

end Lines

section Headers

variable {name status body : List UInt8} {lines : List (List UInt8)}

/-- A text in which a blank line comes is cut at its first CRLF; what is behind begins with the
blank line or has one to come. -/
theorem cut_marker {text : List UInt8} (h : headerEnd <:+: text) :
    ∃ line rest, text = line ++ (crlf ++ rest) ∧ OneLine line ∧
      (crlf <+: rest ∨ headerEnd <:+: rest) := by
  have hsplit : headerEnd = crlf ++ crlf := by decide
  obtain ⟨pre,post,hend⟩ := h
  rw [hsplit,List.append_assoc,List.append_assoc] at hend
  have hbreak : crlf <:+: text := ⟨pre,crlf ++ post,by rw [← hend,List.append_assoc]⟩
  obtain ⟨line,rest,htext,hline⟩ := exists_oneLine hbreak
  refine ⟨line,rest,htext,hline,?_⟩
  rcases oneLine_cut hline (htext.symm.trans hend.symm) with ⟨_,hpost⟩ | ⟨m,_,hrest⟩
  · exact Or.inl ⟨post,hpost⟩
  · refine Or.inr ⟨m,post,?_⟩
    rw [hsplit,hrest]
    simp

theorem exists_lines {text : List UInt8} (h : crlf <+: text ∨ headerEnd <:+: text) :
    ∃ lines body, (∀ line ∈ lines, line ≠ [] ∧ OneLine line) ∧ text = linesText lines body := by
  induction hn : text.length using Nat.strong_induction_on generalizing text with
  | _ n ih =>
    by_cases hempty : crlf <+: text
    · obtain ⟨body,hbody⟩ := hempty
      exact ⟨[],body,fun _ hl => absurd hl List.not_mem_nil,hbody.symm⟩
    · obtain ⟨line,rest,htext,hline,hnext⟩ := cut_marker (h.resolve_left hempty)
      have hne : line ≠ [] := by
        rintro rfl
        exact hempty ⟨rest,htext.symm⟩
      have hlt : rest.length < n := by
        rw [← hn,htext,List.length_append,List.length_append,crlf_eq]
        simp only [List.length_cons,List.length_nil]
        omega
      obtain ⟨lines,body,hlines,hrest⟩ := ih rest.length hlt hnext rfl
      refine ⟨line::lines,body,?_,by rw [htext,hrest]; rfl⟩
      exact List.forall_mem_cons.mpr ⟨⟨hne,hline⟩,hlines⟩

theorem exists_sections {headers : List UInt8} (h : headerEnd <:+: headers) :
    ∃ status lines body, Sections headers status lines body := by
  obtain ⟨status,rest,htext,hstatus,hnext⟩ := cut_marker h
  obtain ⟨lines,body,hlines,hrest⟩ := exists_lines hnext
  exact ⟨status,lines,body,hstatus,hlines,by rw [htext,hrest]⟩

section Line

variable {line rest : List UInt8} {found : Option (List UInt8) × Bool}

theorem blanks_crlf (value rest : List UInt8) : (value ++ (crlf ++ rest)).dropWhile isBlank =
    value.dropWhile isBlank ++ (crlf ++ rest) := by
  induction value with
  | nil =>
    rw [crlf_eq]
    exact List.dropWhile_cons_of_neg (by decide)
  | cons b value ih =>
    by_cases hb : isBlank b = true
    · rw [List.cons_append,List.dropWhile_cons_of_pos hb,List.dropWhile_cons_of_pos hb,ih]
    · rw [List.cons_append,List.dropWhile_cons_of_neg hb,List.dropWhile_cons_of_neg hb,
        List.cons_append]

theorem first_colon {field value : List UInt8} (h : 58 ∉ field) :
    (field ++ 58::value).takeWhile (· ≠ 58) = field ∧
      (field ++ 58::value).dropWhile (· ≠ 58) = 58::value := by
  have hfield : ∀ b ∈ field, decide (b ≠ 58) = true := by
    intro b hb
    rw [decide_eq_true_eq]
    rintro rfl
    exact h hb
  rw [List.takeWhile_append_of_pos hfield,List.dropWhile_append_of_pos hfield,
    List.takeWhile_cons_of_neg (by decide),List.dropWhile_cons_of_neg (by decide),List.append_nil]
  exact ⟨rfl,rfl⟩

theorem isField_iff {field value : List UInt8} (h : 58 ∉ field) :
    isField name (field ++ 58::value) = true ↔
      field.map otaAsciiLower = name.map otaAsciiLower := by
  rw [isField,(first_colon h).1]
  simp

theorem equal_iff {field : List UInt8} (rest : List UInt8) :
    field.length = name.length ∧ otaAsciiEqualN (field ++ rest) name name.length = true ↔
      field.map otaAsciiLower = name.map otaAsciiLower := by
  constructor
  · rintro ⟨hlen,hequal⟩
    rw [otaAsciiEqualN,decide_eq_true_iff,List.take_left' hlen,List.take_length] at hequal
    exact hequal
  · intro hequal
    have hlen := congrArg List.length hequal
    rw [List.length_map,List.length_map] at hlen
    refine ⟨hlen,?_⟩
    rw [otaAsciiEqualN,decide_eq_true_iff,List.take_left' hlen,List.take_length]
    exact hequal

theorem headerLine_eq (name line rest : List UInt8) (found : Option (List UInt8) × Bool) :
    headerLine name (line ++ (crlf ++ rest)) (crlf ++ rest) found =
      if isField name line then
        match found.1 with
        | some value => (some value,true)
        | none => (some (fieldValue line ++ (crlf ++ rest)),found.2)
      else found := by
  by_cases hcolon : 58 ∈ line
  · obtain ⟨field,value,rfl,hfield⟩ := List.eq_append_cons_of_mem hcolon
    have hfind : strchr (field ++ 58::value ++ (crlf ++ rest)) 58 =
        some (58::(value ++ (crlf ++ rest))) := by
      rw [List.append_assoc,List.cons_append,strchr_first hfield]
    have hvalue : (value ++ (crlf ++ rest)).dropWhile isBlank =
        fieldValue (field ++ 58::value) ++ (crlf ++ rest) := by
      rw [blanks_crlf,fieldValue,(first_colon hfield).2]
      rfl
    have hcond : ((crlf ++ rest).length < (58::(value ++ (crlf ++ rest))).length ∧
        (field ++ 58::value ++ (crlf ++ rest)).length-(58::(value ++ (crlf ++ rest))).length =
          name.length ∧
        otaAsciiEqualN (field ++ 58::value ++ (crlf ++ rest)) name name.length = true) ↔
          isField name (field ++ 58::value) = true := by
      rw [isField_iff hfield,← equal_iff (58::value ++ (crlf ++ rest)),List.append_assoc]
      simp only [List.length_append,List.length_cons]
      refine ⟨fun h => ⟨by omega,h.2.2⟩,fun h => ⟨by omega,by omega,h.2⟩⟩
    rw [headerLine,hfind]
    dsimp only
    rw [List.drop_one,List.tail_cons,hvalue]
    exact if_congr hcond rfl rfl
  · have hno : isField name line = false := by simp [isField,hcolon]
    rw [headerLine,hno]
    cases hfind : strchr (line ++ (crlf ++ rest)) 58 with
    | none => rfl
    | some colon =>
      have hnone : strchr line 58 = none := by
        cases hin : strchr line 58 with
        | none => rfl
        | some c =>
          obtain ⟨hsuf,hmem⟩ := strchr_some hin
          exact absurd (hsuf.subset hmem) hcolon
      have hle := (strchr_none_append hnone hfind).length_le
      dsimp only
      rw [if_neg fun h => absurd h.1 (Nat.not_lt.mpr hle)]
      rfl

end Line

def lookupLines (name body : List UInt8) : List (List UInt8) → Option (List UInt8) × Bool
  | [] => (none,false)
  | line::lines =>
    if isField name line then
      (some (fieldValue line ++ (crlf ++ linesText lines body)),lines.any (isField name))
    else lookupLines name body lines

theorem headerLoop_cons (name : List UInt8) (fuel : ℕ) {line : List UInt8} (rest : List UInt8)
    (hne : line ≠ []) (hline : OneLine line) (found : Option (List UInt8) × Bool) :
    headerLoop name (fuel+1) (line ++ (crlf ++ rest)) found =
      headerLoop name fuel rest (headerLine name (line ++ (crlf ++ rest)) (crlf ++ rest) found) := by
  have hstop : ¬(line ++ (crlf ++ rest) = [] ∨ crlf.isPrefixOf (line ++ (crlf ++ rest))) := by
    rintro (hnil | hpre)
    · exact hne (List.append_eq_nil_iff.mp hnil).1
    · obtain ⟨post,hpost⟩ := List.isPrefixOf_iff_prefix.mp hpre
      have heq : [] ++ (crlf ++ post) = line ++ (crlf ++ rest) := hpost
      exact hne (oneLine_unique oneLine_nil hline heq).1.symm
  rw [headerLoop,if_neg hstop,strstr_oneLine hline]
  rfl

theorem headerLoop_empty (name body : List UInt8) (fuel : ℕ)
    (found : Option (List UInt8) × Bool) : headerLoop name fuel (crlf ++ body) found = found := by
  cases fuel with
  | zero => rfl
  | succ fuel =>
    rw [headerLoop,if_pos]
    exact Or.inr (List.isPrefixOf_iff_prefix.mpr (List.prefix_append crlf body))

theorem headerLoop_found {fuel : ℕ} (hlines : ∀ line ∈ lines, line ≠ [] ∧ OneLine line)
    (hfuel : lines.length ≤ fuel) (value : List UInt8) (dup : Bool) :
    headerLoop name fuel (linesText lines body) (some value,dup) =
      (some value,dup || lines.any (isField name)) := by
  induction lines generalizing fuel dup with
  | nil =>
    rw [List.any_nil,Bool.or_false]
    exact headerLoop_empty name body fuel _
  | cons line lines ih =>
    obtain ⟨fuel,rfl⟩ := Nat.exists_eq_succ_of_ne_zero (Nat.ne_of_gt (Nat.zero_lt_of_lt hfuel))
    obtain ⟨⟨hne,hline⟩,hrest⟩ := List.forall_mem_cons.mp hlines
    have hstep := headerLoop_cons name fuel (linesText lines body) hne hline (some value,dup)
    rw [headerLine_eq] at hstep
    refine hstep.trans ?_
    have hnext := ih hrest (Nat.le_of_succ_le_succ hfuel)
    cases hfield : isField name line with
    | true =>
      rw [if_pos rfl,List.any_cons,hfield,Bool.true_or,Bool.or_true]
      exact (hnext true).trans (by rw [Bool.true_or])
    | false =>
      rw [if_neg Bool.false_ne_true,List.any_cons,hfield,Bool.false_or]
      exact hnext dup

theorem headerLoop_lines {fuel : ℕ} (hlines : ∀ line ∈ lines, line ≠ [] ∧ OneLine line)
    (hfuel : lines.length ≤ fuel) :
    headerLoop name fuel (linesText lines body) (none,false) = lookupLines name body lines := by
  induction lines generalizing fuel with
  | nil => exact headerLoop_empty name body fuel _
  | cons line lines ih =>
    obtain ⟨fuel,rfl⟩ := Nat.exists_eq_succ_of_ne_zero (Nat.ne_of_gt (Nat.zero_lt_of_lt hfuel))
    obtain ⟨⟨hne,hline⟩,hrest⟩ := List.forall_mem_cons.mp hlines
    have hstep := headerLoop_cons name fuel (linesText lines body) hne hline (none,false)
    rw [headerLine_eq] at hstep
    refine hstep.trans ?_
    have hfuel' := Nat.le_of_succ_le_succ hfuel
    rw [lookupLines]
    cases hfield : isField name line with
    | true =>
      rw [if_pos rfl,if_pos rfl]
      exact (headerLoop_found hrest hfuel' _ false).trans (by rw [Bool.false_or])
    | false =>
      rw [if_neg Bool.false_ne_true,if_neg Bool.false_ne_true]
      exact ih hrest hfuel'

theorem lookupLines_lookup (name body : List UInt8) (lines : List (List UInt8)) :
    Lookup name lines body (lookupLines name body lines) := by
  induction lines with
  | nil =>
    refine ⟨fun pre line post h => ?_,iff_of_true rfl fun _ h => absurd h List.not_mem_nil,
      iff_of_false Bool.false_ne_true (by rw [List.countP_nil]; decide)⟩
    cases pre <;> cases h
  | cons line lines ih =>
    rw [lookupLines]
    cases hfield : isField name line with
    | true =>
      rw [if_pos rfl]
      refine ⟨fun pre found post h hpre _ => ?_,iff_of_false (by simp) fun h => ?_,?_⟩
      · cases pre with
        | nil =>
          obtain ⟨rfl,rfl⟩ := List.cons.inj h
          rfl
        | cons first pre =>
          have hno := hpre first List.mem_cons_self
          rw [← (List.cons.inj h).1,hfield] at hno
          cases hno
      · have hno := h line List.mem_cons_self
        rw [hfield] at hno
        cases hno
      · rw [List.countP_cons_of_pos hfield,List.any_eq_true,← List.countP_pos_iff]
        omega
    | false =>
      rw [if_neg Bool.false_ne_true]
      refine ⟨fun pre found post h hpre hfound => ?_,?_,?_⟩
      · cases pre with
        | nil =>
          rw [← (List.cons.inj h).1,hfield] at hfound
          cases hfound
        | cons first pre =>
          exact ih.found pre found post (List.cons.inj h).2
            (fun l hl => hpre l (List.mem_cons_of_mem first hl)) hfound
      · rw [ih.absent,List.forall_mem_cons]
        exact (and_iff_right hfield).symm
      · rw [ih.duplicate,List.countP_cons_of_neg (by rw [hfield]; decide)]

theorem length_le_linesText (lines : List (List UInt8)) (body : List UInt8) :
    lines.length ≤ (linesText lines body).length := by
  induction lines with
  | nil => exact Nat.zero_le _
  | cons line lines ih =>
    show lines.length+1 ≤ (line ++ (crlf ++ linesText lines body)).length
    rw [crlf_eq,List.length_append,List.length_append,List.length_cons]
    omega

end Headers

/-- The lookup finds the first line with the name between the status line and the empty line, and
says whether there is a second one. -/
theorem lookup_exact {headers : List UInt8} (h : headerEnd <:+: headers) (name : List UInt8) :
    (∃ status lines body, Sections headers status lines body) ∧
      ∀ status lines body, Sections headers status lines body →
        Lookup name lines body (otaGetHeaderValue headers name) := by
  refine ⟨exists_sections h,fun status lines body hsections => ?_⟩
  obtain ⟨hstatus,hlines,rfl⟩ := hsections
  have hlookup : otaGetHeaderValue (status ++ (crlf ++ linesText lines body)) name =
      headerLoop name (status ++ (crlf ++ linesText lines body)).length (linesText lines body)
        (none,false) := by
    rw [otaGetHeaderValue,strstr_oneLine hstatus]
    rfl
  have hfuel : lines.length ≤ (status ++ (crlf ++ linesText lines body)).length := by
    have hle := length_le_linesText lines body
    rw [List.length_append,List.length_append]
    omega
  rw [hlookup,headerLoop_lines hlines hfuel]
  exact lookupLines_lookup name body lines

/-- The length in the header of a response, in another case. -/
theorem lookup_exact_length :
    Lookup (ascii "Content-Length") [ascii "content-length: 9"] []
      (otaGetHeaderValue (ascii "HTTP/1.1 200 OK\r\ncontent-length: 9\r\n\r\n")
        (ascii "Content-Length")) := by
  refine (lookup_exact (by decide +kernel) _).2 (ascii "HTTP/1.1 200 OK") _ _
    ⟨by decide +kernel,?_,by decide +kernel⟩
  decide +kernel

end OtaLookup
end MeterLogger
