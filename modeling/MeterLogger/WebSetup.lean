import MeterLogger.ConfigCommands

/-!
# The set-up form of the web server

`cgiSetup` asks for three arguments of the form and copies its variables into the configuration
whether or not they were found. An argument that the form lacks leaves what was on the stack, and a
value that fills its field leaves no room for the NUL behind it.
-/

namespace MeterLogger
namespace WebSetup

open CStrings CharArray SysCfg

/-- The loop of `httpdUrlDecode`; `out` are the `d` bytes written so far. -/
def urlDecodeLoop (retLen : ℕ) : List UInt8 → ℕ → ℕ → List UInt8 → List UInt8
  | [], _, _, out => out
  | c::cs, esced, escVal, out =>
    if out.length < retLen then
      if esced = 1 then urlDecodeLoop retLen cs 2 (httpdHexVal c*16) out
      else if esced = 2 then
        urlDecodeLoop retLen cs 0 (escVal+httpdHexVal c)
          (out ++ [UInt8.ofNat (escVal+httpdHexVal c)])
      else if c = 0x25 then urlDecodeLoop retLen cs 1 escVal out
      else if c = 0x2b then urlDecodeLoop retLen cs esced escVal (out ++ [0x20])
      else urlDecodeLoop retLen cs esced escVal (out ++ [c])
    else out

/-- The bytes in `ret`, and a NUL behind them if there is room for it. -/
def closed {n : ℕ} (out : List UInt8) (ret : Vector UInt8 n) : Vector UInt8 n :=
  Vector.ofFn fun i =>
    if i.val < out.length then out.getD i 0 else if i.val = out.length then 0 else ret.get i

section Decode

variable {n : ℕ}

theorem urlDecodeLoop_full {out : List UInt8} (h : out.length = n) (cs : List UInt8)
    (esced escVal : ℕ) (bytes : List UInt8) :
    urlDecodeLoop n cs esced escVal out = (out ++ bytes).take n := by
  rw [List.take_left' h]
  cases cs with
  | nil => rw [urlDecodeLoop]
  | cons c cs => rw [urlDecodeLoop,if_neg h.not_lt]

/-- The loop writes what the characters stand for, as far as the buffer reaches. -/
theorem urlDecodeLoop_eq (val : List UInt8) (escVal : ℕ) {out : List UInt8} (h : out.length ≤ n) :
    urlDecodeLoop n val 0 escVal out = (out ++ urlDecoded val).take n := by
  induction val using urlDecoded.induct generalizing escVal out with
  | case1 a b bs ih =>
    rcases h.lt_or_eq with hroom | hfull
    · have hnext : (out ++ [UInt8.ofNat (httpdHexVal a*16+httpdHexVal b)]).length ≤ n := by
        rw [List.length_append]
        exact hroom
      rw [urlDecodeLoop,if_pos hroom,if_neg (by decide),if_neg (by decide),if_pos rfl,urlDecodeLoop,
        if_pos hroom,if_pos rfl,urlDecodeLoop,if_pos hroom,if_neg (by decide),if_pos rfl,ih _ hnext,
        List.append_assoc,List.singleton_append,urlDecoded]
    · exact urlDecodeLoop_full hfull _ _ _ _
  | case2 c =>
    rcases h.lt_or_eq with hroom | hfull
    · rw [urlDecodeLoop,if_pos hroom,if_neg (by decide),if_neg (by decide),if_pos rfl,urlDecodeLoop,
        if_pos hroom,if_pos rfl,urlDecodeLoop,urlDecoded,List.append_nil,List.take_of_length_le h]
    · exact urlDecodeLoop_full hfull _ _ _ _
  | case3 =>
    rcases h.lt_or_eq with hroom | hfull
    · rw [urlDecodeLoop,if_pos hroom,if_neg (by decide),if_neg (by decide),if_pos rfl,urlDecodeLoop,
        urlDecoded,List.append_nil,List.take_of_length_le h]
    · exact urlDecodeLoop_full hfull _ _ _ _
  | case4 bs ih =>
    rcases h.lt_or_eq with hroom | hfull
    · have hnext : (out ++ [0x20]).length ≤ n := by
        rw [List.length_append]
        exact hroom
      rw [urlDecodeLoop,if_pos hroom,if_neg (by decide),if_neg (by decide),if_neg (by decide),
        if_pos rfl,ih _ hnext,List.append_assoc,List.singleton_append,urlDecoded]
    · exact urlDecodeLoop_full hfull _ _ _ _
  | case5 b bs hpair hone hnone hplus ih =>
    rcases h.lt_or_eq with hroom | hfull
    · have hnext : (out ++ [b]).length ≤ n := by
        rw [List.length_append]
        exact hroom
      have hpercent : b ≠ 0x25 := fun hb => by
        match bs with
        | [] => exact hnone hb rfl
        | [c] => exact hone c hb rfl
        | c::d::cs => exact hpair c d cs hb rfl
      rw [urlDecodeLoop,if_pos hroom,if_neg (by decide),if_neg (by decide),if_neg hpercent,
        if_neg hplus,ih _ hnext,List.append_assoc,List.singleton_append,urlDecoded]
      · exact hpair
      · exact hone
      · exact hnone
      · exact hplus
    · exact urlDecodeLoop_full hfull _ _ _ _
  | case6 => rw [urlDecodeLoop,urlDecoded,List.append_nil,List.take_of_length_le h]

theorem closed_urlDecodeLoop (val : List UInt8) (ret : Vector UInt8 n) :
    closed (urlDecodeLoop n val 0 0 []) ret = httpdUrlDecode val ret := by
  rw [urlDecodeLoop_eq val 0 (Nat.zero_le n),List.nil_append]
  refine Vector.ext fun i hi => ?_
  have htake : ((urlDecoded val).take n).getD i 0 = (urlDecoded val).getD i 0 := by
    rw [List.getD_eq_getElem?_getD,List.getD_eq_getElem?_getD,List.getElem?_take_of_lt hi]
  have hlen : ((urlDecoded val).take n).length = min n (urlDecoded val).length :=
    List.length_take
  rw [closed,httpdUrlDecode,Vector.getElem_ofFn,Vector.getElem_ofFn]
  simp only [htake,hlen]
  by_cases hlt : i < (urlDecoded val).length
  · rw [if_pos hlt,if_pos (by omega)]
  · rw [if_neg hlt,if_neg (by omega)]
    by_cases heq : i = (urlDecoded val).length
    · rw [if_pos heq,if_pos (by omega)]
    · rw [if_neg heq,if_neg (by omega)]

end Decode

def pairs (body : List UInt8) : List (List UInt8) :=
  (body.splitOn 0x26).takeWhile fun pair => pair.head? ≠ some 0x0a ∧ pair.head? ≠ some 0x0d

def valueIn (arg pair : List UInt8) : Option (List UInt8) :=
  if (arg ++ [0x3d]).isPrefixOf pair then some (pair.drop (arg.length+1)) else none

def valueOf (arg body : List UInt8) : Option (List UInt8) := (pairs body).findSome? (valueIn arg)

/-- The argument in the string of the body, which ends at a NUL. -/
def argument (arg : List UInt8) (post : Option (List UInt8)) : Option (List UInt8) :=
  post.bind fun body => valueOf arg (cstr body)

section Find

variable {arg body : List UInt8}

/-- A body is its first pair, and the body behind an ampersand if there is one. -/
theorem splitOn_body (body : List UInt8) :
    body.splitOn 0x26 = body.takeWhile (· ≠ 0x26)::
      (strchr body 0x26).elim [] fun next => (next.drop 1).splitOn 0x26 := by
  by_cases hmem : 0x26 ∈ body
  · obtain ⟨pair,rest,rfl,hpair⟩ := List.eq_append_cons_of_mem hmem
    have hfree : ∀ b ∈ pair, decide (b ≠ 0x26) = true := fun b hb =>
      decide_eq_true (ne_of_free hpair b hb)
    have hsplit : (pair ++ 0x26::rest).splitOnP (· == 0x26) = pair::rest.splitOnP (· == 0x26) :=
      List.splitOnP_append_cons_of_forall_mem
        (fun b hb => by simpa using ne_of_free hpair b hb) 0x26 (by decide) rest
    have hstop : (0x26::rest : List UInt8).takeWhile (· ≠ 0x26) = [] :=
      List.takeWhile_cons_of_neg (by decide)
    rw [strchr_first hpair,List.takeWhile_append_of_pos hfree,hstop,List.append_nil]
    simpa [List.splitOn_eq_splitOnP] using hsplit
  · have hfree : ∀ b ∈ body, decide (b ≠ 0x26) = true := fun b hb =>
      decide_eq_true (ne_of_free hmem b hb)
    have hsplit : body.splitOnP (· == 0x26) = [body] :=
      List.splitOnP_eq_singleton fun b hb => by simpa using ne_of_free hmem b hb
    rw [strchr_none hmem,List.takeWhile_eq_self_iff.2 hfree]
    simpa [List.splitOn_eq_splitOnP] using hsplit

theorem isPrefixOf_takeWhile {name : List UInt8} (h : 0x26 ∉ name) (body : List UInt8) :
    name.isPrefixOf (body.takeWhile (· ≠ 0x26)) = name.isPrefixOf body := by
  induction name generalizing body with
  | nil => simp
  | cons x name ih =>
    rw [List.mem_cons,not_or] at h
    cases body with
    | nil => rfl
    | cons b body =>
      by_cases hb : b = 0x26
      · have hne : (x == b) = false := by simpa [hb] using Ne.symm h.1
        rw [List.takeWhile_cons_of_neg (by simpa using hb)]
        simp [List.isPrefixOf,hne]
      · rw [List.takeWhile_cons_of_pos (by simpa using hb),List.isPrefixOf,List.isPrefixOf,ih h.2]

theorem valueIn_body (harg : 0x26 ∉ arg) (body : List UInt8) :
    valueIn arg (body.takeWhile (· ≠ 0x26)) =
      if (arg ++ [0x3d]).isPrefixOf body then
        some ((body.drop (arg.length+1)).takeWhile (· ≠ 0x26))
      else none := by
  have hname : 0x26 ∉ arg ++ [0x3d] := by
    rw [List.mem_append,not_or]
    exact ⟨harg,by decide⟩
  rw [valueIn,isPrefixOf_takeWhile hname]
  by_cases hpre : (arg ++ [0x3d]).isPrefixOf body = true
  · obtain ⟨value,rfl⟩ := List.isPrefixOf_iff_prefix.1 hpre
    have hfree : ∀ b ∈ arg ++ [0x3d], decide (b ≠ 0x26) = true := fun b hb =>
      decide_eq_true (ne_of_free hname b hb)
    have hlen : arg.length+1 = (arg ++ [0x3d]).length := by
      rw [List.length_append,List.length_singleton]
    rw [if_pos hpre,if_pos hpre,List.takeWhile_append_of_pos hfree,hlen,List.drop_left,List.drop_left]
  · rw [if_neg hpre,if_neg hpre]

/-- The first pair is looked at, unless its line is at an end, and then the others. -/
theorem valueOf_body (arg : List UInt8) {body : List UInt8}
    (h : ∀ b ∈ body.head?, b ≠ 0x0a ∧ b ≠ 0x0d) :
    valueOf arg body = (valueIn arg (body.takeWhile (· ≠ 0x26))).or
      ((strchr body 0x26).bind fun next => valueOf arg (next.drop 1)) := by
  have hstart : (body.takeWhile (· ≠ 0x26)).head? ≠ some 0x0a ∧
      (body.takeWhile (· ≠ 0x26)).head? ≠ some 0x0d := by
    cases body with
    | nil => simp
    | cons b bs =>
      have hb := h b rfl
      by_cases hamp : b = 0x26
      · rw [List.takeWhile_cons_of_neg (by simpa using hamp)]
        simp
      · rw [List.takeWhile_cons_of_pos (by simpa using hamp)]
        simpa using hb
  rw [valueOf,pairs,splitOn_body,List.takeWhile_cons_of_pos (by simpa using hstart),List.findSome?_cons]
  cases valueIn arg (body.takeWhile (· ≠ 0x26)) with
  | some value => rfl
  | none =>
    cases strchr body 0x26 with
    | none => rfl
    | some next => rfl

theorem valueOf_line (arg : List UInt8) {b : UInt8} (hb : b = 0x0a ∨ b = 0x0d) (bs : List UInt8) :
    valueOf arg (b::bs) = none := by
  have hamp : b ≠ 0x26 := by
    rcases hb with rfl | rfl <;> decide
  have hstop : ¬((b::bs.takeWhile (· ≠ 0x26)).head? ≠ some 0x0a ∧
      (b::bs.takeWhile (· ≠ 0x26)).head? ≠ some 0x0d) := by
    simpa using fun h => hb.resolve_left h
  have hpair : (b::bs).takeWhile (· ≠ 0x26) = b::bs.takeWhile (· ≠ 0x26) :=
    List.takeWhile_cons_of_pos (by simpa using hamp)
  rw [valueOf,pairs,splitOn_body,hpair,List.takeWhile_cons_of_neg (by simpa using hstop)]
  rfl

theorem findArg_eq (harg : 0x26 ∉ arg) {fuel : ℕ} (hfuel : body.length < fuel) :
    findArg arg fuel body = valueOf arg body := by
  induction fuel generalizing body with
  | zero => omega
  | succ fuel ih =>
    cases body with
    | nil =>
      have hempty : (arg ++ [0x3d]).isPrefixOf ([] : List UInt8) = false := by
        cases arg <;> rfl
      rw [findArg,valueOf_body arg (by simp),valueIn_body harg,hempty]
      rfl
    | cons b bs =>
      rw [findArg]
      by_cases hline : b = 0x0a ∨ b = 0x0d
      · rw [if_pos hline,valueOf_line arg hline]
      · have hstart : ∀ x ∈ (b::bs).head?, x ≠ 0x0a ∧ x ≠ 0x0d := by
          rintro x ⟨⟩
          exact not_or.1 hline
        rw [if_neg hline,valueOf_body arg hstart,valueIn_body harg]
        split
        · rfl
        · rw [Option.none_or]
          cases hnext : strchr (b::bs) 0x26 with
          | none => rfl
          | some next =>
            obtain ⟨hsuffix,hmem⟩ := strchr_some hnext
            have hle := hsuffix.length_le
            have hpos := List.length_pos_of_mem hmem
            have hlen : (next.drop 1).length < fuel := by
              rw [List.length_drop]
              omega
            rw [Option.bind_some,Option.bind_some,ih hlen]

end Find

/-- `cgiSetup` with its `cfg_save`; `stack` is what its variables held. -/
def setUp (s : State) (post : Option (List UInt8)) (stack : Form) : State :=
  (store (s.change fun c => cgiSetup c (.read post stack))).1

/-- The string that a value of the form stands for. -/
def decoded (value : List UInt8) : List UInt8 := cstr (urlDecoded value)

/-- The string in a field, after `value` was sent for it or nothing was. -/
def Submitted (limit : ℕ) (sent : Option (List UInt8)) (before after : Vector UInt8 64) : Prop :=
  match sent with
  | none => str after = str before
  | some value => Terminated after ∧ str after = (decoded value).take limit

/-- The set-up changes what the body has, and nothing else but the checksum. -/
structure OnlySubmitted (post : Option (List UInt8)) (before after : Settings) : Prop where
  staSsid : Submitted 32 (argument (ascii "essid") post) before.staSsid after.staSsid
  staPwd : Submitted 63 (argument (ascii "passwd") post) before.staPwd after.staPwd
  mqttHost : Submitted 63 (argument (ascii "mqtthost") post) before.mqttHost after.mqttHost
  others : after =
    { before with staSsid := after.staSsid, staPwd := after.staPwd, mqttHost := after.mqttHost }

/-- The body has all three arguments, and their values fit. -/
structure Complete (post : Option (List UInt8)) (c : Settings) : Prop where
  essid : ∃ value, argument (ascii "essid") post = some value ∧
    ((decoded value).length < 32 ∨ c.staSsid.toList.getD 32 0 = 0)
  passwd : ∃ value, argument (ascii "passwd") post = some value ∧ (decoded value).length < 64
  mqtthost : ∃ value, argument (ascii "mqtthost") post = some value ∧ (decoded value).length < 64

section Fields

variable {n size : ℕ} {before : Vector UInt8 64} {arg : List UInt8} {post : Option (List UInt8)}

theorem httpdFindArg_eq (harg : 0x26 ∉ arg) (post : Option (List UInt8)) (stack : Vector UInt8 n) :
    httpdFindArg post arg stack =
      (argument arg post).elim stack fun value => httpdUrlDecode value stack := by
  cases post with
  | none => rfl
  | some body =>
    rw [httpdFindArg,argument,Option.bind_some,Option.bind_some,findArg_eq harg (Nat.lt_succ_self _)]
    cases valueOf arg (cstr body) with
    | none => rfl
    | some value => rfl

theorem httpdUrlDecode_get (value : List UInt8) (stack : Vector UInt8 n) {i : ℕ} (hi : i < n) :
    (httpdUrlDecode value stack)[i] =
      if i < (urlDecoded value).length then (urlDecoded value).getD i 0
      else if i = (urlDecoded value).length then 0 else stack[i] := by
  rw [httpdUrlDecode,Vector.getElem_ofFn]
  exact rfl

theorem httpdUrlDecode_toList (value : List UInt8) (stack : Vector UInt8 n) :
    (httpdUrlDecode value stack).toList = (urlDecoded value).take n ++
      if (urlDecoded value).length < n then 0::stack.toList.drop ((urlDecoded value).length+1)
      else [] := by
  have hcopied := List.length_take (i := n) (l := urlDecoded value)
  by_cases hroom : (urlDecoded value).length < n
  · rw [if_pos hroom]
    refine List.ext_getElem (by simp; omega) fun i h₁ h₂ => ?_
    have hi : i < n := by simpa using h₁
    rw [Vector.getElem_toList,httpdUrlDecode_get value stack hi]
    by_cases hlt : i < (urlDecoded value).length
    · rw [if_pos hlt,List.getElem_append_left (by omega),List.getElem_take,
        List.getD_eq_getElem _ _ hlt]
    · rw [if_neg hlt,List.getElem_append_right (by omega),List.getElem_cons]
      by_cases heq : i = (urlDecoded value).length
      · rw [if_pos heq,dif_pos (by omega)]
      · rw [if_neg heq,dif_neg (by omega),List.getElem_drop,Vector.getElem_toList]
        congr 1
        omega
  · rw [if_neg hroom,List.append_nil]
    refine List.ext_getElem (by simp; omega) fun i h₁ h₂ => ?_
    have hi : i < n := by simpa using h₁
    have hlt : i < (urlDecoded value).length := by omega
    rw [Vector.getElem_toList,httpdUrlDecode_get value stack hi,if_pos hlt,List.getElem_take,
      List.getD_eq_getElem _ _ hlt]

theorem cstr_httpdUrlDecode (value : List UInt8) (stack : Vector UInt8 n) :
    cstr (httpdUrlDecode value stack).toList = (decoded value).take n := by
  rw [httpdUrlDecode_toList,decoded]
  by_cases hroom : (urlDecoded value).length < n
  · have hle : (cstr (urlDecoded value)).length ≤ n :=
      (cstr_isInitial (urlDecoded value)).length_le.trans hroom.le
    rw [if_pos hroom,List.take_of_length_le hroom.le,cstr_append_nul,List.take_of_length_le hle]
  · rw [if_neg hroom,List.append_nil,cstr,cstr,List.take_takeWhile]

theorem field_sent (harg : 0x26 ∉ arg) {value : List UInt8} (h : argument arg post = some value)
    (hsize : size ≤ n) (stack : Vector UInt8 n) (before : Vector UInt8 64) :
    strncpy before (httpdFindArg post arg stack).toList size =
      strncpy before (urlDecoded value) size := by
  apply strncpy_congr
  rw [httpdFindArg_eq harg,h,Option.elim_some]
  rw [cstr_httpdUrlDecode,List.take_take,Nat.min_eq_left hsize,decoded]

theorem copied_head (hn : 0 < n) (hpos : 0 < size) (hsize : size ≤ 64) {x : UInt8} (hx : x ≠ 0)
    (before : Vector UInt8 64) :
    (str (strncpy before (Vector.replicate n x).toList size)).head? = some x := by
  obtain ⟨k,rfl⟩ : ∃ k, n = k+1 := ⟨n-1,by omega⟩
  obtain ⟨m,rfl⟩ : ∃ m, size = m+1 := ⟨size-1,by omega⟩
  have hcstr : cstr (Vector.replicate (k+1) x).toList = x::cstr (List.replicate k x) := by
    rw [Vector.toList_replicate,List.replicate_succ,cstr,List.takeWhile_cons_of_pos (by simpa using hx),
      cstr]
  rw [str_strncpy hsize,hcstr,List.take_succ_cons,List.cons_append]
  exact rfl

theorem field_missing (harg : 0x26 ∉ arg) (h : argument arg post = none) (hn : 0 < n)
    (hpos : 0 < size) (hsize : size ≤ 64) (limit : ℕ) (before : Vector UInt8 64) :
    ∃ stack : Vector UInt8 n, ¬Submitted limit (argument arg post) before
      (strncpy before (httpdFindArg post arg stack).toList size) := by
  by_contra hall
  have hkept : ∀ stack : Vector UInt8 n, str (strncpy before stack.toList size) = str before := by
    intro stack
    have hsub := not_not.1 (not_exists.1 hall stack)
    rw [httpdFindArg_eq harg,h] at hsub
    exact hsub
  have ha := copied_head hn hpos hsize (by decide : (97 : UInt8) ≠ 0) before
  have hb := copied_head hn hpos hsize (by decide : (98 : UInt8) ≠ 0) before
  rw [hkept] at ha hb
  rw [ha] at hb
  exact absurd (Option.some.inj hb) (by decide)

theorem submitted_whole (value : List UInt8) (before : Vector UInt8 64) :
    Submitted 63 (some value) before (strncpy before (urlDecoded value) 64) ↔
      (decoded value).length < 64 := by
  have hterm : Terminated (strncpy before (urlDecoded value) 64) ↔
      (decoded value).length < 64 ∨ ∃ i, ∃ hi : i < 64, 64 ≤ i ∧ before[i] = 0 :=
    terminated_strncpy_iff (Nat.le_refl 64)
  constructor
  · rintro ⟨hterminated,-⟩
    rcases hterm.1 hterminated with hlt | ⟨i,hi,hle,-⟩
    · exact hlt
    · omega
  · intro hlt
    refine ⟨hterm.2 (Or.inl hlt),?_⟩
    have hfull : str (strncpy before (urlDecoded value) 64) = (decoded value).take 64 :=
      str_strncpy_full
    rw [hfull,List.take_of_length_le hlt.le,List.take_of_length_le (Nat.le_of_lt_succ hlt)]

theorem submitted_part (value : List UInt8) (before : Vector UInt8 64) :
    Submitted 32 (some value) before (strncpy before (urlDecoded value) 32) ↔
      (decoded value).length < 32 ∨ before.toList.getD 32 0 = 0 := by
  have hterm : Terminated (strncpy before (urlDecoded value) 32) ↔
      (decoded value).length < 32 ∨ ∃ i, ∃ hi : i < 64, 32 ≤ i ∧ before[i] = 0 :=
    terminated_strncpy_iff (by decide)
  have hstr : str (strncpy before (urlDecoded value) 32) = (decoded value).take 32 ++
      if (decoded value).length < 32 then [] else cstr (before.toList.drop 32) :=
    str_strncpy (by decide)
  have hbyte : 32 < before.toList.length := by simp
  rw [Submitted,hterm,hstr,List.getD_eq_getElem _ _ hbyte,Vector.getElem_toList]
  by_cases hlt : (decoded value).length < 32
  · rw [if_pos hlt,List.append_nil]
    exact iff_of_true ⟨Or.inl hlt,rfl⟩ (Or.inl hlt)
  · rw [if_neg hlt,List.append_right_eq_self,List.drop_eq_getElem_cons hbyte,Vector.getElem_toList]
    constructor
    · rintro ⟨-,hnil⟩
      refine Or.inr (not_not.1 fun hne => ?_)
      rw [cstr,List.takeWhile_cons_of_pos (by simpa using hne)] at hnil
      cases hnil
    · rintro (hno | hnul)
      · exact absurd hno hlt
      · refine ⟨Or.inr ⟨32,by decide,Nat.le_refl 32,hnul⟩,?_⟩
        rw [hnul]
        exact cstr_append_nul [] _

theorem field_iff {limit : ℕ} {P : List UInt8 → Prop} (post : Option (List UInt8))
    (harg : 0x26 ∉ arg) (hn : size ≤ n) (hpos : 0 < size) (hsize : size ≤ 64) (before : Vector UInt8 64)
    (hfits : ∀ value, Submitted limit (some value) before (strncpy before (urlDecoded value) size) ↔
      P value) :
    (∀ stack : Vector UInt8 n, Submitted limit (argument arg post) before
      (strncpy before (httpdFindArg post arg stack).toList size)) ↔
      ∃ value, argument arg post = some value ∧ P value := by
  cases hsent : argument arg post with
  | none =>
    obtain ⟨stack,hno⟩ := field_missing harg hsent (hpos.trans_le hn) hpos hsize limit before
    rw [hsent] at hno
    refine iff_of_false (fun h => hno (h stack)) ?_
    rintro ⟨value,hnone,-⟩
    cases hnone
  | some value =>
    constructor
    · intro h
      have hset := h (zeros n)
      rw [field_sent harg hsent hn] at hset
      exact ⟨value,rfl,(hfits value).1 hset⟩
    · rintro ⟨value',hvalue,hp⟩ stack
      obtain rfl := Option.some.inj hvalue
      rw [field_sent harg hsent hn]
      exact (hfits value).2 hp

end Fields

theorem setUp_settings (s : State) (post : Option (List UInt8)) (stack : Form) :
    (setUp s post stack).sysCfg.toSettings = cgiSetup s.sysCfg.toSettings (.read post stack) := by
  rw [setUp,store]
  split <;> rfl

/-- Whatever was on the stack, the set-up changes only what was submitted: just when everything was
submitted, and fits. -/
theorem setUp_onlySubmitted_iff (s : State) (post : Option (List UInt8)) :
    (∀ stack, OnlySubmitted post s.sysCfg.toSettings (setUp s post stack).sysCfg.toSettings) ↔
      Complete post s.sysCfg.toSettings := by
  have hessid := field_iff (n := 128) post
    (by decide : (0x26 : UInt8) ∉ ascii "essid") (by decide) (by decide) (by decide)
    s.sysCfg.staSsid fun value => submitted_part value _
  have hpasswd := field_iff (n := 128) post
    (by decide : (0x26 : UInt8) ∉ ascii "passwd") (by decide) (by decide) (by decide)
    s.sysCfg.staPwd fun value => submitted_whole value _
  have hmqtthost := field_iff (n := 64) post
    (by decide : (0x26 : UInt8) ∉ ascii "mqtthost") (by decide) (by decide) (by decide)
    s.sysCfg.mqttHost fun value => submitted_whole value _
  simp only [setUp_settings]
  constructor
  · intro h
    exact ⟨hessid.1 fun stack => (h ⟨stack,zeros 128,zeros 64⟩).staSsid,
      hpasswd.1 fun stack => (h ⟨zeros 128,stack,zeros 64⟩).staPwd,
      hmqtthost.1 fun stack => (h ⟨zeros 128,zeros 128,stack⟩).mqttHost⟩
  · intro h stack
    exact ⟨hessid.2 h.essid stack.essid,hpasswd.2 h.passwd stack.passwd,
      hmqtthost.2 h.mqtthost stack.mqtthost,rfl⟩

/-- essid=home -/
def nameOnly : List UInt8 := [101,115,115,105,100,61,104,111,109,101]

def lettersOnStack : Form := ⟨zeros 128,Vector.replicate 128 0x78,zeros 64⟩

/-- A form with the name of the network only: the password becomes what was on the stack. -/
theorem password_from_stack :
    ¬OnlySubmitted (some nameOnly) cleared
      (setUp ⟨⟨cleared,0⟩,false,[]⟩ (some nameOnly) lettersOnStack).sysCfg.toSettings := by
  intro h
  have hmissing : argument (ascii "passwd") (some nameOnly) = none := by decide
  have hfound : httpdFindArg (some nameOnly) (ascii "passwd") lettersOnStack.passwd =
      lettersOnStack.passwd := by
    rw [httpdFindArg_eq (by decide),hmissing,Option.elim_none]
  have hkept : str (strncpy cleared.staPwd lettersOnStack.passwd.toList 64) = str cleared.staPwd := by
    have hfield := h.staPwd
    rw [setUp_settings,hmissing] at hfield
    exact hfound ▸ hfield
  have hhead : (str (strncpy cleared.staPwd lettersOnStack.passwd.toList 64)).head? = some 0x78 :=
    copied_head (by decide) (by decide) (by decide) (by decide) _
  have hempty : str cleared.staPwd = [] := str_of_get (by decide) (by simp [cleared,zeros])
  rw [hkept,hempty] at hhead
  cases hhead

end WebSetup
end MeterLogger
