import MeterLogger.Decimal
import MeterLogger.Noted
import MeterLogger.OtaHeader

/-!
# Numbers in the header

`ota_parse_uint32` and `ota_parse_content_range` with the places of the text that they read. They
accept what the two grammars below describe and nothing else, write their results only when they
accept, and read no further than to the NUL.
-/

namespace MeterLogger
namespace OtaNumbers

open CStrings Decimal Noted OtaHeader

section Functions

variable {S : Type} (s : List UInt8)

/-- The byte at a place of the text; the NUL stands behind the text. -/
def readByte (i : ℕ) : Noted ℕ S UInt8 := look i fun _ => s.getD i 0

/-- `while (*p == ' ' || *p == '\t')`. -/
def skipBlanks : ℕ → ℕ → Noted ℕ S ℕ
  | 0, i => pure i
  | fuel+1, i => do
    let b ← readByte s i
    if isBlank b then skipBlanks fuel (i+1) else pure i

/-- The loop over the digits: the value, whether there was a digit, and the place behind them. -/
def digitsLoop : ℕ → ℕ → ℕ → Bool → Noted ℕ S (Option (ℕ × Bool × ℕ))
  | 0, i, value, haveDigit => pure (some (value,haveDigit,i))
  | fuel+1, i, value, haveDigit => do
    let b ← readByte s i
    if isDigit b then
      if value > (0xFFFFFFFF-(b.toNat-48))/10 then pure none
      else digitsLoop fuel (i+1) (value*10+(b.toNat-48)) true
    else pure (some (value,haveDigit,i))

def numberAt (i : ℕ) : Noted ℕ S (Option (ℕ × ℕ)) := do
  let r ← digitsLoop s (s.length+1) i 0 false
  pure (r.bind fun r => if r.2.1 then some (r.1,r.2.2) else none)

/-- `*p` is the byte that is expected. -/
def byteAt (c : UInt8) (i : ℕ) : Noted ℕ S (Option (Unit × ℕ)) := do
  let b ← readByte s i
  pure (if b = c then some ((),i+1) else none)

/-- `ota_ascii_equal_n(p, name, strlen(name))`. -/
def equalAt : List UInt8 → ℕ → Noted ℕ S Bool
  | [], _ => pure true
  | c::cs, i => do
    let b ← readByte s i
    if otaAsciiLower b = otaAsciiLower c then equalAt cs (i+1) else pure false

def orFail {A : Type} (m : Noted ℕ S (Option A)) (f : A → Noted ℕ S Bool) : Noted ℕ S Bool := do
  match ← m with
  | none => pure false
  | some a => f a

/-- Blanks and the end of the line; then the results are written. -/
def finishAt (i : ℕ) (result : S) : Noted ℕ S Bool := do
  let i ← skipBlanks s (s.length+1) i
  let b ← readByte s i
  if b ≠ 13 ∧ b ≠ 10 ∧ b ≠ 0 then pure false
  else do
    alter fun _ => result
    pure true

end Functions

/-- The state is `*result`. -/
def otaParseUint32At (s : List UInt8) : Noted ℕ ℕ Bool := do
  let i ← skipBlanks s (s.length+1) 0
  orFail (numberAt s i) fun r => finishAt s r.2 r.1

/-- The state is `*range_start`, `*range_end` and `*total_size`. -/
def otaParseContentRangeAt (s : List UInt8) : Noted ℕ (ℕ × ℕ × ℕ) Bool := do
  let i ← skipBlanks s (s.length+1) 0
  if ← equalAt s (ascii "bytes") i then do
    let b ← readByte s (i+5)
    if isBlank b then do
      let i ← skipBlanks s (s.length+1) (i+5)
      orFail (numberAt s i) fun start =>
        orFail (byteAt s 45 start.2) fun dash =>
          orFail (numberAt s dash.2) fun stop =>
            orFail (byteAt s 47 stop.2) fun slash =>
              orFail (numberAt s slash.2) fun total =>
                finishAt s total.2 (start.1,stop.1,total.1)
    else pure false
  else pure false

def Blanks (p : List UInt8) : Prop := ∀ b ∈ p, isBlank b = true

/-- A carriage return, a line feed or the NUL. -/
def LineEnd (p : List UInt8) : Prop := p = [] ∨ p.head? = some 13 ∨ p.head? = some 10

def Number (digits : List UInt8) (n : ℕ) : Prop := IsNumeral digits n ∧ n < 2^32

def Uint32Text (p : List UInt8) (n : ℕ) : Prop :=
  ∃ pre digits post rest, p = pre ++ (digits ++ (post ++ rest)) ∧ Blanks pre ∧ Number digits n ∧
    Blanks post ∧ LineEnd rest

/-- `bytes START-END/TOTAL`, the word in any case. -/
def RangeText (p : List UInt8) (r : ℕ × ℕ × ℕ) : Prop :=
  ∃ pre word gap start stop total post rest,
    p = pre ++ (word ++ (gap ++ (start ++ 45::(stop ++ 47::(total ++ (post ++ rest)))))) ∧
    Blanks pre ∧ word.map otaAsciiLower = ascii "bytes" ∧ Blanks gap ∧ gap ≠ [] ∧
    Number start r.1 ∧ Number stop r.2.1 ∧ Number total r.2.2 ∧ Blanks post ∧ LineEnd rest

/-- A function of the text `p` accepts the texts of a grammar and gives what they stand for; it
leaves its results alone otherwise, and reads no further than to the NUL. -/
structure Exact {S : Type} (p : List UInt8) (m : Noted ℕ S Bool) (Text : S → Prop) : Prop where
  success : ∀ s, m.value s = true ↔ ∃ v, Text v
  result : ∀ s v, Text v → m.final s = v
  unchanged : ∀ s, m.value s = false → m.final s = s
  inside : ∀ s, ∀ i ∈ m.notes s, i ≤ p.length

section Reading

variable {S A B : Type} {s p : List UInt8} {i fuel : ℕ} {t t' t'' : S}

/-- The text goes on with `p` at place `i`. -/
structure At (s : List UInt8) (i : ℕ) (p : List UInt8) : Prop where
  eq : s.drop i = p
  le : i ≤ s.length

theorem at_zero (s : List UInt8) : At s 0 s := ⟨rfl,Nat.zero_le _⟩

theorem At.read (h : At s i p) : s.getD i 0 = p.headD 0 := by
  rw [← h.eq,List.getD_eq_getElem?_getD,List.headD_eq_head?_getD,List.head?_drop]

theorem At.next {b : UInt8} (h : At s i (b::p)) : At s (i+1) p := by
  have hlen := congrArg List.length h.eq
  rw [List.length_drop,List.length_cons] at hlen
  refine ⟨?_,by omega⟩
  rw [← List.tail_drop,h.eq,List.tail_cons]

theorem At.skip {n : ℕ} (h : At s i p) (hn : n ≤ p.length) : At s (i+n) (p.drop n) := by
  have hlen := congrArg List.length h.eq
  have hle := h.le
  rw [List.length_drop] at hlen
  refine ⟨?_,by omega⟩
  rw [← List.drop_drop,h.eq]

theorem At.length (h : At s i p) : p.length ≤ s.length := by
  rw [← h.eq,List.length_drop]
  omega

/-- What a computation returns and leaves; it reads the text and its NUL. -/
structure Reads (s : List UInt8) (m : Noted ℕ S A) (t : S) (a : A) (t' : S) : Prop where
  value : m.value t = a
  final : m.final t = t'
  inside : ∀ i ∈ m.notes t, i ≤ s.length

theorem Reads.pure (a : A) : Reads s (pure a : Noted ℕ S A) t a t :=
  ⟨rfl,rfl,fun _ h => absurd h List.not_mem_nil⟩

theorem Reads.bind {m : Noted ℕ S A} {f : A → Noted ℕ S B} {a : A} {b : B}
    (hm : Reads s m t a t') (hf : Reads s (f a) t' b t'') : Reads s (m >>= f) t b t'' := by
  refine ⟨?_,?_,?_⟩
  · rw [value_bind,hm.value,hm.final,hf.value]
  · rw [final_bind,hm.value,hm.final,hf.final]
  · intro j hj
    rw [notes_bind,hm.value,hm.final,List.mem_append] at hj
    exact hj.elim (hm.inside j) (hf.inside j)

theorem At.reads (h : At s i p) : Reads s (readByte s i) t (p.headD 0) t := by
  refine ⟨h.read,rfl,?_⟩
  intro j hj
  rw [List.mem_singleton.mp hj]
  exact h.le

theorem skipBlanks_reads (h : At s i p) (hfuel : p.length < fuel) :
    ∃ j, Reads s (skipBlanks s fuel i) t j t ∧ At s j (p.dropWhile isBlank) := by
  induction p generalizing i fuel with
  | nil =>
    obtain ⟨fuel,rfl⟩ := Nat.exists_eq_succ_of_ne_zero (Nat.ne_of_gt hfuel)
    exact ⟨i,Reads.bind h.reads (Reads.pure i),h⟩
  | cons b p ih =>
    obtain ⟨fuel,rfl⟩ := Nat.exists_eq_succ_of_ne_zero (Nat.ne_of_gt (Nat.zero_lt_of_lt hfuel))
    by_cases hb : isBlank b = true
    · obtain ⟨j,hj,hat⟩ := ih h.next (Nat.lt_of_succ_lt_succ hfuel)
      refine ⟨j,Reads.bind h.reads ?_,?_⟩
      · rw [List.headD_cons,if_pos hb]
        exact hj
      · rw [List.dropWhile_cons_of_pos hb]
        exact hat
    · refine ⟨i,Reads.bind h.reads ?_,?_⟩
      · rw [List.headD_cons,if_neg hb]
        exact Reads.pure i
      · rw [List.dropWhile_cons_of_neg hb]
        exact h

def Parses (s : List UInt8) (m : Noted ℕ S (Option (A × ℕ))) (t : S) :
    Option (A × List UInt8) → Prop
  | none => Reads s m t none t
  | some (a,rest) => ∃ j, Reads s m t (some (a,j)) t ∧ At s j rest

theorem digitsLoop_reads (h : At s i p) (hfuel : p.length < fuel) (value : ℕ) (haveDigit : Bool) :
    (otaDigits value p = none ∧ Reads s (digitsLoop s fuel i value haveDigit) t none t) ∨
      ∃ v rest j, otaDigits value p = some (v,rest) ∧ At s j rest ∧
        Reads s (digitsLoop s fuel i value haveDigit) t
          (some (v,haveDigit || isDigit (p.headD 0),j)) t := by
  induction p generalizing i fuel value haveDigit with
  | nil =>
    obtain ⟨fuel,rfl⟩ := Nat.exists_eq_succ_of_ne_zero (Nat.ne_of_gt hfuel)
    refine Or.inr ⟨value,[],i,rfl,h,Reads.bind h.reads ?_⟩
    have hend : haveDigit = (haveDigit || isDigit (([] : List UInt8).headD 0)) := by
      cases haveDigit <;> rfl
    rw [← hend]
    exact Reads.pure _
  | cons b p ih =>
    obtain ⟨fuel,rfl⟩ := Nat.exists_eq_succ_of_ne_zero (Nat.ne_of_gt (Nat.zero_lt_of_lt hfuel))
    rw [otaDigits,List.headD_cons]
    by_cases hb : isDigit b = true
    · rw [if_pos hb,hb,Bool.or_true]
      by_cases hbig : value > (0xFFFFFFFF-(b.toNat-48))/10
      · refine Or.inl ⟨if_pos hbig,Reads.bind h.reads ?_⟩
        rw [List.headD_cons,if_pos hb,if_pos hbig]
        exact Reads.pure none
      · rw [if_neg hbig]
        have hstep : ∀ r, Reads s (digitsLoop s fuel (i+1) (value*10+(b.toNat-48)) true) t r t →
            Reads s (digitsLoop s (fuel+1) i value haveDigit) t r t := by
          intro r hr
          refine Reads.bind h.reads ?_
          rw [List.headD_cons,if_pos hb,if_neg hbig]
          exact hr
        rcases ih h.next (Nat.lt_of_succ_lt_succ hfuel) (value*10+(b.toNat-48)) true with
          ⟨hnone,hr⟩ | ⟨v,rest,j,hsome,hat,hr⟩
        · exact Or.inl ⟨hnone,hstep none hr⟩
        · exact Or.inr ⟨v,rest,j,hsome,hat,hstep _ hr⟩
    · have hno : isDigit b = false := by simpa using hb
      rw [if_neg hb,hno,Bool.or_false]
      refine Or.inr ⟨value,b::p,i,rfl,h,Reads.bind h.reads ?_⟩
      rw [List.headD_cons,if_neg hb]
      exact Reads.pure _

theorem numberAt_parses (h : At s i p) : Parses s (numberAt s i) t (otaNumber p) := by
  have hfuel : p.length < s.length+1 := Nat.lt_succ_of_le h.length
  rw [otaNumber]
  rcases digitsLoop_reads (t := t) h hfuel 0 false with ⟨hnone,hr⟩ | ⟨v,rest,j,hsome,hat,hr⟩
  · rw [hnone,ite_self]
    exact Reads.bind hr (Reads.pure none)
  · rw [hsome]
    rw [Bool.false_or] at hr
    by_cases hdigit : isDigit (p.headD 0) = true
    · rw [if_pos hdigit]
      rw [hdigit] at hr
      exact ⟨j,Reads.bind hr (Reads.pure _),hat⟩
    · have hno : isDigit (p.headD 0) = false := by simpa using hdigit
      rw [if_neg hdigit]
      rw [hno] at hr
      exact Reads.bind hr (Reads.pure _)

theorem byteAt_parses {c : UInt8} (hc : c ≠ 0) (h : At s i p) :
    Parses s (byteAt s c i) t ((skipByte c p).map fun rest => ((),rest)) := by
  cases p with
  | nil =>
    refine Reads.bind h.reads ?_
    rw [List.headD_nil,if_neg (Ne.symm hc)]
    exact Reads.pure none
  | cons b p =>
    rw [skipByte]
    by_cases hb : b = c
    · rw [if_pos hb]
      refine ⟨i+1,Reads.bind h.reads ?_,h.next⟩
      rw [List.headD_cons,if_pos hb]
      exact Reads.pure _
    · rw [if_neg hb]
      refine Reads.bind h.reads ?_
      rw [List.headD_cons,if_neg hb]
      exact Reads.pure none

theorem equalAt_reads {name : List UInt8} (hname : ∀ c ∈ name, otaAsciiLower c ≠ 0)
    (h : At s i p) : Reads s (equalAt s name i) t (otaAsciiEqualN p name name.length) t := by
  induction name generalizing i p with
  | nil => exact Reads.pure true
  | cons c name ih =>
    have hc := hname c List.mem_cons_self
    cases p with
    | nil =>
      have hno : otaAsciiEqualN [] (c::name) (c::name).length = false := rfl
      refine Reads.bind h.reads ?_
      rw [if_neg (show otaAsciiLower (([] : List UInt8).headD 0) ≠ otaAsciiLower c from
        Ne.symm hc),hno]
      exact Reads.pure false
    | cons b p =>
      refine Reads.bind h.reads ?_
      rw [List.headD_cons]
      by_cases hb : otaAsciiLower b = otaAsciiLower c
      · have hrest : otaAsciiEqualN (b::p) (c::name) (c::name).length =
            otaAsciiEqualN p name name.length := by
          simp [otaAsciiEqualN,hb]
        rw [if_pos hb,hrest]
        exact ih (fun d hd => hname d (List.mem_cons_of_mem c hd)) h.next
      · have hno : otaAsciiEqualN (b::p) (c::name) (c::name).length = false := by
          simp [otaAsciiEqualN,hb]
        rw [if_neg hb,hno]
        exact Reads.pure false

/-- True and the results, or false and nothing written. -/
def Answers (s : List UInt8) (m : Noted ℕ S Bool) (t : S) (o : Option S) : Prop :=
  Reads s m t o.isSome (o.getD t)

theorem Answers.orFail {m : Noted ℕ S (Option (A × ℕ))} {f : A × ℕ → Noted ℕ S Bool}
    {r : Option (A × List UInt8)} {k : A × List UInt8 → Option S} (hm : Parses s m t r)
    (hf : ∀ a j rest, At s j rest → Answers s (f (a,j)) t (k (a,rest))) :
    Answers s (orFail m f) t (r.bind k) := by
  cases r with
  | none => exact Reads.bind hm (Reads.pure false)
  | some r =>
    obtain ⟨j,hr,hat⟩ := hm
    exact Reads.bind hr (hf r.1 j r.2 hat)

theorem Answers.byteAt {c : UInt8} {f : Unit × ℕ → Noted ℕ S Bool} {k : List UInt8 → Option S}
    (hc : c ≠ 0) (h : At s i p) (hf : ∀ j rest, At s j rest → Answers s (f ((),j)) t (k rest)) :
    Answers s (OtaNumbers.orFail (OtaNumbers.byteAt s c i) f) t ((skipByte c p).bind k) := by
  have hall := Answers.orFail (k := fun r : Unit × List UInt8 => k r.2) (byteAt_parses (t := t) hc h)
    fun _ j rest hrest => hf j rest hrest
  rwa [Option.bind_map] at hall

theorem finishAt_answers (h : At s i p) (result : S) : Answers s (finishAt s i result) t
    (if atLineEnd (p.dropWhile isBlank) then some result else none) := by
  obtain ⟨j,hr,hat⟩ := skipBlanks_reads (t := t) h (Nat.lt_succ_of_le h.length)
  refine Reads.bind hr (Reads.bind hat.reads ?_)
  have hiff : atLineEnd (p.dropWhile isBlank) = true ↔
      ¬((p.dropWhile isBlank).headD 0 ≠ 13 ∧ (p.dropWhile isBlank).headD 0 ≠ 10 ∧
        (p.dropWhile isBlank).headD 0 ≠ 0) := by
    rw [atLineEnd]
    simp only [List.mem_cons,List.not_mem_nil,or_false,decide_eq_true_eq]
    tauto
  by_cases hend : atLineEnd (p.dropWhile isBlank) = true
  · rw [if_pos hend,if_neg (hiff.mp hend)]
    exact ⟨rfl,rfl,fun _ hj => absurd hj List.not_mem_nil⟩
  · rw [if_neg hend,if_pos (not_not.mp (mt hiff.mpr hend))]
    exact Reads.pure false

theorem otaParseUint32At_answers (p : List UInt8) (t : ℕ) :
    Answers p (otaParseUint32At p) t (otaParseUint32 p) := by
  obtain ⟨j,hr,hat⟩ := skipBlanks_reads (t := t) (at_zero p) (Nat.lt_succ_self _)
  refine Reads.bind hr ?_
  exact Answers.orFail (numberAt_parses hat) fun value j rest hrest => finishAt_answers hrest value

theorem otaParseContentRangeAt_answers (p : List UInt8) (t : ℕ × ℕ × ℕ) :
    Answers p (otaParseContentRangeAt p) t (otaParseContentRange p) := by
  obtain ⟨j,hr,hat⟩ := skipBlanks_reads (t := t) (at_zero p) (Nat.lt_succ_self _)
  have hword : ∀ c ∈ ascii "bytes", otaAsciiLower c ≠ 0 := by decide +kernel
  have hequal : Reads p (equalAt p (ascii "bytes") j) t
      (otaAsciiEqualN (p.dropWhile isBlank) (ascii "bytes") 5) t := equalAt_reads hword hat
  rw [otaParseContentRange]
  dsimp only
  generalize p.dropWhile isBlank = q at *
  refine Reads.bind hr (Reads.bind hequal ?_)
  by_cases hbytes : otaAsciiEqualN q (ascii "bytes") 5 = true
  · have hskip : At p (j+5) (q.drop 5) := by
      rw [otaAsciiEqualN,decide_eq_true_iff] at hbytes
      have hlen := congrArg List.length hbytes
      have hfive : (ascii "bytes").length = 5 := rfl
      rw [List.length_map,List.length_map,List.length_take,List.length_take,hfive] at hlen
      exact hat.skip (by omega)
    rw [if_pos hbytes]
    refine Reads.bind hskip.reads ?_
    by_cases hblank : isBlank ((q.drop 5).headD 0) = true
    · obtain ⟨j',hr',hat'⟩ := skipBlanks_reads (t := t) hskip (Nat.lt_succ_of_le hskip.length)
      rw [if_pos hblank,if_neg (by simp only [hbytes,hblank,not_true,or_self,not_false_iff])]
      refine Reads.bind hr' ?_
      refine Answers.orFail (numberAt_parses hat') fun start j₁ rest₁ h₁ => ?_
      refine Answers.byteAt (by decide) h₁ fun j₂ rest₂ h₂ => ?_
      refine Answers.orFail (numberAt_parses h₂) fun stop j₃ rest₃ h₃ => ?_
      refine Answers.byteAt (by decide) h₃ fun j₄ rest₄ h₄ => ?_
      refine Answers.orFail (numberAt_parses h₄) fun total j₅ rest₅ h₅ => ?_
      exact finishAt_answers h₅ (start,stop,total)
    · rw [if_neg hblank,if_pos (Or.inr hblank)]
      exact Reads.pure false
  · rw [if_neg hbytes,if_pos (Or.inl hbytes)]
    exact Reads.pure false

end Reading

section Accepted

variable {p rest : List UInt8} {n v : ℕ}

theorem readDigits_mono (v : ℕ) (p : List UInt8) : v ≤ readDigits v p := by
  rw [readDigits_shift]
  have hpos : 0 < 10^p.length := Nat.pow_pos (by decide)
  exact Nat.le_add_right_of_le (Nat.le_mul_of_pos_right v hpos)

/-- The digits are read to the end of their run unless the value gets too large. -/
theorem otaDigits_iff (hv : v < 2^32) : otaDigits v p = some (n,rest) ↔
    rest = p.dropWhile isDigit ∧ readDigits v (p.takeWhile isDigit) = n ∧ n < 2^32 := by
  induction p generalizing v with
  | nil =>
    rw [otaDigits,Option.some_inj,Prod.mk.injEq]
    simp only [List.dropWhile_nil,List.takeWhile_nil,readDigits,List.foldl_nil]
    constructor
    · rintro ⟨rfl,rfl⟩
      exact ⟨rfl,rfl,hv⟩
    · rintro ⟨rfl,rfl,_⟩
      exact ⟨rfl,rfl⟩
  | cons b p ih =>
    rw [otaDigits]
    by_cases hb : isDigit b = true
    · obtain ⟨_,hle⟩ := isDigit_bounds hb
      have hcons : readDigits v (b::p.takeWhile isDigit) =
          readDigits (v*10+(b.toNat-48)) (p.takeWhile isDigit) := rfl
      rw [if_pos hb,List.dropWhile_cons_of_pos hb,List.takeWhile_cons_of_pos hb,hcons]
      by_cases hbig : v > (0xFFFFFFFF-(b.toNat-48))/10
      · rw [if_pos hbig]
        refine iff_of_false (by simp) ?_
        rintro ⟨_,hread,hlt⟩
        have hmono := readDigits_mono (v*10+(b.toNat-48)) (p.takeWhile isDigit)
        omega
      · rw [if_neg hbig]
        exact ih (by omega)
    · rw [if_neg hb,List.dropWhile_cons_of_neg hb,List.takeWhile_cons_of_neg hb,Option.some_inj,
        Prod.mk.injEq]
      simp only [readDigits,List.foldl_nil]
      constructor
      · rintro ⟨rfl,rfl⟩
        exact ⟨rfl,rfl,hv⟩
      · rintro ⟨rfl,rfl,_⟩
        exact ⟨rfl,rfl⟩

theorem dropWhile_head {f : UInt8 → Bool} (hf : f 0 = false) (p : List UInt8) :
    f ((p.dropWhile f).headD 0) = false := by
  induction p with
  | nil => exact hf
  | cons b p ih =>
    by_cases hb : f b = true
    · rw [List.dropWhile_cons_of_pos hb]
      exact ih
    · rw [List.dropWhile_cons_of_neg hb]
      simpa using hb

theorem span_iff {f : UInt8 → Bool} (hf : f 0 = false) {p pre rest : List UInt8} :
    p.takeWhile f = pre ∧ p.dropWhile f = rest ↔
      p = pre ++ rest ∧ (∀ b ∈ pre, f b = true) ∧ f (rest.headD 0) = false := by
  constructor
  · rintro ⟨rfl,rfl⟩
    exact ⟨List.takeWhile_append_dropWhile.symm,fun b hb => List.mem_takeWhile_imp hb,
      dropWhile_head hf p⟩
  · rintro ⟨rfl,hpre,hhead⟩
    rw [List.takeWhile_append_of_pos hpre,List.dropWhile_append_of_pos hpre]
    cases rest with
    | nil => exact ⟨List.append_nil pre,rfl⟩
    | cons b rest =>
      have hb : ¬f b = true := by simpa using hhead
      rw [List.takeWhile_cons_of_neg hb,List.dropWhile_cons_of_neg hb,List.append_nil]
      exact ⟨rfl,rfl⟩

theorem dropWhile_iff {f : UInt8 → Bool} (hf : f 0 = false) {p rest : List UInt8} :
    p.dropWhile f = rest ↔
      ∃ pre, p = pre ++ rest ∧ (∀ b ∈ pre, f b = true) ∧ f (rest.headD 0) = false :=
  ⟨fun h => ⟨p.takeWhile f,(span_iff hf).mp ⟨rfl,h⟩⟩,fun ⟨_,h⟩ => ((span_iff hf).mpr h).2⟩

theorem Number.cons {digits : List UInt8} (h : Number digits n) :
    ∃ b bs, digits = b::bs ∧ isDigit b = true := by
  obtain ⟨b,bs,rfl⟩ := List.exists_cons_of_ne_nil h.1.1
  exact ⟨b,bs,rfl,h.1.2.1 b List.mem_cons_self⟩

theorem otaNumber_iff : otaNumber p = some (n,rest) ↔
    ∃ digits, p = digits ++ rest ∧ Number digits n ∧ isDigit (rest.headD 0) = false := by
  rw [otaNumber]
  constructor
  · intro h
    split at h
    · rename_i hdigit
      obtain ⟨hrest,hread,hlt⟩ := (otaDigits_iff (by decide)).mp h
      obtain ⟨heq,hall,hend⟩ := (span_iff (f := isDigit) rfl).mp ⟨rfl,hrest.symm⟩
      refine ⟨p.takeWhile isDigit,heq,⟨⟨fun hnil => ?_,hall,hread⟩,hlt⟩,hend⟩
      rw [hnil,List.nil_append] at heq
      rw [heq,hend] at hdigit
      exact absurd hdigit (by decide)
    · cases h
  · rintro ⟨digits,rfl,hnumber,hend⟩
    obtain ⟨b,bs,rfl,hb⟩ := hnumber.cons
    obtain ⟨htake,hdrop⟩ := (span_iff (f := isDigit) rfl).mpr ⟨rfl,hnumber.1.2.1,hend⟩
    rw [if_pos (by simpa using hb),otaDigits_iff (by decide),htake,hdrop]
    exact ⟨rfl,hnumber.1.2.2,hnumber.2⟩

theorem skipByte_iff {c : UInt8} : skipByte c p = some rest ↔ p = c::rest := by
  cases p with
  | nil => exact iff_of_false (by simp [skipByte]) (by simp)
  | cons b p =>
    rw [skipByte]
    by_cases hb : b = c
    · rw [if_pos hb,Option.some_inj,hb,List.cons_inj_right]
    · rw [if_neg hb]
      exact iff_of_false (by simp) fun h => hb (List.cons.inj h).1

theorem atLineEnd_iff (h : 0 ∉ p) : atLineEnd p = true ↔ LineEnd p := by
  cases p with
  | nil => exact iff_of_true (by decide) (Or.inl rfl)
  | cons b p =>
    have hb : b ≠ 0 := fun hb => h (hb ▸ List.mem_cons_self)
    simp [atLineEnd,LineEnd,hb]

theorem isBlank_digit {b : UInt8} (h : isDigit b = true) : isBlank b = false := by
  obtain ⟨hge,_⟩ := isDigit_bounds h
  have hspace : b ≠ 32 := by
    rintro rfl
    exact absurd hge (by decide)
  have htab : b ≠ 9 := by
    rintro rfl
    exact absurd hge (by decide)
  simp [isBlank,hspace,htab]

/-- Blanks and the end of the line begin with no digit, and the end of the line with no blank. -/
theorem line_head {post : List UInt8} (hpost : Blanks post) (hend : LineEnd rest) :
    isDigit ((post ++ rest).headD 0) = false ∧ isBlank (rest.headD 0) = false := by
  have hrest : isDigit (rest.headD 0) = false ∧ isBlank (rest.headD 0) = false := by
    rcases hend with rfl | hhead | hhead
    · exact ⟨rfl,rfl⟩
    · rw [List.headD_eq_head?_getD,hhead]
      exact ⟨rfl,rfl⟩
    · rw [List.headD_eq_head?_getD,hhead]
      exact ⟨rfl,rfl⟩
  refine ⟨?_,hrest.2⟩
  cases post with
  | nil => exact hrest.1
  | cons b post =>
    by_contra hb
    have hblank := hpost b List.mem_cons_self
    have hno := isBlank_digit (b := b) (by simpa using hb)
    rw [hblank] at hno
    cases hno

theorem finish_iff (h : 0 ∉ p) : atLineEnd (p.dropWhile isBlank) = true ↔
    ∃ post rest, p = post ++ rest ∧ Blanks post ∧ LineEnd rest := by
  have hdrop : 0 ∉ p.dropWhile isBlank := fun hmem => h ((List.dropWhile_suffix isBlank).subset hmem)
  rw [atLineEnd_iff hdrop]
  constructor
  · intro hend
    exact ⟨p.takeWhile isBlank,p.dropWhile isBlank,List.takeWhile_append_dropWhile.symm,
      fun b hb => List.mem_takeWhile_imp hb,hend⟩
  · rintro ⟨post,rest,rfl,hpost,hend⟩
    rw [((dropWhile_iff (f := isBlank) rfl).mpr ⟨post,rfl,hpost,(line_head hpost hend).2⟩)]
    exact hend

theorem otaParseUint32_iff (h : 0 ∉ p) : otaParseUint32 p = some n ↔ Uint32Text p n := by
  rw [otaParseUint32,Option.bind_eq_bind,Option.bind_eq_some_iff]
  constructor
  · rintro ⟨⟨value,rest⟩,hnumber,hfinish⟩
    dsimp only at hfinish
    obtain ⟨digits,hdigits,hnum,_⟩ := otaNumber_iff.mp hnumber
    obtain ⟨pre,hpre,hblanks,_⟩ := (dropWhile_iff (f := isBlank) rfl).mp hdigits
    obtain ⟨hend,hvalue⟩ := Option.ite_none_right_eq_some.mp hfinish
    obtain rfl := Option.some.inj hvalue
    have hrest : 0 ∉ rest := fun hmem => h (by rw [hpre]; simp [hmem])
    obtain ⟨post,line,rfl,hpost,hline⟩ := (finish_iff hrest).mp hend
    exact ⟨pre,digits,post,line,hpre,hblanks,hnum,hpost,hline⟩
  · rintro ⟨pre,digits,post,line,hp,hblanks,hnum,hpost,hline⟩
    obtain ⟨b,bs,hcons,hb⟩ := hnum.cons
    have hdrop : p.dropWhile isBlank = digits ++ (post ++ line) := by
      refine (dropWhile_iff rfl).mpr ⟨pre,hp,hblanks,?_⟩
      rw [hcons]
      exact isBlank_digit hb
    have hrest : 0 ∉ post ++ line := fun hmem => h (by rw [hp]; simp [List.mem_append.mp hmem])
    refine ⟨(n,post ++ line),?_,?_⟩
    · rw [hdrop]
      exact otaNumber_iff.mpr ⟨digits,rfl,hnum,(line_head hpost hline).1⟩
    · dsimp only
      rw [if_pos ((finish_iff hrest).mpr ⟨post,line,rfl,hpost,hline⟩)]

theorem otaAsciiEqualN_iff {name : List UInt8} : otaAsciiEqualN p name name.length = true ↔
    ∃ word rest, p = word ++ rest ∧ word.map otaAsciiLower = name.map otaAsciiLower := by
  rw [otaAsciiEqualN,decide_eq_true_iff,List.take_length]
  constructor
  · intro h
    exact ⟨p.take name.length,p.drop name.length,(List.take_append_drop _ p).symm,h⟩
  · rintro ⟨word,rest,rfl,h⟩
    have hlen := congrArg List.length h
    rw [List.length_map,List.length_map] at hlen
    rw [List.take_left' hlen,h]

theorem word_length {word : List UInt8} (h : word.map otaAsciiLower = ascii "bytes") :
    word.length = 5 := by
  have hlen := congrArg List.length h
  rwa [List.length_map] at hlen

theorem word_head {word : List UInt8} (h : word.map otaAsciiLower = ascii "bytes")
    (rest : List UInt8) : isBlank ((word ++ rest).headD 0) = false := by
  have hall : ∀ b : UInt8, otaAsciiLower b = 98 → isBlank b = false :=
    Bytes.forall_byte (by decide +kernel)
  cases word with
  | nil => cases h
  | cons b word => exact hall b (List.cons.inj h).1

def rangeNumbers (p : List UInt8) : Option (ℕ × ℕ × ℕ) := do
  let (start,p) ← otaNumber p
  let p ← skipByte 45 p
  let (stop,p) ← otaNumber p
  let p ← skipByte 47 p
  let (total,p) ← otaNumber p
  if atLineEnd (p.dropWhile isBlank) then some (start,stop,total) else none

theorem rangeNumbers_iff (h : 0 ∉ p) {r : ℕ × ℕ × ℕ} : rangeNumbers p = some r ↔
    ∃ start stop total post rest,
      p = start ++ 45::(stop ++ 47::(total ++ (post ++ rest))) ∧ Number start r.1 ∧
        Number stop r.2.1 ∧ Number total r.2.2 ∧ Blanks post ∧ LineEnd rest := by
  rw [rangeNumbers]
  simp only [Option.bind_eq_bind,Option.bind_eq_some_iff]
  constructor
  · rintro ⟨⟨_,_⟩,h₁,_,h₂,⟨_,_⟩,h₃,_,h₄,⟨_,line⟩,h₅,hfinish⟩
    obtain ⟨start,rfl,hstart,_⟩ := otaNumber_iff.mp h₁
    obtain rfl := skipByte_iff.mp h₂
    obtain ⟨stop,rfl,hstop,_⟩ := otaNumber_iff.mp h₃
    obtain rfl := skipByte_iff.mp h₄
    obtain ⟨total,rfl,htotal,_⟩ := otaNumber_iff.mp h₅
    obtain ⟨hend,hvalue⟩ := Option.ite_none_right_eq_some.mp hfinish
    obtain rfl := Option.some.inj hvalue
    have hline : 0 ∉ line := fun hmem => h (by simp [hmem])
    obtain ⟨post,rest,rfl,hpost,hrest⟩ := (finish_iff hline).mp hend
    exact ⟨start,stop,total,post,rest,rfl,hstart,hstop,htotal,hpost,hrest⟩
  · rintro ⟨start,stop,total,post,rest,rfl,hstart,hstop,htotal,hpost,hrest⟩
    have hline : 0 ∉ post ++ rest := fun hmem => h (by simp [List.mem_append.mp hmem])
    refine ⟨(r.1,_),otaNumber_iff.mpr ⟨start,rfl,hstart,rfl⟩,_,skipByte_iff.mpr rfl,
      (r.2.1,_),otaNumber_iff.mpr ⟨stop,rfl,hstop,rfl⟩,_,skipByte_iff.mpr rfl,
      (r.2.2,_),otaNumber_iff.mpr ⟨total,rfl,htotal,(line_head hpost hrest).1⟩,?_⟩
    dsimp only
    rw [if_pos ((finish_iff hline).mpr ⟨post,rest,rfl,hpost,hrest⟩)]

theorem otaParseContentRange_iff (h : 0 ∉ p) {r : ℕ × ℕ × ℕ} :
    otaParseContentRange p = some r ↔ RangeText p r := by
  have hparse : otaParseContentRange p =
      if ¬otaAsciiEqualN (p.dropWhile isBlank) (ascii "bytes") 5 ∨
          ¬isBlank (((p.dropWhile isBlank).drop 5).headD 0) then none
      else rangeNumbers (((p.dropWhile isBlank).drop 5).dropWhile isBlank) := rfl
  rw [hparse]
  constructor
  · intro hsome
    obtain ⟨hnot,hnumbers⟩ := Option.ite_none_left_eq_some.mp hsome
    rw [not_or,not_not,not_not] at hnot
    obtain ⟨word,tail,htail,hword⟩ := otaAsciiEqualN_iff.mp hnot.1
    obtain ⟨pre,hpre,hblanks,_⟩ := (dropWhile_iff (f := isBlank) rfl).mp htail
    have hbytes : word.map otaAsciiLower = ascii "bytes" := hword
    rw [htail,List.drop_left' (word_length hbytes)] at hnot hnumbers
    have hnumbersFree : 0 ∉ tail.dropWhile isBlank := fun hmem =>
      h (by rw [hpre]; simp [(List.dropWhile_suffix isBlank).subset hmem])
    obtain ⟨start,stop,total,post,rest,heq,hstart,hstop,htotal,hpost,hrest⟩ :=
      (rangeNumbers_iff hnumbersFree).mp hnumbers
    refine ⟨pre,word,tail.takeWhile isBlank,start,stop,total,post,rest,?_,hblanks,hbytes,
      fun b hb => List.mem_takeWhile_imp hb,?_,hstart,hstop,htotal,hpost,hrest⟩
    · rw [← heq,List.takeWhile_append_dropWhile,hpre]
    · intro hnil
      have hsplit := List.takeWhile_append_dropWhile (p := isBlank) (l := tail)
      rw [hnil,List.nil_append] at hsplit
      have hhead := dropWhile_head (f := isBlank) rfl tail
      rw [hsplit,hnot.2] at hhead
      cases hhead
  · rintro ⟨pre,word,gap,start,stop,total,post,rest,hp,hblanks,hbytes,hgap,hne,hstart,hstop,htotal,
      hpost,hrest⟩
    obtain ⟨b,bs,hcons,hb⟩ := hstart.cons
    generalize hline : start ++ 45::(stop ++ 47::(total ++ (post ++ rest))) = line at hp
    have hword : p.dropWhile isBlank = word ++ (gap ++ line) :=
      (dropWhile_iff rfl).mpr ⟨pre,hp,hblanks,word_head hbytes _⟩
    have hdrop : (gap ++ line).dropWhile isBlank = line := by
      refine (dropWhile_iff rfl).mpr ⟨gap,rfl,hgap,?_⟩
      rw [← hline,hcons]
      exact isBlank_digit hb
    obtain ⟨c,cs,rfl⟩ := List.exists_cons_of_ne_nil hne
    have hfree : 0 ∉ line := fun hmem => h (by rw [hp]; simp [hmem])
    rw [hword,List.drop_left' (word_length hbytes),hdrop,if_neg]
    · exact (rangeNumbers_iff hfree).mpr
        ⟨start,stop,total,post,rest,hline.symm,hstart,hstop,htotal,hpost,hrest⟩
    · rw [not_or,not_not,not_not]
      exact ⟨otaAsciiEqualN_iff.mpr ⟨word,_,rfl,hbytes⟩,hgap c List.mem_cons_self⟩

theorem exact_of_answers {S : Type} {m : Noted ℕ S Bool} {o : Option S} {Text : S → Prop}
    (hm : ∀ s, Answers p m s o) (htext : ∀ v, o = some v ↔ Text v) : Exact p m Text where
  success s := by
    rw [(hm s).value,Option.isSome_iff_exists]
    exact exists_congr htext
  result s v hv := by
    rw [(hm s).final,(htext v).mpr hv]
    rfl
  unchanged s hfalse := by
    rw [(hm s).value] at hfalse
    have hnone : o = none := by simpa using hfalse
    rw [(hm s).final,hnone]
    rfl
  inside s := (hm s).inside

end Accepted

/-- The two parsers accept the numbers and the ranges of the grammars, and nothing else. -/
theorem numbers_exact {p : List UInt8} (h : 0 ∉ p) :
    Exact p (otaParseUint32At p) (Uint32Text p) ∧
      Exact p (otaParseContentRangeAt p) (RangeText p) :=
  ⟨exact_of_answers (otaParseUint32At_answers p) fun _ => otaParseUint32_iff h,
    exact_of_answers (otaParseContentRangeAt_answers p) fun _ => otaParseContentRange_iff h⟩

/-- The numbers in the header of a partial response. -/
theorem numbers_exact_partial :
    Exact (ascii " bytes 0-1/2 
") (otaParseUint32At (ascii " bytes 0-1/2 
"))
        (Uint32Text (ascii " bytes 0-1/2 
")) ∧
      Exact (ascii " bytes 0-1/2 
") (otaParseContentRangeAt (ascii " bytes 0-1/2 
"))
        (RangeText (ascii " bytes 0-1/2 
")) := numbers_exact (by decide)

end OtaNumbers
end MeterLogger
