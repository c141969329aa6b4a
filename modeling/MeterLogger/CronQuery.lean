import MeterLogger.ConfigCommands

/-!
# Cron queries

What `add_cron_job_from_query` makes of a query: a job with the fields, the command and the
parameters of a query in the grammar, and of any other string at most one job, in the first free
slot of the table.
-/

namespace MeterLogger
namespace CronQuery

open CStrings CharArray SysCfg

inductive Field
  | minute
  | hour
  | dayOfMonth
  | month
  | dayOfWeek
  deriving DecidableEq

def Field.key : Field → List UInt8
  | .minute => ascii "minute"
  | .hour => ascii "hour"
  | .dayOfMonth => ascii "day_of_month"
  | .month => ascii "month"
  | .dayOfWeek => ascii "day_of_week"

def Field.of (job : CronJobT) : Field → Vector UInt8 8
  | .minute => job.minute
  | .hour => job.hour
  | .dayOfMonth => job.dayOfMonth
  | .month => job.month
  | .dayOfWeek => job.dayOfWeek

/-- No NUL, no ampersand and no equals sign. -/
def Clean (value : List UInt8) : Prop := 0 ∉ value ∧ 0x26 ∉ value ∧ 0x3d ∉ value

def fieldText (f : Field × List UInt8) : List UInt8 := f.1.key ++ 0x3d::f.2

def fieldsText (fields : List (Field × List UInt8)) : List UInt8 :=
  fields.flatMap fun f => fieldText f ++ [0x26]

def paramsText : Option (List UInt8) → List UInt8
  | none => []
  | some params => 0x3d::params

/-- Fields, and then `command=name` or `command=name=params`. -/
def queryText (fields : List (Field × List UInt8)) (name : List UInt8)
    (params : Option (List UInt8)) : List UInt8 :=
  fieldsText fields ++ (ascii "command=" ++ (name ++ paramsText params))

/-- A query of the grammar, in a message. -/
structure Query (fields : List (Field × List UInt8)) (name : List UInt8)
    (params : Option (List UInt8)) : Prop where
  once : (fields.map Prod.fst).Nodup
  values : ∀ f ∈ fields, Clean f.2
  command : name ≠ [] ∧ Clean name
  commandParams : ∀ p ∈ params, 0 ∉ p
  length : (queryText fields name params).length < mqttMessageL

def given (fields : List (Field × List UInt8)) (k : Field) : List UInt8 := (fields.lookup k).getD []

/-- The job holds what was given, as far as its arrays reach. -/
structure Stored (job : CronJobT) (fields : List (Field × List UInt8)) (name : List UInt8)
    (params : Option (List UInt8)) : Prop where
  field : ∀ k : Field, str (k.of job) = (given fields k).take 7
  command : str job.command = name.take 31
  commandParams : str job.commandParams = (params.getD []).take 95

def writes (token : List UInt8) : Bool :=
  match segments 0x3d (token.take (keyValueL-1)) with
  | key::_::_ => key = ascii "command" || [Field.minute,.hour,.dayOfMonth,.month,.dayOfWeek].any
      fun k => key = k.key
  | _ => false

def loopSlots (params : List UInt8) : Settings → List (List UInt8) → List ℕ
  | _, [] => []
  | c, token::tokens =>
    (if writes token then [c.cronJobsN.toNat] else []) ++
      loopSlots params (addKeyValue params c token) tokens

/-- The slots that `add_cron_job_from_query` writes to, the one that it clears first. -/
def slots (c : Settings) (query : List UInt8) : List ℕ :=
  if c.cronJobsN.toNat ≤ cronJobsMax-1 then
    let cleared := changeJob c c.cronJobsN.toNat fun _ => emptyJob
    let cut := cutCommandParams (query.take (mqttMessageL-1))
    c.cronJobsN.toNat::loopSlots cut.2 cleared (segments 0x26 cut.1)
  else []

/-- At most one job is added, and only to the slot that was free. -/
structure Bounded (c : Settings) (query : List UInt8) : Prop where
  count : (addCronJobFromQuery c query).cronJobsN = c.cronJobsN ∨
    (addCronJobFromQuery c query).cronJobsN.toNat = c.cronJobsN.toNat+1
  max : c.cronJobsN.toNat ≤ cronJobsMax →
    (addCronJobFromQuery c query).cronJobsN.toNat ≤ cronJobsMax
  others : ∀ i, ∀ hi : i < 16, i ≠ c.cronJobsN.toNat →
    (addCronJobFromQuery c query).cronJobList[i] = c.cronJobList[i]
  slots : ∀ i ∈ slots c query, i = c.cronJobsN.toNat ∧ i < cronJobsMax

section Tokens

variable {c : Settings} {params token : List UInt8}

theorem changeJob_other {i k : ℕ} {f : CronJobT → CronJobT} (hk : k < 16) (hne : k ≠ i) :
    (changeJob c i f).cronJobList[k] = c.cronJobList[k] := by
  rw [changeJob,modifyJob_get hk,if_neg hne]

theorem addKeyValue_slot (params : List UInt8) (c : Settings) (token : List UInt8) :
    ((addKeyValue params c token).cronJobsN = c.cronJobsN ∨
        (addKeyValue params c token).cronJobsN = c.cronJobsN+1) ∧
      ∀ k, ∀ hk : k < 16, k ≠ c.cronJobsN.toNat →
        (addKeyValue params c token).cronJobList[k] = c.cronJobList[k] := by
  rw [addKeyValue]
  split
  · dsimp only
    split_ifs
    · exact ⟨Or.inl rfl,fun k hk hne => changeJob_other hk hne⟩
    · exact ⟨Or.inl rfl,fun k hk hne => changeJob_other hk hne⟩
    · exact ⟨Or.inl rfl,fun k hk hne => changeJob_other hk hne⟩
    · exact ⟨Or.inl rfl,fun k hk hne => changeJob_other hk hne⟩
    · exact ⟨Or.inl rfl,fun k hk hne => changeJob_other hk hne⟩
    · exact ⟨Or.inr rfl,fun k hk hne => changeJob_other hk hne⟩
    · exact ⟨Or.inl rfl,fun _ _ _ => rfl⟩
  · exact ⟨Or.inl rfl,fun _ _ _ => rfl⟩

theorem addKeyValue_uncounted (params : List UInt8) (c : Settings)
    (h : ¬ascii "command=" <:+: token) :
    (addKeyValue params c token).cronJobsN = c.cronJobsN := by
  rw [addKeyValue]
  split
  · rename_i key value rest hsegments
    dsimp only
    split_ifs with _ _ _ _ _ hcommand
    · rfl
    · rfl
    · rfl
    · rfl
    · rfl
    · have hinside := (segments_pair hsegments).trans (List.take_prefix _ token).isInfix
      rw [hcommand] at hinside
      exact absurd hinside h
    · rfl
  · rfl

theorem no_pair (h : 0x3d ∉ token) (key value : List UInt8) (rest : List (List UInt8)) :
    segments 0x3d (token.take (keyValueL-1)) ≠ key::value::rest := by
  intro heq
  have hinside := (segments_pair heq).trans (List.take_prefix _ token).isInfix
  exact h (hinside.subset (by simp))

theorem addKeyValue_plain (h : 0x3d ∉ token) : addKeyValue params c token = c := by
  rw [addKeyValue]
  split
  · rename_i heq
    exact absurd heq (no_pair h _ _ _)
  · rfl

theorem writes_plain (h : 0x3d ∉ token) : writes token = false := by
  rw [writes]
  split
  · rename_i heq
    exact absurd heq (no_pair h _ _ _)
  · rfl

theorem foldl_plain (params : List UInt8) (c : Settings) (tokens : List (List UInt8))
    (h : ∀ token ∈ tokens, 0x3d ∉ token) :
    tokens.foldl (addKeyValue params) c = c ∧ loopSlots params c tokens = [] := by
  induction tokens with
  | nil => exact ⟨rfl,rfl⟩
  | cons token tokens ih =>
    rw [List.forall_mem_cons] at h
    obtain ⟨hfold,hslots⟩ := ih h.2
    rw [List.foldl_cons,loopSlots,addKeyValue_plain h.1,writes_plain h.1]
    exact ⟨hfold,hslots⟩

theorem foldl_uncounted (params : List UInt8) (c : Settings) (tokens : List (List UInt8))
    (h : ∀ token ∈ tokens, ¬ascii "command=" <:+: token) :
    (tokens.foldl (addKeyValue params) c).cronJobsN = c.cronJobsN ∧
      (∀ k, ∀ hk : k < 16, k ≠ c.cronJobsN.toNat →
        (tokens.foldl (addKeyValue params) c).cronJobList[k] = c.cronJobList[k]) ∧
      ∀ i ∈ loopSlots params c tokens, i = c.cronJobsN.toNat := by
  induction tokens generalizing c with
  | nil => exact ⟨rfl,fun _ _ _ => rfl,fun _ hi => absurd hi List.not_mem_nil⟩
  | cons token tokens ih =>
    rw [List.forall_mem_cons] at h
    obtain ⟨hcount,hothers,hslots⟩ := ih (addKeyValue params c token) h.2
    have hsame := addKeyValue_uncounted params c h.1
    rw [hsame] at hcount hothers hslots
    refine ⟨hcount,fun k hk hne => ?_,fun i hi => ?_⟩
    · rw [List.foldl_cons,hothers k hk hne,(addKeyValue_slot params c token).2 k hk hne]
    · rw [loopSlots,List.mem_append] at hi
      rcases hi with hi | hi
      · split at hi
        · exact List.mem_singleton.mp hi
        · exact absurd hi List.not_mem_nil
      · exact hslots i hi

theorem loopSlots_append (c : Settings) (xs ys : List (List UInt8)) :
    loopSlots params c (xs ++ ys) =
      loopSlots params c xs ++ loopSlots params (xs.foldl (addKeyValue params) c) ys := by
  induction xs generalizing c with
  | nil => rfl
  | cons x xs ih =>
    rw [List.cons_append,loopSlots,loopSlots,ih,List.append_assoc]
    rfl

end Tokens

/-- The tokens: none in front of the first command is one, and none behind it has an equals sign. -/
structure Tokens (tokens pre mid post : List (List UInt8)) : Prop where
  eq : tokens = pre ++ (mid ++ post)
  before : ∀ token ∈ pre, ¬ascii "command=" <:+: token
  one : mid.length ≤ 1
  behind : ∀ token ∈ post, 0x3d ∉ token

theorem tokens_free {text : List UInt8} (h : ¬ascii "command=" <:+: text) :
    ∀ token ∈ segments 0x26 text, ¬ascii "command=" <:+: token :=
  fun _ htoken hinside => h (hinside.trans (segments_inside htoken))

theorem tokens_plain {text : List UInt8} (h : 0x3d ∉ text) :
    ∀ token ∈ segments 0x26 text, 0x3d ∉ token :=
  fun _ htoken hmem => h ((segments_inside htoken).subset hmem)

theorem tokens_name {head name : List UInt8} (hne : head ≠ []) (hhead : 0x26 ∉ head)
    (hname : 0x3d ∉ name) :
    ∃ token post, segments 0x26 (head ++ name) = token::post ∧ ∀ t ∈ post, 0x3d ∉ t := by
  by_cases hamp : 0x26 ∈ name
  · obtain ⟨a,b,rfl,ha⟩ := List.eq_append_cons_of_mem hamp
    have hfree : 0x26 ∉ head ++ a := fun hmem =>
      (List.mem_append.mp hmem).elim hhead ha
    rw [← List.append_assoc,segments_cons (by simp [hne]) (ne_of_free hfree)]
    exact ⟨_,_,rfl,tokens_plain fun hmem => hname (by simp [hmem])⟩
  · have hfree : 0x26 ∉ head ++ name := fun hmem =>
      (List.mem_append.mp hmem).elim hhead hamp
    rw [segments_token (by simp [hne]) (ne_of_free hfree)]
    exact ⟨_,_,rfl,fun _ ht => absurd ht List.not_mem_nil⟩

/-- The text in front of the first command, the command with its equals signs, and the name. -/
theorem tokens_command {before eqs name : List UInt8} (hbefore : ¬ascii "command=" <:+: before)
    (heqs : ∀ b ∈ eqs, b = 0x3d) (hname : 0x3d ∉ name) :
    ∃ pre mid post,
      Tokens (segments 0x26 (before ++ (ascii "command=" ++ eqs ++ name))) pre mid post := by
  have hcommand : 0x26 ∉ ascii "command=" ++ eqs := by
    intro hmem
    rcases List.mem_append.mp hmem with hmem | hmem
    · exact absurd hmem (by decide)
    · exact absurd (heqs _ hmem) (by decide)
  have hne : ascii "command=" ++ eqs ≠ [] := List.append_ne_nil_of_left_ne_nil (by decide) _
  by_cases hamp : 0x26 ∈ before
  · obtain ⟨a,b,rfl,hb⟩ := last_cut hamp
    have hhead : 0x26 ∉ b ++ (ascii "command=" ++ eqs) := fun hmem =>
      (List.mem_append.mp hmem).elim hb hcommand
    obtain ⟨token,post,htokens,hpost⟩ := tokens_name (by simp [ascii]) hhead hname
    refine ⟨segments 0x26 a,[token],post,?_,tokens_free fun hinside => hbefore ?_,Nat.le_refl _,
      hpost⟩
    · rw [List.append_assoc a,List.cons_append,segments_append,← List.append_assoc b,htokens]
      rfl
    · exact hinside.trans (List.prefix_append _ _).isInfix
  · have hhead : 0x26 ∉ before ++ (ascii "command=" ++ eqs) := fun hmem =>
      (List.mem_append.mp hmem).elim hamp hcommand
    obtain ⟨token,post,htokens,hpost⟩ := tokens_name (by simp [ascii]) hhead hname
    refine ⟨[],[token],post,?_,fun _ ht => absurd ht List.not_mem_nil,Nat.le_refl _,hpost⟩
    rw [← List.append_assoc before,htokens]
    rfl

theorem cut_tokens (query : List UInt8) :
    ∃ pre mid post, Tokens (segments 0x26 (cutCommandParams query).1) pre mid post := by
  rw [cutCommandParams]
  split
  · rename_i hnone
    refine ⟨segments 0x26 query,[],[],by simp,tokens_free ?_,Nat.zero_le _,
      fun _ ht => absurd ht List.not_mem_nil⟩
    rintro ⟨s,t,rfl⟩
    rw [List.append_assoc] at hnone
    obtain ⟨first,hfirst,-⟩ := strstr_of_occurs (List.prefix_append (ascii "command=") t)
      (List.suffix_append s _)
    rw [hnone] at hfirst
    cases hfirst
  · rename_i found hfound
    obtain ⟨⟨text,rfl⟩,before,rfl⟩ := strstr_some hfound
    have hbefore := strstr_first (by decide) hfound
    have hdrop : (ascii "command=" ++ text).drop 8 = text := rfl
    rw [hdrop]
    split
    · rename_i hnone
      have hall : ∀ b ∈ text, b = 0x3d := by
        rw [strtok] at hnone
        split at hnone
        · rename_i hnil
          simpa using List.dropWhile_eq_nil_iff.mp hnil
        · cases hnone
      have htokens := tokens_command hbefore hall (List.not_mem_nil (a := 0x3d))
      rwa [List.append_nil] at htokens
    · rename_i name params hname
      have hfree : 0x3d ∉ name := by
        rw [strtok] at hname
        split at hname
        · cases hname
        · cases hname
          intro hmem
          simpa using List.mem_takeWhile_imp hmem
      have hlen : (before ++ (ascii "command=" ++ text)).length-(ascii "command=" ++ text).length+8 =
          before.length+8 := by
        rw [List.length_append,Nat.add_sub_cancel]
      have htake : (before ++ (ascii "command=" ++ text)).take (before.length+8) =
          before ++ ascii "command=" := by
        rw [← List.append_assoc,List.take_left' (by rw [List.length_append]; rfl)]
      rw [hlen,htake,List.append_assoc before,List.append_assoc before]
      exact tokens_command hbefore (fun b hb => by simpa using List.mem_takeWhile_imp hb) hfree

section Any

variable {c : Settings}

/-- The settings after the tokens of a query, of which one at most is a command. -/
theorem foldl_tokens (params : List UInt8) (c : Settings)
    {tokens pre mid post : List (List UInt8)} (h : Tokens tokens pre mid post) :
    ((tokens.foldl (addKeyValue params) c).cronJobsN = c.cronJobsN ∨
        (tokens.foldl (addKeyValue params) c).cronJobsN = c.cronJobsN+1) ∧
      (∀ k, ∀ hk : k < 16, k ≠ c.cronJobsN.toNat →
        (tokens.foldl (addKeyValue params) c).cronJobList[k] = c.cronJobList[k]) ∧
      ∀ i ∈ loopSlots params c tokens, i = c.cronJobsN.toNat := by
  obtain ⟨rfl,hbefore,hone,hbehind⟩ := h
  obtain ⟨hcount,hothers,hslots⟩ := foldl_uncounted params c pre hbefore
  rw [List.foldl_append,List.foldl_append,loopSlots_append,loopSlots_append]
  match mid, hone with
  | [], _ =>
    obtain ⟨hplain,hnone⟩ := foldl_plain params (pre.foldl (addKeyValue params) c) post hbehind
    rw [List.foldl_nil,hplain,hnone]
    refine ⟨Or.inl hcount,hothers,fun i hi => hslots i ?_⟩
    simpa [loopSlots] using hi
  | [token], _ =>
    obtain ⟨hcount',hothers'⟩ := addKeyValue_slot params (pre.foldl (addKeyValue params) c) token
    obtain ⟨hplain,hnone⟩ := foldl_plain params
      (addKeyValue params (pre.foldl (addKeyValue params) c) token) post hbehind
    rw [hcount] at hcount' hothers'
    rw [List.foldl_cons,List.foldl_nil,hplain,hnone]
    refine ⟨hcount',fun k hk hne => (hothers' k hk hne).trans (hothers k hk hne),fun i hi => ?_⟩
    rw [loopSlots,hcount] at hi
    rcases List.mem_append.mp hi with hi | hi
    · exact hslots i hi
    · split at hi
      · simpa [loopSlots] using hi
      · simp [loopSlots] at hi
  | _::_::_, hone => simp at hone

theorem toNat_next {n : UInt8} (h : n.toNat < 255) : (n+1).toNat = n.toNat+1 := by
  have hbyte : n.toNat+1 < 2^8 := Nat.add_lt_add_right h 1
  rw [UInt8.toNat_add]
  exact Nat.mod_eq_of_lt hbyte

theorem addCronJobFromQuery_full (h : ¬c.cronJobsN.toNat ≤ cronJobsMax-1) (query : List UInt8) :
    Bounded c query := by
  have hsame : addCronJobFromQuery c query = c := if_neg h
  refine ⟨Or.inl (by rw [hsame]),fun hle => by rw [hsame]; exact hle,fun i hi _ => ?_,
    fun i hi => ?_⟩
  · simp only [hsame]
  · rw [slots,if_neg h] at hi
    exact absurd hi List.not_mem_nil

theorem bounded (c : Settings) (query : List UInt8) : Bounded c query := by
  by_cases hroom : c.cronJobsN.toNat ≤ cronJobsMax-1
  · have hlt : c.cronJobsN.toNat < cronJobsMax := Nat.lt_of_le_sub_one (by decide) hroom
    obtain ⟨pre,mid,post,htokens⟩ := cut_tokens (query.take (mqttMessageL-1))
    obtain ⟨hcount,hothers,hslots⟩ := foldl_tokens (cutCommandParams (query.take (mqttMessageL-1))).2
      (changeJob c c.cronJobsN.toNat fun _ => emptyJob) htokens
    have hrun : addCronJobFromQuery c query =
        (segments 0x26 (cutCommandParams (query.take (mqttMessageL-1))).1).foldl
          (addKeyValue (cutCommandParams (query.take (mqttMessageL-1))).2)
          (changeJob c c.cronJobsN.toNat fun _ => emptyJob) := if_pos hroom
    have hnext := toNat_next (hlt.trans_le (by decide))
    rw [← hrun] at hcount
    refine ⟨?_,fun _ => ?_,fun i hi hne => ?_,fun i hi => ?_⟩
    · exact hcount.imp id fun heq => by rw [heq]; exact hnext
    · rcases hcount with heq | heq
      · rw [heq]
        exact hlt.le
      · rw [heq]
        exact hnext.trans_le hlt
    · simp only [hrun]
      exact (hothers i hi hne).trans (changeJob_other hi hne)
    · rw [slots,if_pos hroom,List.mem_cons] at hi
      have heq := hi.elim id (hslots i)
      exact ⟨heq,heq ▸ hlt⟩
  · exact addCronJobFromQuery_full hroom query

end Any

theorem fieldText_free {f : Field × List UInt8} (h : Clean f.2) :
    ¬ascii "command=" <:+: fieldText f := by
  rintro ⟨s,t,heq⟩
  have hkey : 0x3d ∉ f.1.key := by cases f.1 <;> decide
  have hcommand : ascii "command=" = ascii "command" ++ [0x3d] := rfl
  have hcount := congrArg (List.count 0x3d) heq
  have hnone : List.count 0x3d (ascii "command") = 0 := by decide
  rw [hcommand,fieldText] at heq hcount
  simp only [List.count_append,List.count_cons_self,List.count_nil,List.count_eq_zero.mpr hkey,
    List.count_eq_zero.mpr h.2.2,hnone] at hcount
  have hs : 0x3d ∉ s := List.count_eq_zero.mp (by omega)
  have hfree : 0x3d ∉ s ++ ascii "command" := fun hmem =>
    (List.mem_append.mp hmem).elim hs (List.count_eq_zero.mp hnone)
  have hcut : (s ++ ascii "command") ++ 0x3d::t = f.1.key ++ 0x3d::f.2 := by simpa using heq
  have hkeys := cut_unique hfree hkey hcut
  have hsuffix : ascii "command" <:+ f.1.key := ⟨s,hkeys⟩
  revert hsuffix
  cases f.1 <;> decide

section Read

variable {fields : List (Field × List UInt8)} {name : List UInt8} {params : Option (List UInt8)}

theorem strstr_fields (h : ∀ f ∈ fields, Clean f.2) (rest : List UInt8) :
    strstr (fieldsText fields ++ rest) (ascii "command=") = strstr rest (ascii "command=") := by
  induction fields with
  | nil => rfl
  | cons f fields ih =>
    rw [List.forall_mem_cons] at h
    have hcut : fieldsText (f::fields) ++ rest = fieldText f ++ 0x26::(fieldsText fields ++ rest) := by
      simp [fieldsText]
    rw [hcut,strstr_skip (fieldText_free h.1) (by decide),ih h.2]

theorem strtok_name (hne : name ≠ []) (hname : Clean name) :
    strtok (name ++ paramsText params) 0x3d = some (name,params.getD []) := by
  cases params with
  | none =>
    rw [paramsText,List.append_nil]
    exact (strtok_token hne hname.2.2 []).2
  | some params => exact (strtok_token hne hname.2.2 params).1

theorem cutCommandParams_queryText (h : Query fields name params) :
    cutCommandParams (queryText fields name params) =
      (fieldsText fields ++ (ascii "command=" ++ name),(params.getD []).take (commandParamsL-1)) := by
  have hhead : strstr (ascii "command=" ++ (name ++ paramsText params)) (ascii "command=") =
      some (ascii "command=" ++ (name ++ paramsText params)) := rfl
  have hfound := (strstr_fields h.values (ascii "command=" ++ (name ++ paramsText params))).trans hhead
  have hdrop : (ascii "command=" ++ (name ++ paramsText params)).drop 8 =
      name ++ paramsText params := rfl
  have hlen : (queryText fields name params).length-
      (ascii "command=" ++ (name ++ paramsText params)).length+8 = (fieldsText fields).length+8 := by
    rw [queryText,List.length_append,Nat.add_sub_cancel]
  have htake : (queryText fields name params).take ((fieldsText fields).length+8) =
      fieldsText fields ++ ascii "command=" := List.take_length_add_append 8
  have hstart : (name ++ paramsText params).takeWhile (· = 0x3d) = [] := by
    obtain ⟨b,bs,rfl⟩ := List.exists_cons_of_ne_nil h.command.1
    have hb : b ≠ 0x3d := ne_of_free h.command.2.2.2 b List.mem_cons_self
    rw [List.cons_append,List.takeWhile_cons_of_neg (by simpa using hb)]
  rw [cutCommandParams]
  rw [show strstr (queryText fields name params) (ascii "command=") = _ from hfound]
  dsimp only
  rw [hdrop,strtok_name h.command.1 h.command.2]
  dsimp only
  rw [hlen,htake,hstart,List.append_nil,List.append_assoc]

theorem key_free (f : Field) : 0x26 ∉ f.key ∧ 0x3d ∉ f.key ∧ f.key ≠ [] ∧ f.key.length ≤ 12 := by
  cases f <;> decide

theorem segments_queryText (h : ∀ f ∈ fields, Clean f.2) (hname : Clean name) :
    segments 0x26 (fieldsText fields ++ (ascii "command=" ++ name)) =
      fields.map fieldText ++ [ascii "command=" ++ name] := by
  induction fields with
  | nil =>
    have hfree : 0x26 ∉ ascii "command=" ++ name := fun hmem =>
      (List.mem_append.mp hmem).elim (by decide) hname.2.1
    have hne : ascii "command=" ++ name ≠ [] := List.append_ne_nil_of_left_ne_nil (by decide) _
    exact segments_token hne (ne_of_free hfree)
  | cons f fields ih =>
    rw [List.forall_mem_cons] at h
    have hcut : fieldsText (f::fields) ++ (ascii "command=" ++ name) =
        fieldText f ++ 0x26::(fieldsText fields ++ (ascii "command=" ++ name)) := by
      simp [fieldsText]
    obtain ⟨hamp,-,hne,-⟩ := key_free f.1
    have hfree : 0x26 ∉ fieldText f := by
      intro hmem
      rcases List.mem_append.mp hmem with hmem | hmem
      · exact hamp hmem
      · exact (List.mem_cons.mp hmem).elim (by decide) h.1.2.1
    have hne' : fieldText f ≠ [] := List.append_ne_nil_of_left_ne_nil hne _
    rw [hcut,segments_cons hne' (ne_of_free hfree),ih h.2]
    rfl

end Read

def Field.write (f : Field) (value : List UInt8) (job : CronJobT) : CronJobT :=
  match f with
  | .minute => { job with minute := cronField job.minute value }
  | .hour => { job with hour := cronField job.hour value }
  | .dayOfMonth => { job with dayOfMonth := cronField job.dayOfMonth value }
  | .month => { job with month := cronField job.month value }
  | .dayOfWeek => { job with dayOfWeek := cronField job.dayOfWeek value }

def writeField (job : CronJobT) (f : Field × List UInt8) : CronJobT :=
  if f.2 = [] then job else f.1.write (f.2.take (keyValueL-1-(f.1.key.length+1))) job

section Write

variable {c : Settings} {params : List UInt8} {fields : List (Field × List UInt8)} {job : CronJobT}

theorem changeJob_id (c : Settings) (i : ℕ) : (changeJob c i fun job => job) = c := by
  have hsame : (modifyJob c.cronJobList i fun job => job) = c.cronJobList :=
    Vector.ext fun k hk => by rw [modifyJob_get hk,ite_self]
  rw [changeJob,hsame]

@[simp] theorem changeJob_cronJobsN (c : Settings) (i : ℕ) (f : CronJobT → CronJobT) :
    (changeJob c i f).cronJobsN = c.cronJobsN := rfl

theorem changeJob_changeJob (c : Settings) (i : ℕ) (f g : CronJobT → CronJobT) :
    changeJob (changeJob c i f) i g = changeJob c i fun job => g (f job) := by
  have hsame : modifyJob (modifyJob c.cronJobList i f) i g =
      modifyJob c.cronJobList i fun job => g (f job) := by
    refine Vector.ext fun k hk => ?_
    rw [modifyJob_get hk,modifyJob_get hk,modifyJob_get hk]
    split_ifs <;> rfl
  rw [changeJob,changeJob,changeJob,hsame]

theorem segments_fieldText {f : Field × List UInt8} (h : Clean f.2) :
    segments 0x3d ((fieldText f).take (keyValueL-1)) =
      if f.2 = [] then [f.1.key] else [f.1.key,f.2.take (keyValueL-1-(f.1.key.length+1))] := by
  obtain ⟨-,hfree,hne,hlen⟩ := key_free f.1
  have htake : (fieldText f).take (keyValueL-1) =
      f.1.key ++ 0x3d::f.2.take (keyValueL-1-(f.1.key.length+1)) := by
    rw [keyValueL,fieldText,List.take_append,List.take_of_length_le (by omega)]
    have hsucc : 64-1-f.1.key.length = 64-1-(f.1.key.length+1)+1 := by omega
    rw [hsucc,List.take_succ_cons]
  rw [htake,segments_cons hne (ne_of_free hfree)]
  split_ifs with hvalue
  · rw [hvalue,List.take_nil,segments_nil]
  · have hvalue' : f.2.take (keyValueL-1-(f.1.key.length+1)) ≠ [] := by
      rw [Ne,List.take_eq_nil_iff,not_or]
      exact ⟨by rw [keyValueL]; omega,hvalue⟩
    rw [segments_token hvalue' (ne_of_free fun hmem => h.2.2 (List.mem_of_mem_take hmem))]

theorem addKeyValue_fieldText {f : Field × List UInt8} (h : Clean f.2) :
    addKeyValue params c (fieldText f) =
      changeJob c c.cronJobsN.toNat fun job => writeField job f := by
  rw [addKeyValue,segments_fieldText h]
  simp only [writeField]
  split_ifs with hvalue
  · exact (changeJob_id c _).symm
  · obtain ⟨f,value⟩ := f
    cases f <;> rfl

theorem foldl_fieldText (c : Settings) (h : ∀ f ∈ fields, Clean f.2) :
    (fields.map fieldText).foldl (addKeyValue params) c =
      changeJob c c.cronJobsN.toNat fun job => fields.foldl writeField job := by
  induction fields generalizing c with
  | nil => exact (changeJob_id c _).symm
  | cons f fields ih =>
    rw [List.forall_mem_cons] at h
    rw [List.map_cons,List.foldl_cons,addKeyValue_fieldText h.1,ih _ h.2]
    exact changeJob_changeJob c _ _ _

theorem addKeyValue_name {name : List UInt8} (hne : name ≠ []) (hname : Clean name) :
    addKeyValue params c (ascii "command=" ++ name) =
      { changeJob c c.cronJobsN.toNat (writeCommand params (name.take 55)) with
        cronJobsN := c.cronJobsN+1 } := by
  have htake : (ascii "command=" ++ name).take (keyValueL-1) =
      ascii "command" ++ 0x3d::name.take 55 := rfl
  have hcut : name.take 55 ≠ [] := by
    rw [Ne,List.take_eq_nil_iff,not_or]
    exact ⟨by decide,hne⟩
  have hkeys : segments 0x3d ((ascii "command=" ++ name).take (keyValueL-1)) =
      [ascii "command",name.take 55] := by
    rw [htake,segments_cons (by decide) (by decide +kernel),
      segments_token hcut (ne_of_free fun hmem => hname.2.2 (List.mem_of_mem_take hmem))]
  rw [addKeyValue,hkeys]
  dsimp only
  rw [if_neg (by decide),if_neg (by decide),if_neg (by decide),if_neg (by decide),
    if_neg (by decide),if_pos rfl]

theorem addCronJobFromQuery_queryText {name : List UInt8} {params : Option (List UInt8)}
    (h : Query fields name params) (hroom : c.cronJobsN.toNat < 16) :
    addCronJobFromQuery c (queryText fields name params) =
      { changeJob c c.cronJobsN.toNat fun _ => writeCommand ((params.getD []).take (commandParamsL-1))
          (name.take 55) (fields.foldl writeField emptyJob) with
        cronJobsN := c.cronJobsN+1 } := by
  have hle : c.cronJobsN.toNat ≤ cronJobsMax-1 := Nat.le_of_lt_succ hroom
  rw [addCronJobFromQuery,if_pos hle]
  dsimp only
  rw [List.take_of_length_le (Nat.le_sub_one_of_lt h.length),cutCommandParams_queryText h]
  dsimp only
  rw [segments_queryText h.values h.command.2,List.foldl_append,foldl_fieldText _ h.values,
    changeJob_cronJobsN,changeJob_changeJob,List.foldl_cons,List.foldl_nil,
    addKeyValue_name h.command.1 h.command.2,changeJob_cronJobsN,changeJob_changeJob]

theorem str_cronField {a : Vector UInt8 8} {value : List UInt8} (h : 0 ∉ value) :
    str (cronField a value) = value.take 7 := by
  rw [cronField,str_strncpy_set (by decide),cstr_self h]

theorem write_of (f k : Field) {value : List UInt8} (h : 0 ∉ value) (job : CronJobT) :
    str (k.of (f.write value job)) = if k = f then value.take 7 else str (k.of job) := by
  by_cases hk : k = f
  · rw [if_pos hk,hk]
    cases f <;> exact str_cronField h
  · rw [if_neg hk]
    cases f <;> cases k <;> first | rfl | exact absurd rfl hk

theorem writeField_of {f : Field × List UInt8} (h : Clean f.2) (hempty : str (f.1.of job) = [])
    (k : Field) :
    str (k.of (writeField job f)) = if k = f.1 then f.2.take 7 else str (k.of job) := by
  obtain ⟨-,-,-,hlen⟩ := key_free f.1
  rw [writeField]
  split_ifs with hvalue hk hk
  · rw [hk,hempty,hvalue,List.take_nil]
  · rfl
  · have hnul : 0 ∉ f.2.take (keyValueL-1-(f.1.key.length+1)) :=
      fun hmem => h.1 (List.mem_of_mem_take hmem)
    rw [write_of _ _ hnul,if_pos hk,List.take_take,Nat.min_eq_left (by rw [keyValueL]; omega)]
  · have hnul : 0 ∉ f.2.take (keyValueL-1-(f.1.key.length+1)) :=
      fun hmem => h.1 (List.mem_of_mem_take hmem)
    rw [write_of _ _ hnul,if_neg hk]

theorem foldl_writeField (job : CronJobT) (honce : (fields.map Prod.fst).Nodup)
    (h : ∀ f ∈ fields, Clean f.2) (hempty : ∀ f ∈ fields, str (f.1.of job) = []) (k : Field) :
    str (k.of (fields.foldl writeField job)) =
      match fields.lookup k with
      | some value => value.take 7
      | none => str (k.of job) := by
  induction fields generalizing job with
  | nil => rfl
  | cons f fields ih =>
    rw [List.forall_mem_cons] at h hempty
    rw [List.map_cons,List.nodup_cons] at honce
    have hstep := writeField_of h.1 hempty.1
    have hrest : ∀ g ∈ fields, str (g.1.of (writeField job f)) = [] := by
      intro g hg
      have hne : g.1 ≠ f.1 := fun heq => honce.1 (heq ▸ List.mem_map_of_mem hg)
      rw [hstep,if_neg hne]
      exact hempty.2 g hg
    rw [List.foldl_cons,ih (writeField job f) honce.2 h.2 hrest,List.lookup_cons]
    by_cases hk : k = f.1
    · have hnone : fields.lookup k = none := by
        rw [List.lookup_eq_none_iff]
        intro g hg
        simpa using fun heq : k = g.1 => honce.1 (hk ▸ heq ▸ List.mem_map_of_mem hg)
      have hbeq : (k == f.1) = true := by simpa using hk
      simp only [hbeq,hnone,hstep,if_pos hk]
    · have hbeq : (k == f.1) = false := by simpa using hk
      simp only [hbeq,hstep,if_neg hk]

theorem emptyJob_of (k : Field) : str (k.of emptyJob) = [] := by
  cases k <;> exact str_zeros 8

theorem writeField_command {f : Field × List UInt8} :
    (writeField job f).commandParams = job.commandParams := by
  rw [writeField]
  split_ifs
  · rfl
  · cases f.1 <;> rfl

theorem foldl_writeField_command (job : CronJobT) :
    (fields.foldl writeField job).commandParams = job.commandParams := by
  induction fields generalizing job with
  | nil => rfl
  | cons f fields ih => rw [List.foldl_cons,ih,writeField_command]

theorem writeCommand_of (k : Field) (name : List UInt8) :
    k.of (writeCommand params name job) = k.of job := by
  cases k <;> rfl

end Write

theorem stored {c : Settings} {fields : List (Field × List UInt8)} {name : List UInt8}
    {params : Option (List UInt8)} (h : Query fields name params)
    (hroom : c.cronJobsN.toNat < 16) :
    Stored (addCronJobFromQuery c (queryText fields name params)).cronJobList[c.cronJobsN.toNat]
      fields name params := by
  have hjob : (addCronJobFromQuery c (queryText fields name params)).cronJobList[c.cronJobsN.toNat] =
      writeCommand ((params.getD []).take (commandParamsL-1)) (name.take 55)
        (fields.foldl writeField emptyJob) := by
    simp only [addCronJobFromQuery_queryText h hroom,changeJob]
    rw [modifyJob_get hroom,if_pos rfl]
  have hparams : 0 ∉ params.getD [] := by
    cases params with
    | none => exact List.not_mem_nil
    | some params => exact h.commandParams params rfl
  rw [hjob]
  refine ⟨fun k => ?_,?_,?_⟩
  · rw [writeCommand_of,foldl_writeField emptyJob h.once h.values fun f _ => emptyJob_of f.1,given,
      emptyJob_of]
    cases fields.lookup k <;> rfl
  · have hnul : 0 ∉ name.take 55 := fun hmem => h.command.2.1 (List.mem_of_mem_take hmem)
    rw [writeCommand,str_strncpy_set (by decide),cstr_self hnul,List.take_take]
    rfl
  · rw [writeCommand]
    dsimp only
    have hnul : 0 ∉ (params.getD []).take (commandParamsL-1) :=
      fun hmem => hparams (List.mem_of_mem_take hmem)
    split_ifs with hnone
    · rw [foldl_writeField_command]
      exact (str_zeros 96).trans hnone.symm
    · rw [str_strncpy_set (by decide),cstr_self hnul,List.take_take]
      rfl

/-- A query of the grammar adds one job with what it gives, as far as the arrays reach; any string
adds at most one job, to the slot that was free, and changes no other one. -/
theorem stored_nothing_else :
    (∀ fields name params, Query fields name params → ∀ c : Settings,
      ∀ hroom : c.cronJobsN.toNat < 16,
      (addCronJobFromQuery c (queryText fields name params)).cronJobsN.toNat =
          c.cronJobsN.toNat+1 ∧
        Stored (addCronJobFromQuery c (queryText fields name params)).cronJobList[c.cronJobsN.toNat]
          fields name params) ∧
      ∀ c query, Bounded c query := by
  refine ⟨fun fields name params h c hroom => ⟨?_,stored h hroom⟩,bounded⟩
  rw [addCronJobFromQuery_queryText h hroom]
  exact toNat_next (hroom.trans_le (by decide))

def noon : List (Field × List UInt8) := [(.hour,ascii "12"),(.minute,ascii "0")]

theorem stored_nothing_else_noon :
    ((addCronJobFromQuery cleared (queryText noon (ascii "open") none)).cronJobsN.toNat =
        cleared.cronJobsN.toNat+1 ∧
      Stored (addCronJobFromQuery cleared (queryText noon (ascii "open")
        none)).cronJobList[cleared.cronJobsN.toNat] noon (ascii "open") none) ∧
      Bounded cleared (ascii "command=open&command=close") := by
  refine ⟨stored_nothing_else.1 noon (ascii "open") none ⟨by decide,?_,?_,?_,by decide⟩ cleared
    (by decide),stored_nothing_else.2 _ _⟩
  · intro f hf
    rcases List.mem_pair.mp hf with rfl | rfl
    · exact ⟨by decide,by decide,by decide⟩
    · exact ⟨by decide,by decide,by decide⟩
  · exact ⟨by decide,by decide,by decide,by decide⟩
  · rintro p ⟨⟩

end CronQuery
end MeterLogger
