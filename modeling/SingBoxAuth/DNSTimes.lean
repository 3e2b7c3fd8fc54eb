import SingBoxAuth.DNSCaching

/-! Times to live while time passes: what is returned of a cached message, and for how long. -/
namespace SingBoxAuth.DNSExchange
open RouteRule Transitions

variable {A : Type}

def second : ℕ := 10 ^ 9

def DNSMsg.plainRecords (response : DNSMsg A) : List (DNSRecord A) :=
  (DNSMsg.records response).filter fun r => !DNSRecord.isOPT r

/-- The minimum of the SOA record that `extractNegativeTTL` finds. -/
def soaMinimum (response : DNSMsg A) : Option ℕ :=
  response.ns.findSome? fun r =>
    match r.data with
    | .soa minttl => some minttl
    | _ => none

/-- The original time to live of a record, for answerless responses with the SOA minimum counted. -/
def originalTTL (response : DNSMsg A) (r : DNSRecord A) : ℕ :=
  if response.answer.isEmpty then min r.ttl ((soaMinimum response).getD r.ttl) else r.ttl

/-- A server's message whose times to live are all zero or all positive, and whose negative time to
live is not above that of any record. -/
structure DNSMsg.Regular (response : DNSMsg A) : Prop where
  wire : ∀ r ∈ DNSMsg.records response, r.ttl < 2 ^ 32
  positive : (∃ r ∈ DNSMsg.records response, 0 < r.ttl) →
    ∀ r ∈ DNSMsg.plainRecords response, 0 < originalTTL response r
  negative : response.answer = [] → ∀ n, extractNegativeTTL response = some n →
    ∀ r ∈ DNSMsg.plainRecords response, n ≤ r.ttl

lemma leastTTL_const {records : List (DNSRecord A)} {ttl : ℕ}
    (h : ∀ r ∈ records,r.ttl = ttl) (hne : records ≠ []) : leastTTL records = ttl := by
  rcases leastTTL_spec records with ⟨hz,ha⟩ | ⟨⟨r,hr,hl⟩,-⟩
  · obtain ⟨r,hr⟩ := List.exists_mem_of_ne_nil records hne
    rw [hz,← h r hr,ha r hr]
  · rw [← hl,h r hr]

lemma exists_soa {response : DNSMsg A} {n : ℕ} (h : extractNegativeTTL response = some n) :
    ∃ r ∈ DNSMsg.plainRecords response,∃ minttl,soaMinimum response = some minttl ∧
      n = min r.ttl minttl := by
  have hl : ∀ ns : List (DNSRecord A),(ns.findSome? fun r =>
      match r.data with
      | .soa minttl => some (if r.ttl < minttl then r.ttl else minttl)
      | _ => none) = some n → ∃ r ∈ ns,∃ minttl,r.data = .soa minttl ∧
        (ns.findSome? fun r =>
          match r.data with
          | .soa minttl => some minttl
          | _ => none) = some minttl ∧ n = min r.ttl minttl := by
    intro ns hns
    induction ns with
    | nil => cases hns
    | cons r rest ih =>
      cases hd : r.data with
      | soa minttl =>
        simp only [List.findSome?_cons,hd,Option.some.injEq] at hns
        refine ⟨r,.head _,minttl,hd,by simp [hd],?_⟩
        rw [← hns]
        split <;> omega
      | _ =>
        simp only [List.findSome?_cons,hd] at hns
        obtain ⟨x,hx,minttl,hs,hf,hn⟩ := ih hns
        exact ⟨x,.tail _ hx,minttl,hs,by simpa [List.findSome?_cons,hd] using hf,hn⟩
  obtain ⟨r,hr,minttl,hs,hf,hn⟩ := hl response.ns h
  refine ⟨r,?_,minttl,hf,hn⟩
  simp [DNSMsg.plainRecords,DNSMsg.records,DNSRecord.isOPT,hr,hs]

lemma soaMinimum_of_none {response : DNSMsg A} (h : extractNegativeTTL response = none) :
    soaMinimum response = none := by
  rw [extractNegativeTTL,List.findSome?_eq_none_iff] at h
  rw [soaMinimum,List.findSome?_eq_none_iff]
  intro r hr
  have hn := h r hr
  cases hd : r.data <;> simp_all

lemma timeToLive_le {response : DNSMsg A} (h : DNSMsg.Regular response) :
    ∀ r ∈ DNSMsg.plainRecords response,timeToLive response none ≤ originalTTL response r := by
  intro r hr
  have hme : r ∈ DNSMsg.records response := (List.mem_filter.mp hr).1
  rcases leastTTL_spec (DNSMsg.records response) with ⟨-,hz⟩ | ⟨⟨first,hf,hla⟩,hpo,hle⟩
  · rw [timeToLive_eq_zero hz rfl]
    exact Nat.zero_le _
  have hp := h.positive ⟨first,hf,hla ▸ hpo⟩
  have hrt : 0 < r.ttl := by
    have := hp r hr
    rw [originalTTL] at this
    split at this <;> omega
  have hl := hle r hme hrt
  cases he : response.answer.isEmpty with
  | false => simpa [timeToLive,originalTTL,he] using hl
  | true =>
    cases hne : extractNegativeTTL response with
    | none => simpa [timeToLive,originalTTL,he,hne,soaMinimum_of_none hne] using hl
    | some n =>
      obtain ⟨soa,hso,minttl,hmi,hn⟩ := exists_soa hne
      have hs := hp soa hso
      have hnl := h.negative (List.isEmpty_iff.mp he) n hne r hr
      simp only [originalTTL,he,if_true,hmi,Option.getD_some] at hs ⊢
      have hnp : n ≠ 0 := by omega
      simp only [timeToLive,he,if_true,hne,Option.getD_some,Option.getD_none,hnp,if_false]
      omega

lemma timeToLive_lt {response : DNSMsg A} (h : DNSMsg.Regular response) :
    timeToLive response none < 2 ^ 32 := by
  have hl : leastTTL (DNSMsg.records response) < 2 ^ 32 := by
    rcases leastTTL_spec (DNSMsg.records response) with ⟨hz,-⟩ | ⟨⟨r,hr,hl⟩,-⟩
    · rw [hz]
      decide
    · exact hl ▸ h.wire r hr
  cases he : response.answer.isEmpty with
  | false => simpa [timeToLive,he] using hl
  | true =>
    cases hne : extractNegativeTTL response with
    | none => simpa [timeToLive,he,hne] using hl
    | some n =>
      obtain ⟨soa,hs,minttl,-,hn⟩ := exists_soa hne
      have hso := h.wire soa (List.mem_filter.mp hs).1
      simp only [timeToLive,he,if_true,hne,Option.getD_some,Option.getD_none]
      split <;> omega

/-- What is known of a cached message: the server's message, when it came and how many seconds it
is kept. -/
structure Receipt (A : Type) where
  raw : DNSMsg A
  time : ℕ
  lifetime : ℕ

def Receipt.expireAt (r : Receipt A) : ℕ := r.time + second * r.lifetime

lemma age_add_left {time lifetime now unit : ℕ} (hr : time ≤ now)
    (ha : now ≤ time + unit * lifetime) :
    (time + unit * lifetime - now) / unit ≤ lifetime ∧
      now - time + unit * ((time + unit * lifetime - now) / unit) ≤ unit * lifetime := by
  have hd := Nat.mul_div_le (time + unit * lifetime - now) unit
  exact ⟨Nat.div_le_of_le_mul (by omega),by omega⟩

structure TimedCache (A : Type) where
  cache : Cache A
  receipts : CacheKey → Option (Receipt A)
  now : ℕ

structure TimedCall (A : Type) where
  server : Tag
  message : Query
  options : DNSQueryOptions
  check : Option (DNSMsg A → Bool)
  rejectedBefore : Bool
  reply : Reply A
  time : ℕ

namespace Client

variable (c : Client)

def aliveAt (receipt : Option (Receipt A)) (time : ℕ) : Option ℕ :=
  receipt.bind fun r =>
    if c.disableExpire then some 0
    else if r.expireAt < time then none
    else some ((r.expireAt - time) / second)

def callAt (s : TimedCache A) (t : TimedCall A) : Call A :=
  ⟨t.server,t.message,t.options,t.check,c.aliveAt (t.message.questions.head?.bind fun question =>
    s.receipts (c.key t.server question)) t.time,t.rejectedBefore,t.reply⟩

/-- A call that is not answered from the cache notes what the server said. -/
def receiptsAfter (s : TimedCache A) (t : TimedCall A) : CacheKey → Option (Receipt A) :=
  match t.message.questions.head? with
  | none => s.receipts
  | some question =>
    let key := c.key t.server question
    if !strategyRejects question.qtype t.options.strategy && c.usesCache t.message t.options &&
        ((s.cache key).isNone || (c.aliveAt (s.receipts key) t.time).isNone) then
      Function.update s.receipts key ((t.reply.response t.message.id).map fun raw =>
        ⟨raw,t.time,lifetime t.options raw⟩)
    else s.receipts

def performAt (s : TimedCache A) (t : TimedCall A) :
    TimedCache A × Except ClientError (DNSMsg A) :=
  let performed := c.perform s.cache (c.callAt s t)
  (⟨performed.1,c.receiptsAfter s t,t.time⟩,performed.2)

def StepAt (s : TimedCache A) (t : TimedCall A) (s' : TimedCache A) : Prop :=
  s.now ≤ t.time ∧ s' = (c.performAt s t).1

/-- Cached messages expire, the server's message is regular, and a call that uses the cache writes no
time to live of its own and gets no OPT record for one it has. -/
def TimeSafe (t : TimedCall A) : Prop :=
  c.disableExpire = false ∧
    ∀ raw, t.reply.response t.message.id = some raw → DNSMsg.Regular raw ∧
      (c.usesCache t.message t.options = true → t.options.rewriteTTL = none ∧
        (t.message.opt.isSome = true → DNSMsg.carriesOPT raw = false))

structure Kept (now : ℕ) (m : DNSMsg A) (receipt : Receipt A) : Prop where
  received : receipt.time ≤ now
  ttl : ∀ r ∈ DNSMsg.records m, r.ttl = receipt.lifetime
  positive : 0 < receipt.lifetime
  wire : receipt.lifetime < 2 ^ 32
  short : ∀ r ∈ DNSMsg.plainRecords receipt.raw, receipt.lifetime ≤ originalTTL receipt.raw r

def AllKept (s : TimedCache A) : Prop :=
  ∀ k m, s.cache k = some m → ∃ receipt, s.receipts k = some receipt ∧ Kept s.now m receipt

variable {s : TimedCache A} {t : TimedCall A} {question : Question} {raw : DNSMsg A}

lemma Kept.mono {now now' : ℕ} {m : DNSMsg A} {receipt : Receipt A} (h : Kept now m receipt)
    (hle : now ≤ now') : Kept now' m receipt :=
  ⟨h.received.trans hle,h.ttl,h.positive,h.wire,h.short⟩

lemma Kept.aged {now nowTTL : ℕ} {m : DNSMsg A} {receipt : Receipt A} (h : Kept now m receipt)
    (hl : nowTTL ≤ receipt.lifetime) :
    ∀ r ∈ DNSMsg.records (aged nowTTL m),r.ttl = nowTTL := by
  have hma : ∀ f : ℕ → ℕ,DNSMsg.records (DNSMsg.mapTTL f m) =
      (DNSMsg.records m).map fun r => { r with ttl := f r.ttl } := by
    intro f
    simp [DNSMsg.records,DNSMsg.mapTTL]
  intro r hr
  by_cases he : DNSMsg.records m = []
  · rw [DNSExchange.aged] at hr
    dsimp only at hr
    split at hr <;> simp [hma,he] at hr
  · have hw := h.wire
    rw [DNSExchange.aged,leastTTL_const h.ttl he,if_pos h.positive,hma] at hr
    obtain ⟨x,hx,rfl⟩ := List.mem_map.mp hr
    dsimp only
    rw [h.ttl x hx]
    have hmo : (((receipt.lifetime : ℤ) - nowTTL) % 2 ^ 32) = (receipt.lifetime : ℤ) - nowTTL :=
      Int.emod_eq_of_lt (by omega) (by omega)
    rw [hmo]
    have hb : (receipt.lifetime : ℤ) - (receipt.lifetime - nowTTL) = nowTTL := by omega
    rw [hb,Int.emod_eq_of_lt (by omega) (by omega),Int.toNat_natCast]

lemma plainRecords_withId (id : ℕ) (m : DNSMsg A) :
    DNSMsg.plainRecords (DNSMsg.withId id m) = DNSMsg.plainRecords m := rfl

lemma mem_records_trimOPT {request : Option ℕ} {m : DNSMsg A} {r : DNSRecord A}
    (h : r ∈ DNSMsg.records (trimOPT request m)) :
    r ∈ DNSMsg.records m ∨ request.isSome = true ∧ DNSMsg.carriesOPT m = true ∧
      DNSRecord.isOPT r = true := by
  rw [trimOPT] at h
  split at h
  · exact .inl h
  · rename_i record hr
    have hca : DNSMsg.carriesOPT m = true := by
      by_contra hn
      rw [edns0_eq_none_iff.mpr (by simpa using hn)] at hr
      cases hr
    cases request with
    | none =>
      simp only [DNSMsg.records,List.mem_append,List.mem_filter] at h ⊢
      tauto
    | some version =>
      dsimp only at h
      split at h
      · simp only [DNSMsg.records,List.mem_append,List.mem_filter,List.mem_singleton] at h ⊢
        rcases h with h | h | rfl
        · tauto
        · tauto
        · exact .inr ⟨rfl,hca,rfl⟩
      · exact .inl h

lemma ttl_finished (call : Call A) (question : Question) {raw : DNSMsg A} {r : DNSRecord A}
    (h : r ∈ DNSMsg.records (c.finished call question raw)) :
    r.ttl = lifetime call.options raw ∨
      (c.requestOPT call.message call.options).isSome = true ∧ DNSMsg.carriesOPT raw = true ∧
        DNSRecord.isOPT r = true := by
  rcases mem_records_trimOPT h with hr | ⟨hre,hca,ho⟩
  · simp only [untrimmed,DNSMsg.records,DNSMsg.withId,DNSMsg.mapTTL,← List.map_append,
      List.mem_map] at hr
    obtain ⟨x,-,rfl⟩ := hr
    exact .inl rfl
  · exact .inr ⟨hre,carriesOPT_untrimmed.symm.trans hca,ho⟩

lemma requestOPT_of_usesCache {message : Query} {options : DNSQueryOptions}
    (h : c.usesCache message options = true) : c.requestOPT message options = message.opt := by
  simp only [usesCache,isSimpleRequest,Bool.and_eq_true,Bool.not_eq_true'] at h
  simp [requestOPT,h.1.1.2]

lemma kept_finished (hsa : c.TimeSafe t) (hu : c.usesCache t.message t.options = true)
    (hra : t.reply.response t.message.id = some raw) (hs : lifetime t.options raw ≠ 0) :
    Kept t.time (c.finished (c.callAt s t) question raw) ⟨raw,t.time,lifetime t.options raw⟩ := by
  obtain ⟨hrg,hcc⟩ := hsa.2 raw hra
  obtain ⟨hrw,ho⟩ := hcc hu
  have hl : lifetime t.options raw = timeToLive raw none := by rw [lifetime,hrw]
  refine ⟨le_rfl,fun r hr => ?_,Nat.pos_of_ne_zero hs,?_,?_⟩
  · rcases c.ttl_finished (c.callAt s t) question hr with ht | ⟨hre,hca,-⟩
    · exact ht
    · change (c.requestOPT t.message t.options).isSome = true at hre
      rw [c.requestOPT_of_usesCache hu] at hre
      rw [ho hre] at hca
      cases hca
  · change lifetime t.options raw < 2 ^ 32
    rw [hl]
    exact timeToLive_lt hrg
  · change ∀ r ∈ DNSMsg.plainRecords raw,lifetime t.options raw ≤ originalTTL raw r
    rw [hl]
    exact timeToLive_le hrg

lemma receiptsAfter_of_question (hqu : t.message.questions.head? = some question) :
    c.receiptsAfter s t =
      if !strategyRejects question.qtype t.options.strategy && c.usesCache t.message t.options &&
          ((s.cache (c.key t.server question)).isNone || (c.callAt s t).weather.alive.isNone) then
        Function.update s.receipts (c.key t.server question)
          ((t.reply.response t.message.id).map fun raw => ⟨raw,t.time,lifetime t.options raw⟩)
      else s.receipts := by
  simp only [receiptsAfter,callAt,hqu,Option.bind_some]

lemma allKept_performAt (hsf : c.TimeSafe t) (ht : s.now ≤ t.time) (hke : AllKept s) :
    AllKept (c.performAt s t).1 := by
  have hmo : ∀ k m,s.cache k = some m →
      ∃ receipt,s.receipts k = some receipt ∧ Kept t.time m receipt := by
    intro k m hm
    obtain ⟨receipt,hrc,hk⟩ := hke k m hm
    exact ⟨receipt,hrc,hk.mono ht⟩
  suffices h : ∀ k m,(c.perform s.cache (c.callAt s t)).1 k = some m →
      ∃ receipt,c.receiptsAfter s t k = some receipt ∧ Kept t.time m receipt from h
  rcases c.perform_cases (c.callAt s t) with ⟨hre,rcode,hf⟩ | ⟨question,hqu,hre,hp⟩
  · have hsa : c.receiptsAfter s t = s.receipts := by
      cases hqu : t.message.questions.head? with
      | none => rw [receiptsAfter,hqu]
      | some question =>
        have hs : strategyRejects question.qtype t.options.strategy = true := hre question hqu
        rw [c.receiptsAfter_of_question hqu,hs]
        rfl
    rw [hf,hsa]
    exact hmo
  have hr := c.receiptsAfter_of_question (s := s) (t := t) hqu
  have hs : strategyRejects question.qtype t.options.strategy = false := hre
  rcases hp s.cache with ⟨m,nowTTL,hu,hm,hal,heq⟩ | ⟨before,hb,hak,heq⟩
  · have hsa : c.receiptsAfter s t = s.receipts := by
      rw [hr,hal]
      change s.cache (c.key t.server question) = some m at hm
      rw [hm]
      simp
    rw [heq,hsa]
    exact hmo
  -- an entry of the cache before the server is asked
  have hold : ∀ k m,before k = some m → s.cache k = some m := by
    rcases hb with rfl | rfl
    · exact fun _ _ h => h
    · intro k m hm
      rw [Function.update_apply] at hm
      split at hm
      · cases hm
      · exact hm
  rw [heq]
  cases hu : c.usesCache t.message t.options with
  | false =>
    have hca : (c.ask before (c.callAt s t) question).1 = before := by
      rcases c.ask_cases before (c.callAt s t) question with ⟨-,err,ha⟩ | ⟨raw,-,ha⟩
      · rw [ha]
      · change c.usesCache (c.callAt s t).message (c.callAt s t).options = false at hu
        rw [ha,hu]
        rfl
    rw [hca,hr,hu]
    intro k m hm
    simpa using hmo k m (hold k m hm)
  | true =>
    obtain ⟨hno,hcu⟩ := hak hu
    have hco : ((s.cache (c.key t.server question)).isNone ||
        (c.callAt s t).weather.alive.isNone) = true := by
      rcases hcu with h | h
      · change s.cache (c.key t.server question) = none at h
        simp [h]
      · simp [h]
    rw [hr,hs,hu,hco]
    simp only [Bool.not_false,Bool.and_self,if_true]
    have ho : ∀ k m,k ≠ c.key t.server question → before k = some m →
        ∃ receipt,Function.update s.receipts (c.key t.server question)
          ((t.reply.response t.message.id).map fun raw => ⟨raw,t.time,lifetime t.options raw⟩) k =
            some receipt ∧ Kept t.time m receipt := by
      intro k m hk hm
      rw [Function.update_of_ne hk]
      exact hmo k m (hold k m hm)
    have hn : ∀ k m,before k = some m → k ≠ c.key t.server question := by
      rintro k m hm rfl
      exact absurd (hno.symm.trans hm) (by simp)
    rcases c.ask_cases before (c.callAt s t) question with ⟨-,err,ha⟩ | ⟨raw,hra,ha⟩
    · rw [ha]
      exact fun k m hm => ho k m (hn k m hm) hm
    · rw [ha]
      dsimp only
      split
      · exact fun k m hm => ho k m (hn k m hm) hm
      · rename_i hst
        have hl : lifetime t.options raw ≠ 0 := by
          intro hz
          change lifetime (c.callAt s t).options raw = 0 at hz
          simp [hz] at hst
        intro k m hm
        by_cases hk : k = c.key t.server question
        · subst hk
          change Function.update before (c.key t.server question) _ _ = some m at hm
          rw [Function.update_self] at hm
          obtain rfl := Option.some.inj hm
          change t.reply.response t.message.id = some raw at hra
          rw [Function.update_self,hra]
          exact ⟨_,rfl,c.kept_finished hsf hu hra hl⟩
        · have hm' : before k = some m := (Function.update_of_ne hk ..).symm.trans hm
          exact ho k m hk hm'

lemma alive_callAt (hqu : t.message.questions.head? = some question) {receipt : Receipt A}
    (hr : s.receipts (c.key t.server question) = some receipt) :
    (c.callAt s t).weather.alive = c.aliveAt (some receipt) t.time := by
  simp only [callAt,hqu,Option.bind_some,hr]

lemma left_of_aliveAt (hex : c.disableExpire = false) {receipt : Receipt A} {time nowTTL : ℕ}
    (hr : receipt.time ≤ time) (h : c.aliveAt (some receipt) time = some nowTTL) :
    nowTTL ≤ receipt.lifetime ∧
      time - receipt.time + second * nowTTL ≤ second * receipt.lifetime := by
  simp only [aliveAt,Option.bind_some,hex,Bool.false_eq_true,if_false] at h
  by_cases he : receipt.expireAt < time
  · rw [if_pos he] at h
    cases h
  · rw [if_neg he,Option.some.injEq] at h
    rw [Receipt.expireAt] at h he
    rw [← h]
    exact age_add_left hr (Nat.not_lt.mp he)

end Client

/-- A query at some time, answered with addresses of some times to live. -/
def timedCall (id : ℕ) (ttls : List ℕ) (time : ℕ) : TimedCall ℕ :=
  ⟨"local",⟨id,[addressQuestion],true,none⟩,plainOptions,none,false,
    .message ⟨0,rcodeSuccess,ttls.map fun ttl => ⟨ttl,.a (some 50)⟩,[],[]⟩,time⟩

def emptyTimedCache : TimedCache ℕ := ⟨fun _ => none,fun _ => none,0⟩

end SingBoxAuth.DNSExchange
