import SingBoxAuth.DNSRuleOrder

/-! The client's cache over sequences of calls: EDNS records, and options of one caller that reach
another. -/
namespace SingBoxAuth.DNSExchange
open RouteRule Transitions

variable {A : Type}

def DNSMsg.carriesOPT (response : DNSMsg A) : Bool := response.extra.any DNSRecord.isOPT

lemma leastTTL_congr {records records' : List (DNSRecord A)}
    (h : records.map DNSRecord.ttl = records'.map DNSRecord.ttl) :
    leastTTL records = leastTTL records' := by
  have hma : ∀ l : List (DNSRecord A),leastTTL l = (l.map DNSRecord.ttl).foldl
      (fun ttl r => if ttl = 0 ∨ 0 < r ∧ r < ttl then r else ttl) 0 := by
    intro l
    rw [List.foldl_map]
    rfl
  rw [hma,hma,h]

lemma filterHints_fields (qtype : QueryType) (strategy : DomainStrategy) (response : DNSMsg A) :
    (filterHints qtype strategy response).rcode = response.rcode ∧
      (filterHints qtype strategy response).ns = response.ns ∧
      (filterHints qtype strategy response).extra = response.extra ∧
      (filterHints qtype strategy response).answer.map DNSRecord.ttl =
        response.answer.map DNSRecord.ttl := by
  rw [filterHints]
  split
  · refine ⟨rfl,rfl,rfl,?_⟩
    rw [List.map_map]
    refine List.map_congr_left fun r _ => ?_
    simp only [Function.comp_apply]
    split <;> rfl
  · exact ⟨rfl,rfl,rfl,rfl⟩

lemma timeToLive_filterHints (qtype : QueryType) (strategy : DomainStrategy) (response : DNSMsg A)
    (rewriteTTL : Option ℕ) :
    timeToLive (filterHints qtype strategy response) rewriteTTL = timeToLive response rewriteTTL := by
  obtain ⟨-,hns,he,ha⟩ := filterHints_fields qtype strategy response
  have hem : (filterHints qtype strategy response).answer.isEmpty = response.answer.isEmpty := by
    have hma := congrArg List.isEmpty ha
    rwa [List.isEmpty_map,List.isEmpty_map] at hma
  have hn : extractNegativeTTL (filterHints qtype strategy response) =
      extractNegativeTTL response := by
    rw [extractNegativeTTL,extractNegativeTTL,hns]
  have hr : leastTTL (DNSMsg.records (filterHints qtype strategy response)) =
      leastTTL (DNSMsg.records response) := by
    apply leastTTL_congr
    simp only [DNSMsg.records,List.map_append,hns,he,ha]
  simp only [timeToLive,hem,hn,hr]

lemma leastTTL_spec (records : List (DNSRecord A)) :
    (leastTTL records = 0 ∧ ∀ r ∈ records,r.ttl = 0) ∨
      (∃ r ∈ records,r.ttl = leastTTL records) ∧ 0 < leastTTL records ∧
        ∀ r ∈ records,0 < r.ttl → leastTTL records ≤ r.ttl := by
  induction records using List.reverseRecOn with
  | nil => exact .inl ⟨rfl,by simp⟩
  | append_singleton records r ih =>
    have hs : leastTTL (records ++ [r]) =
        if leastTTL records = 0 ∨ 0 < r.ttl ∧ r.ttl < leastTTL records then r.ttl
        else leastTTL records := by
      rw [leastTTL,List.foldl_append]
      rfl
    simp only [List.mem_append,List.mem_singleton]
    rcases ih with ⟨hz,ha⟩ | ⟨⟨least,hme,hl⟩,hp,hle⟩
    · rw [hs,if_pos (.inl hz)]
      by_cases hr : r.ttl = 0
      · refine .inl ⟨hr,?_⟩
        rintro x (hx | rfl)
        · exact ha x hx
        · exact hr
      · refine .inr ⟨⟨r,.inr rfl,rfl⟩,Nat.pos_of_ne_zero hr,?_⟩
        rintro x (hx | rfl) hx'
        · have := ha x hx
          omega
        · exact le_rfl
    · right
      rw [hs]
      split
      · rename_i hls
        have hr : 0 < r.ttl ∧ r.ttl < leastTTL records := hls.resolve_left (by omega)
        refine ⟨⟨r,.inr rfl,rfl⟩,hr.1,?_⟩
        rintro x (hx | rfl) hx'
        · exact hr.2.le.trans (hle x hx hx')
        · exact le_rfl
      · rename_i hn
        refine ⟨⟨least,.inl hme,hl⟩,hp,?_⟩
        rintro x (hx | rfl) hx'
        · exact hle x hx hx'
        · omega

lemma leastTTL_eq_zero {records : List (DNSRecord A)} (h : ∀ r ∈ records,r.ttl = 0) :
    leastTTL records = 0 := by
  rcases leastTTL_spec records with ⟨hz,-⟩ | ⟨⟨r,hr,hl⟩,-⟩
  · exact hz
  · rw [← hl,h r hr]

lemma timeToLive_eq_zero {response : DNSMsg A} (h : ∀ r ∈ DNSMsg.records response,r.ttl = 0)
    {rewriteTTL : Option ℕ} (hre : rewriteTTL.getD 0 = 0) :
    timeToLive response rewriteTTL = 0 := by
  have hne : (extractNegativeTTL response).getD 0 = 0 := by
    cases hf : extractNegativeTTL response with
    | none => rfl
    | some n =>
      obtain ⟨r,hr,hn⟩ := List.exists_of_findSome?_eq_some hf
      have hz : r.ttl = 0 := h r (by simp [DNSMsg.records,hr])
      split at hn
      · rename_i minttl _
        rw [hz] at hn
        rw [← Option.some.inj hn,Option.getD_some]
        split <;> omega
      · cases hn
  cases rewriteTTL with
  | some ttl => exact hre
  | none => simp [timeToLive,hne,leastTTL_eq_zero h]

lemma carriesOPT_mapTTL (f : ℕ → ℕ) (response : DNSMsg A) :
    DNSMsg.carriesOPT (DNSMsg.mapTTL f response) = DNSMsg.carriesOPT response := by
  rw [DNSMsg.carriesOPT,DNSMsg.mapTTL,List.any_map]
  rfl

lemma carriesOPT_aged (nowTTL : ℕ) (response : DNSMsg A) :
    DNSMsg.carriesOPT (aged nowTTL response) = DNSMsg.carriesOPT response := by
  rw [aged]
  dsimp only
  split <;> exact carriesOPT_mapTTL _ response

lemma edns0_eq_none_iff {response : DNSMsg A} :
    DNSMsg.edns0 response = none ↔ DNSMsg.carriesOPT response = false := by
  simp [DNSMsg.edns0,DNSMsg.carriesOPT]

lemma trimOPT_of_carriesOPT {response : DNSMsg A} (h : DNSMsg.carriesOPT response = false)
    (request : Option ℕ) : trimOPT request response = response := by
  rw [trimOPT,edns0_eq_none_iff.mpr h]

lemma carriesOPT_trimOPT_none (response : DNSMsg A) :
    DNSMsg.carriesOPT (trimOPT none response) = false := by
  rw [trimOPT]
  split
  · rename_i hn
    exact edns0_eq_none_iff.mp hn
  · simp [DNSMsg.carriesOPT]

namespace Client

variable (c : Client)

def usesCache (message : Query) (options : DNSQueryOptions) : Bool :=
  c.isSimpleRequest message options && !c.disableCache && !options.disableCache

def lifetime (options : DNSQueryOptions) (raw : DNSMsg A) : ℕ := timeToLive raw options.rewriteTTL

structure Call (A : Type) where
  server : Tag
  message : Query
  options : DNSQueryOptions
  check : Option (DNSMsg A → Bool)
  weather : Weather A

def perform (cache : Cache A) (call : Call A) : Cache A × Except ClientError (DNSMsg A) :=
  c.exchange cache call.weather call.server call.message call.options call.check

def Step (cache : Cache A) (call : Call A) (cache' : Cache A) : Prop :=
  cache' = (c.perform cache call).1

def untrimmed (call : Call A) (question : Question) (raw : DNSMsg A) : DNSMsg A :=
  DNSMsg.withId call.message.id (DNSMsg.mapTTL (fun _ => lifetime call.options raw)
    (filterHints question.qtype call.options.strategy raw))

def finished (call : Call A) (question : Question) (raw : DNSMsg A) : DNSMsg A :=
  trimOPT (c.requestOPT call.message call.options) (untrimmed call question raw)

lemma rcode_finished (call : Call A) (question : Question) (raw : DNSMsg A) :
    (c.finished call question raw).rcode = raw.rcode :=
  (trimOPT_fields _ _).1.trans (filterHints_fields _ _ raw).1

def ask (before : Cache A) (call : Call A) (question : Question) :
    Cache A × Except ClientError (DNSMsg A) :=
  c.exchangeUpstream before call.weather call.server question call.message.id
    (c.requestOPT call.message call.options) call.options
    (!c.usesCache call.message call.options) call.check

def settle (before : Cache A) (call : Call A) (question : Question) (raw : DNSMsg A) :
    Cache A × Except ClientError (DNSMsg A) :=
  if refuses call.check raw then (before,.error .responseRejected)
  else (if !c.usesCache call.message call.options || !cacheable raw ||
        lifetime call.options raw == 0 then before
      else Function.update before (c.key call.server question)
        (some (c.finished call question raw)),.ok (c.finished call question raw))

lemma deliver_eq_settle (before : Cache A) (call : Call A) (question : Question) (raw : DNSMsg A) :
    c.deliver before call.server question call.message.id
        (c.requestOPT call.message call.options) call.options
        (!c.usesCache call.message call.options) call.check raw =
      c.settle before call question raw := by
  have hca : cacheable (c.finished call question raw) = cacheable raw := by
    simp only [cacheable,rcode_finished]
  have heq : c.deliver before call.server question call.message.id
      (c.requestOPT call.message call.options) call.options
      (!c.usesCache call.message call.options) call.check raw =
    if refuses call.check raw then (before,.error .responseRejected)
    else (if !c.usesCache call.message call.options || !cacheable (c.finished call question raw)
        then before
        else c.storeCache before call.server question (c.finished call question raw)
          (lifetime call.options raw),.ok (c.finished call question raw)) := by
    simp only [deliver,timeToLive_filterHints]
    rfl
  rw [heq,hca,storeCache,settle]
  by_cases hz : lifetime call.options raw = 0 <;>
    cases c.usesCache call.message call.options <;> cases cacheable raw <;> simp [hz]

lemma ask_eq (before : Cache A) (call : Call A) (question : Question) : c.ask before call question =
      if c.usesCache call.message call.options && call.check.isSome && c.rdrc &&
          call.weather.rejectedBefore then (before,.error .responseRejectedCached)
      else match call.weather.reply.response call.message.id with
        | none => (before,.error .failed)
        | some raw => c.settle before call question raw := by
  rw [ask,exchangeUpstream,Bool.not_not]
  simp only [deliver_eq_settle]
  cases call.weather.reply <;> rfl

lemma ask_cases (before : Cache A) (call : Call A) (question : Question) :
    ((call.check = none → call.weather.reply = .failed) ∧
      ∃ err,c.ask before call question = (before,.error err)) ∨
    ∃ raw,call.weather.reply.response call.message.id = some raw ∧ c.ask before call question =
        (if !c.usesCache call.message call.options || !cacheable raw ||
            lifetime call.options raw == 0 then before
          else Function.update before (c.key call.server question)
            (some (c.finished call question raw)),.ok (c.finished call question raw)) := by
  rw [ask_eq]
  split
  · rename_i he
    refine .inl ⟨fun hn => ?_,_,rfl⟩
    simp [hn] at he
  · cases hre : call.weather.reply.response call.message.id with
    | none =>
      refine .inl ⟨fun _ => ?_,_,rfl⟩
      cases hrp : call.weather.reply <;> simp_all [Reply.response]
    | some raw =>
      dsimp only [settle]
      split
      · rename_i hr
        refine .inl ⟨fun hn => ?_,_,rfl⟩
        rw [hn] at hr
        cases hr
      · exact .inr ⟨raw,rfl,rfl⟩

lemma perform_cases (call : Call A) : ((∀ question ∈ call.message.questions.head?,
        strategyRejects question.qtype call.options.strategy = true) ∧ ∃ rcode,∀ cache : Cache A,
      c.perform cache call = (cache,.ok (fixedResponseStatus call.message.id rcode))) ∨
    ∃ question,call.message.questions.head? = some question ∧
      strategyRejects question.qtype call.options.strategy = false ∧ ∀ cache : Cache A,
      (∃ m nowTTL,c.usesCache call.message call.options = true ∧
        cache (c.key call.server question) = some m ∧ call.weather.alive = some nowTTL ∧
        c.perform cache call = (cache,.ok (DNSMsg.withId call.message.id
          (if c.disableExpire then m else aged nowTTL m)))) ∨
      ∃ before,(before = cache ∨ before = Function.update cache (c.key call.server question) none) ∧
        (c.usesCache call.message call.options = true → before (c.key call.server question) = none ∧
            (cache (c.key call.server question) = none ∨ call.weather.alive = none)) ∧
        c.perform cache call = c.ask before call question := by
  obtain ⟨server,message,options,check,w⟩ := call
  have hu : (!c.isSimpleRequest message options || c.disableCache || options.disableCache) =
      !c.usesCache message options := by
    simp [usesCache,Bool.not_and]
  simp only [perform,ask,exchange,hu]
  cases hqu : message.questions with
  | nil => exact .inl ⟨by simp,rcodeFormatError,fun _ => rfl⟩
  | cons question rest =>
    cases hr : strategyRejects question.qtype options.strategy with
    | true => exact .inl ⟨by simp [hr],rcodeSuccess,fun cache => by simp [hr]⟩
    | false =>
      refine .inr ⟨question,rfl,hr,fun cache => ?_⟩
      cases hca : c.usesCache message options with
      | false => exact .inr ⟨cache,.inl rfl,by simp,by simp [hr]⟩
      | true =>
        cases hm : cache (c.key server question) with
        | none =>
          exact .inr ⟨cache,.inl rfl,fun _ => ⟨hm,.inl rfl⟩,by simp [hr,loadResponse,hm]⟩
        | some m =>
          cases ha : w.alive with
          | none =>
            exact .inr ⟨_,.inr rfl,fun _ => ⟨Function.update_self ..,.inr rfl⟩,
              by simp [hr,loadResponse,hm]⟩
          | some nowTTL => exact .inl ⟨m,nowTTL,rfl,rfl,rfl,by simp [hr,loadResponse,hm]⟩

/-! EDNS records. -/

lemma message_of_carriesOPT {reply : Reply A} {id : ℕ} {raw : DNSMsg A}
    (h : reply.response id = some raw) (ho : DNSMsg.carriesOPT raw = true) :
    reply = .message raw := by
  cases reply with
  | message response => exact congrArg Reply.message (Option.some.inj h)
  | rcodeError rcode =>
    obtain rfl := Option.some.inj h
    cases ho
  | failed => cases h

variable {call : Call A} {question : Question} {raw : DNSMsg A}

lemma carriesOPT_untrimmed :
    DNSMsg.carriesOPT (untrimmed call question raw) = DNSMsg.carriesOPT raw := by
  have he := (filterHints_fields question.qtype call.options.strategy raw).2.2.1
  have hma := carriesOPT_mapTTL (fun _ => lifetime call.options raw)
    (filterHints question.qtype call.options.strategy raw)
  refine hma.trans ?_
  rw [DNSMsg.carriesOPT,he,DNSMsg.carriesOPT]

lemma carriesOPT_finished
    (h : c.requestOPT call.message call.options = none ∨ DNSMsg.carriesOPT raw = false) :
    DNSMsg.carriesOPT (c.finished call question raw) = false := by
  rw [finished]
  rcases h with h | h
  · rw [h]
    exact carriesOPT_trimOPT_none _
  · have hu : DNSMsg.carriesOPT (untrimmed call question raw) = false :=
      carriesOPT_untrimmed.trans h
    rw [trimOPT_of_carriesOPT hu]
    exact hu

lemma extra_finished_of_zero (h : ∀ r ∈ DNSMsg.records raw,r.ttl = 0)
    (hl : lifetime call.options raw = 0) {version : ℕ}
    (hv : c.requestOPT call.message call.options = some version) :
    (c.finished call question raw).extra = raw.extra := by
  have he : (untrimmed call question raw).extra = raw.extra := by
    rw [untrimmed,hl]
    change (filterHints question.qtype call.options.strategy raw).extra.map _ = _
    rw [(filterHints_fields _ _ raw).2.2.1]
    conv_rhs => rw [← List.map_id raw.extra]
    refine List.map_congr_left fun r hr => ?_
    have hz : r.ttl = 0 := h r (by simp [DNSMsg.records,hr])
    rw [← hz]
    rfl
  rw [finished,hv,trimOPT]
  split
  · exact he
  · rename_i record hre
    have hz : record.ttl = 0 := by
      have hme := List.mem_of_find?_eq_some hre
      rw [List.mem_reverse,he] at hme
      exact h record (by simp [DNSMsg.records,hme])
    simp only [hz,Nat.zero_div,Nat.zero_mod,Nat.not_lt_zero,if_false]
    exact he

/-- A server's response to a query that was sent with an OPT record has none, or else the query came
with one and no record of the response has a time to live, nor is one written to it. -/
def EDNSSafe (call : Call A) : Prop :=
  ∀ raw, call.weather.reply = .message raw →
    (c.requestOPT call.message call.options).isSome = true → DNSMsg.carriesOPT raw = true →
      call.message.opt.isSome = true ∧ call.options.rewriteTTL.getD 0 = 0 ∧
        ∀ r ∈ DNSMsg.records raw, r.ttl = 0

lemma EDNSSafe.cases (hca : c.EDNSSafe call) {id : ℕ}
    (hra : call.weather.reply.response id = some raw) :
    (c.requestOPT call.message call.options = none ∨ DNSMsg.carriesOPT raw = false) ∨
      call.message.opt.isSome = true ∧ call.weather.reply = .message raw ∧
        lifetime call.options raw = 0 ∧ ∀ r ∈ DNSMsg.records raw,r.ttl = 0 := by
  cases ho : DNSMsg.carriesOPT raw with
  | false => exact .inl (.inr rfl)
  | true =>
    cases hre : c.requestOPT call.message call.options with
    | none => exact .inl (.inl rfl)
    | some version =>
      have hr := message_of_carriesOPT hra ho
      obtain ⟨hs,hrw,hz⟩ := hca raw hr (by rw [hre]; rfl) ho
      exact .inr ⟨hs,hr,timeToLive_eq_zero hz hrw,hz⟩

lemma cache_without_opt {cache : Cache A}
    (hr : Reaches c.Step (fun _ call => c.EDNSSafe call) (fun _ => none) cache) :
    ∀ k m,cache k = some m → DNSMsg.carriesOPT m = false := by
  refine hr.invariant (fun cache => ∀ k m,cache k = some m → DNSMsg.carriesOPT m = false)
    (by simp) ?_
  rintro cache call _ hi rfl hca
  rcases c.perform_cases call with ⟨-,rcode,hf⟩ | ⟨question,-,-,hp⟩
  · rw [hf cache]
    exact hi
  rcases hp cache with ⟨m,nowTTL,-,-,-,heq⟩ | ⟨before,hb,-,heq⟩
  · rw [heq]
    exact hi
  have hi' : ∀ k m,before k = some m → DNSMsg.carriesOPT m = false := by
    rcases hb with rfl | rfl
    · exact hi
    · intro k m hm
      rw [Function.update_apply] at hm
      split at hm
      · cases hm
      · exact hi k m hm
  rw [heq]
  rcases c.ask_cases before call question with ⟨-,err,ha⟩ | ⟨raw,hra,ha⟩
  · rw [ha]
    exact hi'
  · rw [ha]
    dsimp only
    split
    · exact hi'
    · rename_i hs
      intro k m hm
      rw [Function.update_apply] at hm
      split at hm
      · obtain rfl := Option.some.inj hm
        rcases hca.cases c hra with hn | ⟨-,-,hz,-⟩
        · exact c.carriesOPT_finished hn
        · simp [hz] at hs
      · exact hi' k m hm

/-- In every run whose calls meet the condition, a response to a query without OPT record has none,
and an OPT record of the server comes as it was sent. -/
theorem edns_per_request {cache : Cache A}
    (hrun : Reaches c.Step (fun _ call => c.EDNSSafe call) (fun _ => none) cache) (call : Call A)
    (hcall : c.EDNSSafe call) {response : DNSMsg A}
    (h : (c.perform cache call).2 = .ok response) :
    (call.message.opt = none → DNSMsg.carriesOPT response = false) ∧
      ∀ r ∈ response.extra, r.data = .opt false →
        ∃ raw, call.weather.reply = .message raw ∧ r ∈ raw.extra := by
  -- a response without OPT record is as it should be
  have hw : DNSMsg.carriesOPT response = false →
      (call.message.opt = none → DNSMsg.carriesOPT response = false) ∧
        ∀ r ∈ response.extra, r.data = .opt false →
          ∃ raw, call.weather.reply = .message raw ∧ r ∈ raw.extra := by
    intro ho
    refine ⟨fun _ => ho,fun r hr hd => ?_⟩
    have hno := List.any_eq_false.mp ho r hr
    simp [DNSRecord.isOPT,hd] at hno
  rcases c.perform_cases call with ⟨-,rcode,hf⟩ | ⟨question,-,-,hp⟩
  · rw [hf cache] at h
    cases h
    exact hw rfl
  rcases hp cache with ⟨m,nowTTL,-,hm,-,heq⟩ | ⟨before,-,-,heq⟩
  · rw [heq] at h
    cases h
    have ho := c.cache_without_opt hrun _ m hm
    apply hw
    split
    · exact ho
    · exact (carriesOPT_aged nowTTL m).trans ho
  rw [heq] at h
  rcases c.ask_cases before call question with ⟨-,err,ha⟩ | ⟨raw,hra,ha⟩
  · rw [ha] at h
    cases h
  · rw [ha] at h
    cases h
    rcases hcall.cases c hra with hn | ⟨hs,hrp,hl,hz⟩
    · exact hw (c.carriesOPT_finished hn)
    · have hre : ∃ version, c.requestOPT call.message call.options = some version := by
        obtain ⟨version,hv⟩ := Option.isSome_iff_exists.mp hs
        rw [requestOPT,hv]
        split <;> exact ⟨_,rfl⟩
      obtain ⟨version,hv⟩ := hre
      constructor
      · intro hn
        simp [hn] at hs
      · intro r hr _
        rw [c.extra_finished_of_zero hz hl hv] at hr
        exact ⟨raw,hrp,hr⟩

end Client

def cachingClient : Client := ⟨false,false,false,none,false⟩

/-- A call, with the version of its OPT record, that meets an answer with an OPT record. -/
def ednsCall (id : ℕ) (opt : Option ℕ) (ttl : ℕ) : Client.Call ℕ :=
  ⟨"local",⟨id,[addressQuestion],true,opt⟩,plainOptions,none,some 30,false,
    .message ⟨0,rcodeSuccess,[⟨ttl,.a (some 50)⟩],[],[⟨0,.opt false⟩]⟩⟩

/-- A response without times to live comes with its OPT record. -/
theorem edns_per_request_zero :
    ∃ response, (cachingClient.perform (fun _ => none) (ednsCall 7 (some 0) 0)).2 = .ok response ∧
      response.extra = [⟨0,.opt false⟩] ∧ ∀ r ∈ response.extra, r.data = .opt false →
        ∃ raw, (ednsCall 7 (some 0) 0).weather.reply = .message raw ∧ r ∈ raw.extra := by
  have hs : cachingClient.EDNSSafe (ednsCall 7 (some 0) 0) := by
    rintro raw hr - -
    cases hr
    exact ⟨rfl,rfl,by simp [DNSMsg.records]⟩
  exact ⟨_,rfl,rfl,(cachingClient.edns_per_request .start _ hs rfl).2⟩

/-- A query with an OPT record gets the server's record with a time to live written over its
flags, and the next query gets the record from the cache without having one. -/
theorem edns_record_shared : (cachingClient.perform (fun _ => none) (ednsCall 7 (some 0) 60)).2 =
      .ok ⟨7,rcodeSuccess,[⟨60,.a (some 50)⟩],[],[⟨60,.opt false⟩]⟩ ∧
    (cachingClient.perform (cachingClient.perform (fun _ => none) (ednsCall 7 (some 0) 60)).1
      (ednsCall 8 none 60)).2 =
      .ok ⟨8,rcodeSuccess,[⟨30,.a (some 50)⟩],[],[⟨30,.opt false⟩]⟩ :=
  ⟨rfl,rfl⟩

/-! Options of one caller that reach another. -/

def DNSMsg.erased (response : DNSMsg A) : DNSMsg A :=
  DNSMsg.withId 0 (DNSMsg.mapTTL (fun _ => 0) response)

lemma erased_withId (id : ℕ) (response : DNSMsg A) :
    DNSMsg.erased (DNSMsg.withId id response) = DNSMsg.erased response := rfl

lemma mapTTL_mapTTL (f g : ℕ → ℕ) (response : DNSMsg A) :
    DNSMsg.mapTTL f (DNSMsg.mapTTL g response) = DNSMsg.mapTTL (fun ttl => f (g ttl)) response := by
  simp only [DNSMsg.mapTTL,List.map_map]
  rfl

lemma mapTTL_aged (nowTTL : ℕ) (response : DNSMsg A) :
    DNSMsg.mapTTL (fun _ => 0) (aged nowTTL response) = DNSMsg.mapTTL (fun _ => 0) response := by
  rw [aged]
  dsimp only
  split <;> rw [mapTTL_mapTTL]

namespace Client

variable (c : Client)

lemma bind_messageResult {result result' : Except ClientError (DNSMsg A)}
    (h : result.map (DNSMsg.mapTTL fun _ => 0) = result'.map (DNSMsg.mapTTL fun _ => 0)) :
    result.bind messageResult = result'.bind messageResult := by
  have ho : ∀ m : DNSMsg A,messageResult (DNSMsg.mapTTL (fun _ => 0) m) = messageResult m := by
    intro m
    simp only [messageResult,addresses_mapTTL]
    rfl
  have hma : ∀ result : Except ClientError (DNSMsg A),
      (result.map (DNSMsg.mapTTL fun _ => 0)).bind messageResult = result.bind messageResult := by
    intro result
    cases result with
    | error err => rfl
    | ok m => exact ho m
  rw [← hma result,← hma result',h]

/-- The servers answer by the question and the client subnet alone. -/
abbrev Upstream (A : Type) := Question → Option Subnet → Reply A

def subnet (options : DNSQueryOptions) : Option Subnet := options.clientSubnet.or c.clientSubnet

def PlainAnswer (upstream : Upstream A) (question : Question) : Prop :=
  ∀ id raw, (upstream question none).response id = some raw → DNSMsg.carriesOPT raw = false

/-- A call of `Exchange` that uses the cache has no check, and its question is answered without an
OPT record and without regard to the strategy. -/
def ExchangeNeutral (upstream : Upstream A) (call : Call A) : Prop :=
  c.usesCache call.message call.options = true → call.check = none ∧
    ∀ question ∈ call.message.questions.head?, PlainAnswer upstream question ∧
      (question.qtype = .https →
        call.options.strategy ≠ .ipv4Only ∧ call.options.strategy ≠ .ipv6Only)

def Answered (upstream : Upstream A) (call : Call A) : Prop :=
  ∀ question ∈ call.message.questions.head?,
    call.weather.reply = upstream question (c.subnet call.options)

def Backed (upstream : Upstream A) (server : Tag) (cache : Cache A) : Prop :=
  ∀ question m, cache (c.key server question) = some m → c.clientSubnet = none ∧
    ∃ raw, (upstream question none).response 0 = some raw ∧
      DNSMsg.erased m = DNSMsg.erased raw

variable {upstream : Upstream A} {cache : Cache A}

lemma backed_empty (upstream : Upstream A) (server : Tag) :
    c.Backed upstream server fun _ => none :=
  fun _ _ h => by cases h

lemma key_inj {server : Tag} {q q' : Question} (h : c.key server q = c.key server q') : q = q' :=
  (Prod.mk.inj h).2

lemma Backed.erase {server : Tag} (h : c.Backed upstream server cache) (question : Question) :
    c.Backed upstream server (Function.update cache (c.key server question) none) := by
  intro q m hm
  rw [Function.update_apply] at hm
  split at hm
  · cases hm
  · exact h q m hm

lemma Backed.store {server : Tag} {question : Question} {m : DNSMsg A}
    (h : c.Backed upstream server cache) (hs : c.clientSubnet = none)
    (hm : ∃ raw,(upstream question none).response 0 = some raw ∧
      DNSMsg.erased m = DNSMsg.erased raw) :
    c.Backed upstream server (Function.update cache (c.key server question) (some m)) := by
  intro q m' hm'
  rw [Function.update_apply] at hm'
  split at hm'
  · rename_i hk
    obtain rfl := Option.some.inj hm'
    rw [c.key_inj hk]
    exact ⟨hs,hm⟩
  · exact h q m' hm'

lemma response_erased {reply : Reply A} {id : ℕ} {raw : DNSMsg A}
    (h : reply.response id = some raw) :
    ∃ raw',reply.response 0 = some raw' ∧ DNSMsg.erased raw' = DNSMsg.erased raw := by
  cases reply with
  | message response => exact ⟨raw,h,rfl⟩
  | rcodeError rcode =>
    obtain rfl := Option.some.inj h
    exact ⟨_,rfl,rfl⟩
  | failed => cases h

section

variable {server : Tag} {call : Call A} {question : Question} {raw : DNSMsg A}

lemma subnet_of_usesCache (h : c.usesCache call.message call.options = true) :
    c.subnet call.options = none := by
  simp only [usesCache,isSimpleRequest,Bool.and_eq_true,Bool.not_eq_true'] at h
  exact Option.not_isSome_iff_eq_none.mp (by simp [subnet,h.1.1.2])

lemma erased_finished (hn : c.ExchangeNeutral upstream call)
    (hus : c.usesCache call.message call.options = true)
    (hqu : call.message.questions.head? = some question)
    (hp : DNSMsg.carriesOPT raw = false) :
    DNSMsg.erased (c.finished call question raw) = DNSMsg.erased raw ∧
      (c.finished call question raw).id = call.message.id := by
  obtain ⟨-,hh⟩ := (hn hus).2 question hqu
  have hu : DNSMsg.carriesOPT (untrimmed call question raw) = false := carriesOPT_untrimmed.trans hp
  have hhi : filterHints question.qtype call.options.strategy raw = raw := by
    rw [filterHints,if_neg]
    rintro ⟨hqt,hs⟩
    exact hs.elim (hh hqt).1 (hh hqt).2
  rw [finished,trimOPT_of_carriesOPT hu,untrimmed,hhi]
  refine ⟨?_,rfl⟩
  have hma := mapTTL_mapTTL (fun _ => 0) (fun _ => lifetime call.options raw) raw
  rw [erased_withId,DNSMsg.erased,hma,DNSMsg.erased]

lemma ask_snd (before before' : Cache A) (call : Call A) (question : Question) :
    (c.ask before call question).2 = (c.ask before' call question).2 := by
  rw [ask_eq,ask_eq]
  split
  · rfl
  · split
    · rfl
    · simp only [settle]
      split <;> rfl

lemma perform_backed (hn : c.ExchangeNeutral upstream call)
    (ha : c.Answered upstream call) (hb : c.Backed upstream call.server cache) :
    c.Backed upstream call.server (c.perform cache call).1 ∧
      (c.perform cache call).2.map (DNSMsg.mapTTL fun _ => 0) =
        (c.perform (fun _ => none) call).2.map (DNSMsg.mapTTL fun _ => 0) := by
  rcases c.perform_cases call with ⟨-,rcode,hfi⟩ | ⟨question,hqu,-,hp⟩
  · rw [hfi cache,hfi fun _ => none]
    exact ⟨hb,rfl⟩
  -- without entries the server is asked
  obtain ⟨empty,he⟩ : ∃ empty,c.perform (fun _ => none) call = c.ask empty call question := by
    rcases hp fun _ => none with ⟨m,nowTTL,-,hm,-⟩ | ⟨empty,-,-,heq⟩
    · cases hm
    · exact ⟨empty,heq⟩
  rcases hp cache with ⟨m,nowTTL,hu,hm,-,heq⟩ | ⟨before,hbe,-,heq⟩
  · refine ⟨by rw [heq]; exact hb,?_⟩
    obtain ⟨-,raw,hra,her⟩ := hb question m hm
    obtain ⟨hch,hca⟩ := hn hu
    have hr := ha question hqu
    rw [c.subnet_of_usesCache hu] at hr
    rw [heq,he]
    rcases c.ask_cases empty call question with ⟨hfa,-⟩ | ⟨raw',hr',hak⟩
    · rw [← hr,hfa hch] at hra
      cases hra
    · obtain ⟨first,hf,hi⟩ := response_erased hr'
      rw [hr,hra] at hf
      obtain rfl := Option.some.inj hf
      obtain ⟨hfn,hid⟩ := c.erased_finished hn hu hqu ((hca question hqu).1 _ raw' (hr ▸ hr'))
      rw [hak]
      refine congrArg Except.ok ?_
      calc DNSMsg.mapTTL (fun _ => 0) (DNSMsg.withId call.message.id
            (if c.disableExpire then m else aged nowTTL m))
          = DNSMsg.withId call.message.id (DNSMsg.erased m) := by
            split
            · rfl
            · exact congrArg (DNSMsg.withId call.message.id) (mapTTL_aged nowTTL m)
        _ = DNSMsg.withId call.message.id (DNSMsg.erased (c.finished call question raw')) := by
            rw [her,hi,hfn]
        _ = DNSMsg.mapTTL (fun _ => 0) (c.finished call question raw') := by
            rw [← hid]
            rfl
  · have hb' : c.Backed upstream call.server before := by
      rcases hbe with rfl | rfl
      · exact hb
      · exact hb.erase c question
    rw [heq,he]
    refine ⟨?_,congrArg _ (c.ask_snd before empty call question)⟩
    rcases c.ask_cases before call question with ⟨-,err,hak⟩ | ⟨raw,hra,hak⟩
    · rw [hak]
      exact hb'
    · rw [hak]
      dsimp only
      split
      · exact hb'
      · rename_i hst
        have hu : c.usesCache call.message call.options = true := by
          cases hcs : c.usesCache call.message call.options with
          | true => rfl
          | false => simp [hcs] at hst
        have hs := c.subnet_of_usesCache hu
        have hr := ha question hqu
        rw [hs] at hr
        obtain ⟨first,hf,hi⟩ := response_erased (hr ▸ hra)
        have hpl := ((hn hu).2 question hqu).1 _ raw (hr ▸ hra)
        exact hb'.store c (Option.or_eq_none_iff.mp hs).2 ⟨first,hf,
          (c.erased_finished hn hu hqu hpl).1.trans hi.symm⟩

lemma lookupToExchange_backed {name : String} {qtype : QueryType} {options : DNSQueryOptions}
    {check : Option (DNSMsg A → Bool)} {w : Weather A}
    (hr : strategyRejects qtype options.strategy = false) (hqt : qtype ≠ .https)
    (hs : (c.disableCache || options.disableCache) = false → check = none ∧
      options.clientSubnet = none ∧ PlainAnswer upstream ⟨name,qtype,classINET⟩)
    (hre : w.reply = upstream ⟨name,qtype,classINET⟩ (c.subnet options))
    (hb : c.Backed upstream server cache) :
    c.Backed upstream server (c.lookupToExchange cache w server name qtype options check).1 ∧
      (c.lookupToExchange cache w server name qtype options check).2 =
        (c.lookupToExchange (fun _ => none) w server name qtype options check).2 := by
  let call : Call A := ⟨server,⟨0,[⟨name,qtype,classINET⟩],true,none⟩,options,check,w⟩
  have hn : c.ExchangeNeutral upstream call := by
    intro hu
    have hen : (c.disableCache || options.disableCache) = false := by
      simp only [usesCache,Bool.and_eq_true,Bool.not_eq_true'] at hu
      exact Bool.or_eq_false_iff.mpr ⟨hu.1.2,hu.2⟩
    obtain ⟨hch,-,hpl⟩ := hs hen
    refine ⟨hch,fun question hqu => ?_⟩
    obtain rfl := Option.some.inj hqu
    exact ⟨hpl,fun h => absurd h hqt⟩
  have han : c.Answered upstream call := by
    intro question hqu
    obtain rfl := Option.some.inj hqu
    exact hre
  -- the results are those of the call, from the cache or from one without the entry
  have hem : (c.lookupToExchange (fun _ => none) w server name qtype options check).2 =
      (c.perform (fun _ => none) call).2.bind messageResult := by
    simp only [lookupToExchange,loadResponse,ite_self]
    rfl
  have he : ∀ before,c.Backed upstream server before →
      c.lookupToExchange cache w server name qtype options check =
        ((c.perform before call).1,(c.perform before call).2.bind messageResult) →
      c.Backed upstream server (c.lookupToExchange cache w server name qtype options check).1 ∧
      (c.lookupToExchange cache w server name qtype options check).2 =
        (c.lookupToExchange (fun _ => none) w server name qtype options check).2 := by
    intro before hbe heq
    obtain ⟨hk,hsa⟩ := c.perform_backed hn han hbe
    rw [hem,heq]
    exact ⟨hk,bind_messageResult hsa⟩
  cases hd : c.disableCache || options.disableCache with
  | true => exact he cache hb (by simp only [lookupToExchange,hd]; rfl)
  | false =>
    cases hm : cache (c.key server ⟨name,qtype,classINET⟩) with
    | none => exact he cache hb (by simp only [lookupToExchange,hd,loadResponse,hm]; rfl)
    | some m =>
      cases ha : w.alive with
      | none =>
        refine he _ (hb.erase c ⟨name,qtype,classINET⟩) ?_
        simp only [lookupToExchange,hd,loadResponse,hm,ha]
        rfl
      | some nowTTL =>
        obtain ⟨-,hsu,-⟩ := hs hd
        obtain ⟨hcl,-⟩ := hb _ m hm
        obtain ⟨hc,ho⟩ := Bool.or_eq_false_iff.mp hd
        have hp : c.perform cache call =
            (cache,.ok (DNSMsg.withId 0 (if c.disableExpire then m else aged nowTTL m))) := by
          simp [perform,exchange,call,hr,isSimpleRequest,hsu,hcl,hc,ho,loadResponse,hm,ha]
        refine he cache hb ?_
        rw [hp]
        simp only [lookupToExchange,hd,loadResponse,hm,ha]
        rfl

end

inductive AnyCall (A : Type)
  | exchange (message : Query) (options : DNSQueryOptions) (check : Option (DNSMsg A → Bool))
      (weather : Weather A)
  | lookup (name : String) (options : DNSQueryOptions) (check : Option (DNSMsg A → Bool))
      (weather4 weather6 : Weather A)

/-- The cache and the answer a call leaves, with no times to live. -/
def answer (server : Tag) (cache : Cache A) :
    AnyCall A → Cache A × (Except ClientError (DNSMsg A) ⊕ Except ClientError (List A))
  | .exchange message options check w =>
    let exchanged := c.exchange cache w server message options check
    (exchanged.1,.inl (exchanged.2.map (DNSMsg.mapTTL fun _ => 0)))
  | .lookup name options check w4 w6 =>
    let found := c.lookup cache w4 w6 server name options check
    (found.1,.inr found.2)

def AnsweredBy (upstream : Upstream A) (server : Tag) : AnyCall A → Prop
  | .exchange message options check w => c.Answered upstream ⟨server,message,options,check,w⟩
  | .lookup name options _ w4 w6 =>
    w4.reply = upstream ⟨name,.a,classINET⟩ (c.subnet options) ∧
      w6.reply = upstream ⟨name,.aaaa,classINET⟩ (c.subnet options)

/-- A call that uses the cache has no check, no HTTPS question under a strategy that filters its
answer, and meets no OPT record; a lookup that uses the cache has no client subnet. -/
def Neutral (upstream : Upstream A) (server : Tag) : AnyCall A → Prop
  | .exchange message options check w =>
    c.ExchangeNeutral upstream ⟨server,message,options,check,w⟩
  | .lookup name options check _ _ =>
    (c.disableCache || options.disableCache) = false → check = none ∧
      options.clientSubnet = none ∧ PlainAnswer upstream ⟨name,.a,classINET⟩ ∧
      PlainAnswer upstream ⟨name,.aaaa,classINET⟩

/-- The calls on one server whose answers depend on the question and the client subnet. -/
def CallStep (upstream : Upstream A) (server : Tag) (cache : Cache A) (call : AnyCall A)
    (cache' : Cache A) : Prop :=
  c.AnsweredBy upstream server call ∧ cache' = (c.answer server cache call).1

lemma answer_backed {server : Tag} {call : AnyCall A} (hn : c.Neutral upstream server call)
    (ha : c.AnsweredBy upstream server call) (hb : c.Backed upstream server cache) :
    c.Backed upstream server (c.answer server cache call).1 ∧
      (c.answer server cache call).2 = (c.answer server (fun _ => none) call).2 := by
  cases call with
  | exchange message options check w =>
    obtain ⟨hk,hs⟩ := c.perform_backed hn ha hb
    exact ⟨hk,congrArg Sum.inl hs⟩
  | lookup name options check w4 w6 =>
    simp only [answer,lookup]
    generalize hst : (if options.lookupStrategy ≠ .asIS then options.lookupStrategy
      else options.strategy) = strategy
    have ho : ∀ {qtype} {w : Weather A} {cache : Cache A},(qtype = .a ∨ qtype = .aaaa) →
        strategyRejects qtype strategy = false →
        w.reply = upstream ⟨name,qtype,classINET⟩ (c.subnet options) →
        c.Backed upstream server cache →
        c.Backed upstream server (c.lookupToExchange cache w server name qtype
            { options with strategy := strategy } check).1 ∧
          (c.lookupToExchange cache w server name qtype
            { options with strategy := strategy } check).2 =
          (c.lookupToExchange (fun _ => none) w server name qtype
            { options with strategy := strategy } check).2 := by
      intro qtype w cache hqt hr hre hca
      refine c.lookupToExchange_backed hr (by rintro rfl; simp at hqt) ?_ hre hca
      intro hd
      obtain ⟨hch,hsu,hplain4,hplain6⟩ := hn hd
      rcases hqt with rfl | rfl
      · exact ⟨hch,hsu,hplain4⟩
      · exact ⟨hch,hsu,hplain6⟩
    by_cases h4 : strategy = .ipv4Only
    · obtain ⟨hk,hs⟩ := ho (.inl rfl) (by rw [h4]; rfl) ha.1 hb
      simp only [h4,if_true] at hk hs ⊢
      exact ⟨hk,congrArg Sum.inr hs⟩
    by_cases h6 : strategy = .ipv6Only
    · obtain ⟨hk,hs⟩ := ho (.inr rfl) (by rw [h6]; rfl) ha.2 hb
      simp only [h6,if_true,reduceCtorEq,if_false] at hk hs ⊢
      exact ⟨hk,congrArg Sum.inr hs⟩
    simp only [h4,h6,if_false]
    have hfits4 : strategyRejects .a strategy = false := by simp [strategyRejects,h6]
    have hfits6 : strategyRejects .aaaa strategy = false := by simp [strategyRejects,h4]
    obtain ⟨hkept4,hsame4⟩ := ho (.inl rfl) hfits4 ha.1 hb
    obtain ⟨hkept6,hsame6⟩ := ho (.inr rfl) hfits6 ha.2 hkept4
    obtain ⟨hempty4,-⟩ := ho (.inl rfl) hfits4 ha.1 (c.backed_empty upstream server)
    obtain ⟨-,hempty6⟩ := ho (.inr rfl) hfits6 ha.2 hempty4
    rw [hsame4,hsame6,hempty6]
    exact ⟨hkept6,rfl⟩

/-- In every run of calls that meet the condition, a call returns what it would return with an
empty cache, up to the times to live. -/
theorem cached_answer_eq (upstream : Upstream A) (server : Tag) {cache : Cache A}
    (hrun : Reaches (c.CallStep upstream server) (fun _ call => c.Neutral upstream server call)
      (fun _ => none) cache) (call : AnyCall A) (hneutral : c.Neutral upstream server call)
    (hanswered : c.AnsweredBy upstream server call) :
    (c.answer server cache call).2 = (c.answer server (fun _ => none) call).2 := by
  have hb : c.Backed upstream server cache := by
    refine hrun.invariant (c.Backed upstream server) (c.backed_empty upstream server) ?_
    rintro cache call _ hb ⟨hanswered,rfl⟩ hneutral
    exact (c.answer_backed hneutral hanswered hb).1
  exact (c.answer_backed hneutral hanswered hb).2

end Client

/-- A server that answers by the subnet, and HTTPS queries with hints of both families. -/
def subnetUpstream : Client.Upstream ℕ
  | ⟨_,.https,_⟩, _ => .message
    ⟨0,rcodeSuccess,[⟨60,.https [.ipv4Hint [some 50],.ipv6Hint [some 60]]⟩],[],[]⟩
  | _, subnet => .message ⟨0,rcodeSuccess,[⟨60,.a (some (50 + subnet.getD 0))⟩],[],[]⟩

def subnetExchange (id : ℕ) (qtype : QueryType) (strategy : DomainStrategy) : Client.AnyCall ℕ :=
  .exchange ⟨id,[⟨"example.com.",qtype,Client.classINET⟩],true,none⟩
    { plainOptions with strategy := strategy } none
    ⟨some 30,false,subnetUpstream ⟨"example.com.",qtype,Client.classINET⟩ none⟩

def subnetLookup (subnet : Option Subnet) : Client.AnyCall ℕ :=
  .lookup "example.com." { plainOptions with strategy := .ipv4Only, clientSubnet := subnet } none
    ⟨some 30,false,subnetUpstream ⟨"example.com.",.a,Client.classINET⟩ subnet⟩
    ⟨some 30,false,subnetUpstream ⟨"example.com.",.aaaa,Client.classINET⟩ subnet⟩

lemma plainAnswer_subnetUpstream (question : Question) :
    Client.PlainAnswer subnetUpstream question := by
  obtain ⟨name,qtype,qclass⟩ := question
  cases qtype <;> (rintro id raw hr; cases hr; rfl)

/-- A lookup is answered from what a query has left in the cache. -/
theorem cached_answer_eq_lookup :
    (cachingClient.answer "local" (cachingClient.answer "local" (fun _ => none)
      (subnetExchange 7 .a .preferIPv4)).1 (subnetLookup none)).2 =
    (cachingClient.answer "local" (fun _ => none) (subnetLookup none)).2 := by
  have ha : cachingClient.AnsweredBy subnetUpstream "local" (subnetExchange 7 .a .preferIPv4) := by
    rintro question hqu
    obtain rfl := Option.some.inj hqu
    rfl
  have hn : cachingClient.Neutral subnetUpstream "local" (subnetExchange 7 .a .preferIPv4) :=
    fun _ => ⟨rfl,fun question hqu => ⟨plainAnswer_subnetUpstream question,fun _ => by simp⟩⟩
  exact cachingClient.cached_answer_eq subnetUpstream "local"
    (.step .start ⟨ha,rfl⟩ hn) (subnetLookup none)
    (fun _ => ⟨rfl,rfl,plainAnswer_subnetUpstream _,plainAnswer_subnetUpstream _⟩) ⟨rfl,rfl⟩

/-- After an HTTPS query under ipv4_only the hints of the other family stay away from every query,
and a lookup with a client subnet gets the answer of one without. -/
theorem cached_answer_specialised :
    (cachingClient.answer "local" (cachingClient.answer "local" (fun _ => none)
        (subnetExchange 7 .https .ipv4Only)).1 (subnetExchange 8 .https .asIS)).2 =
      .inl (.ok ⟨8,rcodeSuccess,[⟨0,.https [.ipv4Hint [some 50]]⟩],[],[]⟩) ∧
    (cachingClient.answer "local" (fun _ => none) (subnetExchange 8 .https .asIS)).2 =
      .inl (.ok ⟨8,rcodeSuccess,[⟨0,.https [.ipv4Hint [some 50],.ipv6Hint [some 60]]⟩],[],[]⟩) ∧
    (cachingClient.answer "local" (cachingClient.answer "local" (fun _ => none)
        (subnetLookup none)).1 (subnetLookup (some 1))).2 = .inr (.ok [50]) ∧
    (cachingClient.answer "local" (fun _ => none) (subnetLookup (some 1))).2 = .inr (.ok [51]) :=
  ⟨rfl,rfl,rfl,rfl⟩

end SingBoxAuth.DNSExchange
