import SingBoxAuth.DNSCaching

/-! The cache of rejected responses. An entry says that some rule rejected a server's response; it
names the server and the question's name and type. -/
namespace SingBoxAuth.DNSExchange
open RouteRule

variable {F A : Type}

abbrev RDRC := Tag × String × QueryType → Bool

def rejectedNow {R : Type} : Except ClientError R → Bool
  | .error .responseRejected => true
  | _ => false

/-- The calls of `Exchange` the router makes for one query, of servers that always give the same
reply; no cached message is served. -/
structure Inquiry (F A : Type) where
  router : Router F A
  reply : Tag → Question → Reply A
  metadata : InboundContext F A
  message : Query
  options : DNSQueryOptions

namespace Inquiry

variable (i : Inquiry F A)

def question : Question := i.message.questions.headD ⟨"",.a,Client.classINET⟩

def key (server : Tag) : Tag × String × QueryType := (server,i.question.name,i.question.qtype)

def check (rule : RoutedRule F A) : Option (DNSMsg A → Bool) :=
  addressLimitResponseCheck rule.rule (forRule i.metadata)

def exchange (c : Client) (rdrc : RDRC) (server : Tag) (options : DNSQueryOptions)
    (check : Option (DNSMsg A → Bool)) : Except ClientError (DNSMsg A) :=
  (c.exchange (fun _ => none) ⟨none,rdrc (i.key server),i.reply server i.question⟩ server i.message
    (i.router.withDefaultStrategy options) check).2

/-- The entries after an exchange: one is saved for a response that is rejected, where the query
could have been cached. -/
def saved (c : Client) (rdrc : RDRC) (server : Tag) (options : DNSQueryOptions)
    (check : Option (DNSMsg A → Bool)) : RDRC :=
  if c.rdrc && c.usesCache i.message (i.router.withDefaultStrategy options) &&
      ((i.reply server i.question).response i.message.id).any Client.cacheable &&
      rejectedNow (i.exchange c rdrc server options check) then
    Function.update rdrc (i.key server) true
  else rdrc

/-- The loop of `Exchange` with a client that may remember rejected responses. -/
def exchangeFrom (c : Client) (rdrc : RDRC) (rules : List (RoutedRule F A)) :
    RDRC × Outcome F A (DNSMsg A) :=
  match h : i.router.matchDNS i.metadata true (isAddressQuery i.message) rules i.options with
  | .default options =>
    (rdrc,⟨none,clientResult (i.exchange c rdrc i.router.defaultServer options none)⟩)
  | .reject rule drop =>
    (rdrc,⟨some rule,if drop then .error .drop
      else .ok (fixedResponseStatus i.message.id rcodeRefused)⟩)
  | .predefined rule rcode answer ns extra =>
    (rdrc,⟨some rule,.ok ⟨i.message.id,rcode,answer,ns,extra⟩⟩)
  | .route rule server options rest =>
    let result := i.exchange c rdrc server options (i.check rule)
    let rdrc' := i.saved c rdrc server options (i.check rule)
    if (i.check rule).isSome && rejected result then exchangeFrom c rdrc' rest
    else (rdrc',⟨some rule,clientResult result⟩)
termination_by rules.length
decreasing_by exact i.router.matchDNS_rest h

def answer (c : Client) (rdrc : RDRC) : RDRC × Outcome F A (DNSMsg A) :=
  if i.message.questions.length ≠ 1 then
    (rdrc,⟨none,.ok (fixedResponseStatus i.message.id rcodeFormatError)⟩)
  else
    match i.options.transport with
    | some server => (rdrc,⟨none,clientResult (i.exchange c rdrc server i.options none)⟩)
    | none => i.exchangeFrom c rdrc i.router.rules

def Limits (rule : RoutedRule F A) (server : Tag) : Prop :=
  rule ∈ i.router.rules ∧ rule.rule.withAddressLimit = true ∧
    rule.rule.legacyPreMatch (forRule i.metadata) = true ∧ ∃ o, rule.action = .route server o

def Rejects (rule : RoutedRule F A) (server : Tag) : Prop :=
  ∃ raw, (i.reply server i.question).response i.message.id = some raw ∧
    Client.refuses (i.check rule) raw = true

/-- The rules that are asked about a server's response agree to reject it, where one of them does or
an entry says so. -/
def RejectsAlike (rdrc : RDRC) : Prop :=
  ∀ server, (rdrc (i.key server) = true ∨ ∃ rule, i.Limits rule server ∧ i.Rejects rule server) →
    ∀ rule, i.Limits rule server → i.Rejects rule server

end Inquiry

def Client.forgetful (c : Client) : Client := { c with rdrc := false }

lemma Client.settle_snd (c : Client) (before : Cache A) (call : Client.Call A) (question : Question)
    (raw : DNSMsg A) :
    (c.settle before call question raw).2 = if refuses call.check raw then .error .responseRejected
      else .ok (c.finished call question raw) := by
  rw [settle]
  split <;> rfl

namespace Inquiry

variable (i : Inquiry F A) {c : Client} {rdrc : RDRC} {server : Tag} {options : DNSQueryOptions}
  {check : Option (DNSMsg A → Bool)}

def call (rdrc : RDRC) (server : Tag) (options : DNSQueryOptions)
    (check : Option (DNSMsg A → Bool)) : Client.Call A :=
  ⟨server,i.message,i.router.withDefaultStrategy options,check,none,rdrc (i.key server),
    i.reply server i.question⟩

def verdict (entry : Bool) (check : Option (DNSMsg A → Bool)) (finish : DNSMsg A → DNSMsg A)
    (response : Option (DNSMsg A)) : Except ClientError (DNSMsg A) :=
  if entry then .error .responseRejectedCached
  else match response with
    | none => .error .failed
    | some raw => if Client.refuses check raw then .error .responseRejected else .ok (finish raw)

lemma ask_verdict (d : Client) (before : Cache A) (entry : Bool) (question : Question)
    (rdrc : RDRC) :
    (if entry then (before,Except.error ClientError.responseRejectedCached)
      else match (i.reply server i.question).response i.message.id with
        | none => (before,.error .failed)
        | some raw => d.settle before (i.call rdrc server options check) question raw).2 =
      verdict entry check (d.finished (i.call rdrc server options check) question)
        ((i.reply server i.question).response i.message.id) := by
  cases entry with
  | true => rfl
  | false =>
    cases (i.reply server i.question).response i.message.id with
    | none => rfl
    | some raw => exact d.settle_snd before (i.call rdrc server options check) question raw

lemma exchange_eq (c : Client) (server : Tag) (options : DNSQueryOptions)
    (check : Option (DNSMsg A → Bool)) :
    (∃ response,∀ remembers rdrc,
      i.exchange { c with rdrc := remembers } rdrc server options check = .ok response) ∨
    ∃ finish,∀ remembers rdrc,i.exchange { c with rdrc := remembers } rdrc server options check =
      verdict (c.usesCache i.message (i.router.withDefaultStrategy options) && check.isSome &&
        remembers && rdrc (i.key server)) check finish
        ((i.reply server i.question).response i.message.id) := by
  cases hqu : i.message.questions with
  | nil =>
    refine .inl ⟨fixedResponseStatus i.message.id rcodeFormatError,fun remembers rdrc => ?_⟩
    simp only [exchange,Client.exchange,hqu]
  | cons question rest =>
    cases hr : strategyRejects question.qtype (i.router.withDefaultStrategy options).strategy with
    | true =>
      refine .inl ⟨fixedResponseStatus i.message.id rcodeSuccess,fun remembers rdrc => ?_⟩
      simp only [exchange,Client.exchange,hqu,hr]
      rfl
    | false =>
      refine .inr ⟨c.finished (i.call (fun _ => false) server options check) question,
        fun remembers rdrc => ?_⟩
      set d : Client := { c with rdrc := remembers }
      rcases d.perform_cases (i.call rdrc server options check) with ⟨ha,-⟩ | ⟨question',hqe,-,hp⟩
      · have ho := ha question (by rw [call,hqu]; rfl)
        exact absurd (ho.symm.trans hr) (by simp)
      · have hs : question = question' := by
          rw [call,hqu] at hqe
          exact Option.some.inj hqe
        subst hs
        rcases hp fun _ => none with ⟨m,nowTTL,-,hm,-⟩ | ⟨before,-,-,heq⟩
        · cases hm
        · have hak : i.exchange d rdrc server options check =
              (d.ask before (i.call rdrc server options check) question).2 :=
            congrArg Prod.snd heq
          rw [hak,Client.ask_eq]
          exact ask_verdict i d before _ question rdrc

lemma exchange_agrees (c : Client) (rdrc rdrc' : RDRC) (server : Tag) (options : DNSQueryOptions)
    (check : Option (DNSMsg A → Bool))
    (he : rdrc (i.key server) = true → check.isSome = true →
      ∃ raw,(i.reply server i.question).response i.message.id = some raw ∧
        Client.refuses check raw = true) :
    i.exchange c rdrc server options check = i.exchange c.forgetful rdrc' server options check ∨
    check.isSome = true ∧ rejected (i.exchange c rdrc server options check) = true ∧
      rejected (i.exchange c.forgetful rdrc' server options check) = true := by
  rcases i.exchange_eq c server options check with ⟨response,hr⟩ | ⟨finish,hv⟩
  · exact .inl ((hr c.rdrc rdrc).trans (hr false rdrc').symm)
  · rw [hv c.rdrc rdrc,Client.forgetful,hv false rdrc',Bool.and_false,Bool.false_and]
    cases hon : c.usesCache i.message (i.router.withDefaultStrategy options) && check.isSome &&
        c.rdrc && rdrc (i.key server) with
    | false => exact .inl rfl
    | true =>
      simp only [Bool.and_eq_true] at hon
      obtain ⟨raw,hra,hre⟩ := he hon.2 hon.1.1.2
      simp only [verdict,hra,hre]
      exact .inr ⟨hon.1.1.2,rfl,rfl⟩

lemma exchange_unchecked (c : Client) (rdrc rdrc' : RDRC) :
    i.exchange c rdrc server options none = i.exchange c.forgetful rdrc' server options none := by
  rcases i.exchange_agrees c rdrc rdrc' server options none (fun _ hs => by cases hs) with
    hsa | hch
  · exact hsa
  · cases hch.1

lemma refuses_of_rejectedNow (h : rejectedNow (i.exchange c rdrc server options check) = true) :
    ∃ raw,(i.reply server i.question).response i.message.id = some raw ∧
      Client.refuses check raw = true := by
  rcases i.exchange_eq c server options check with ⟨response,hr⟩ | ⟨finish,hv⟩
  · rw [hr c.rdrc rdrc] at h
    cases h
  · rw [hv c.rdrc rdrc] at h
    unfold verdict at h
    split at h
    · cases h
    · split at h
      · cases h
      · rename_i raw hra
        split at h
        · exact ⟨raw,hra,‹_›⟩
        · cases h

lemma check_isSome {rule : RoutedRule F A} :
    (i.check rule).isSome = true ↔ rule.rule.withAddressLimit = true := by
  rw [check,addressLimitResponseCheck]
  split <;> simp_all

lemma rejectsAlike_saved {rule : RoutedRule F A} (h : i.RejectsAlike rdrc)
    (hl : (i.check rule).isSome = true → i.Limits rule server) :
    i.RejectsAlike (i.saved c rdrc server options (i.check rule)) := by
  intro other ho
  refine h other ?_
  rcases ho with he | hru
  · rw [saved] at he
    split at he
    · rename_i hsa
      obtain ⟨raw,hra,hr⟩ := i.refuses_of_rejectedNow (Bool.and_eq_true_iff.mp hsa).2
      by_cases hk : i.key other = i.key server
      · have hs : other = server := congrArg Prod.fst hk
        have hso : (i.check rule).isSome = true := by
          cases hch : i.check rule with
          | none => simp [hch,Client.refuses] at hr
          | some => rfl
        rw [hs]
        exact .inr ⟨rule,hl hso,raw,hra,hr⟩
      · rw [Function.update_of_ne hk] at he
        exact .inl he
    · exact .inl he
  · exact .inr hru

lemma exchangeFrom_route {rules rest : List (RoutedRule F A)} {rule : RoutedRule F A}
    (h : i.router.matchDNS i.metadata true (isAddressQuery i.message) rules i.options =
      .route rule server options rest) (c : Client) (rdrc : RDRC) :
    i.exchangeFrom c rdrc rules =
      if (i.check rule).isSome && rejected (i.exchange c rdrc server options (i.check rule)) then
        i.exchangeFrom c (i.saved c rdrc server options (i.check rule)) rest
      else (i.saved c rdrc server options (i.check rule),
        ⟨some rule,clientResult (i.exchange c rdrc server options (i.check rule))⟩) := by
  rw [exchangeFrom]
  split
  · simp_all
  · simp_all
  · simp_all
  · rename_i hr
    rw [h] at hr
    cases hr
    rfl

lemma exchangeFrom_end {rules : List (RoutedRule F A)}
    (h : ∀ rule server options rest,i.router.matchDNS i.metadata true (isAddressQuery i.message)
      rules i.options ≠ .route rule server options rest) (c : Client) (rdrc rdrc' : RDRC) :
    (i.exchangeFrom c rdrc rules).2 = (i.exchangeFrom c.forgetful rdrc' rules).2 := by
  rw [exchangeFrom,exchangeFrom]
  split
  · rename_i options hd
    rw [i.exchange_unchecked c rdrc rdrc']
  · rfl
  · rfl
  · rename_i hr
    exact absurd hr (h _ _ _ _)

lemma exchangeFrom_agrees (c : Client) (rdrc' : RDRC) {rules : List (RoutedRule F A)}
    (hru : rules ⊆ i.router.rules) (h : i.RejectsAlike rdrc) :
    (i.exchangeFrom c rdrc rules).2 = (i.exchangeFrom c.forgetful rdrc' rules).2 := by
  induction hn : rules.length using Nat.strong_induction_on generalizing rules rdrc rdrc' with
  | _ n ih =>
    by_cases hr : ∃ rule server options rest,i.router.matchDNS i.metadata true
        (isAddressQuery i.message) rules i.options = .route rule server options rest
    · obtain ⟨rule,server,options,rest,hr⟩ := hr
      have hrt : rest ⊆ i.router.rules := fun x hx =>
        hru ((i.router.matchDNS_suffix hr).subset (.tail _ hx))
      have hl : (i.check rule).isSome = true → i.Limits rule server := by
        intro hs
        have hf := i.router.matchDNS_from i.metadata true (isAddressQuery i.message)
          (fun _ => True) rules (fun _ _ _ _ => trivial) i.options trivial
        rw [hr] at hf
        exact ⟨hru hf.1,i.check_isSome.mp hs,hf.2.1,hf.2.2.1⟩
      have hsa : i.RejectsAlike (i.saved c rdrc server options (i.check rule)) :=
        i.rejectsAlike_saved h hl
      have hne := ih rest.length (hn ▸ i.router.matchDNS_rest hr)
        (i.saved c.forgetful rdrc' server options (i.check rule)) hrt hsa rfl
      have hrs := i.exchange_agrees c rdrc rdrc' server options (i.check rule)
        fun he hs => h server (.inl he) rule (hl hs)
      rw [i.exchangeFrom_route hr,i.exchangeFrom_route hr]
      rcases hrs with hsm | ⟨hs,hre,hr'⟩
      · rw [hsm]
        split
        · exact hne
        · rfl
      · rw [hs,hre,hr']
        exact hne
    · exact i.exchangeFrom_end (fun rule server options rest heq =>
        hr ⟨rule,server,options,rest,heq⟩) c rdrc rdrc'

lemma answer_agrees (c : Client) (rdrc' : RDRC) (h : i.RejectsAlike rdrc) :
    (i.answer c rdrc).2 = (i.answer c.forgetful rdrc').2 := by
  rw [answer,answer]
  split
  · rfl
  · split
    · rw [i.exchange_unchecked c rdrc rdrc']
    · exact i.exchangeFrom_agrees c rdrc' (List.Subset.refl _) h

end Inquiry

/-- A query, and what happens to the entries before it: entries expire, are lost, or are saved by
lookups. -/
structure Turn (F A : Type) extends Inquiry F A where
  meanwhile : RDRC → RDRC

def outcomes (c : Client) : RDRC → List (Turn F A) → List (Outcome F A (DNSMsg A))
  | _, [] => []
  | rdrc, turn :: later =>
    let answered := turn.answer c (turn.meanwhile rdrc)
    answered.2 :: outcomes c answered.1 later

/-- At every query the rules agree about the servers that have been rejected. -/
def AlikeThroughout (c : Client) : RDRC → List (Turn F A) → Prop
  | _, [] => True
  | rdrc, turn :: later =>
    turn.RejectsAlike (turn.meanwhile rdrc) ∧
      AlikeThroughout c (turn.answer c (turn.meanwhile rdrc)).1 later

/-- The servers' replies: an address of the local server and a failure of the default one. -/
def localReply (server : Tag) (_ : Question) : Reply ℕ :=
  if server = "local" then .message ⟨0,rcodeSuccess,[⟨0,.a (some 50)⟩],[],[]⟩ else .failed

def localTurn (rules : List (RoutedRule Bool ℕ)) : Turn Bool ℕ where
  router := { lowRouter false with rules := rules, defaultServer := "remote" }
  reply := localReply
  metadata := queryMetadata true
  message := ⟨7,[addressQuestion],true,none⟩
  options := plainOptions
  meanwhile := id

def rememberingClient : Client := ⟨false,false,false,none,true⟩

lemma localTurn_matchDNS (rule : RoutedRule Bool ℕ) (ha : rule.action = lowRule.action)
    (hp : rule.rule.legacyPreMatch (forRule (queryMetadata true)) = true)
    (rules rest : List (RoutedRule Bool ℕ)) :
    (localTurn rules).router.matchDNS (queryMetadata true) true true (rule :: rest) plainOptions =
      .route rule "local" plainOptions rest := by
  have hl : (rule.rule.withAddressLimit && !true) = false := Bool.and_false _
  simp only [Router.matchDNS,hp,ha,lowRule,hl]
  rfl

end SingBoxAuth.DNSExchange
