import SingBoxAuth.StubResolvers

/-! The tables of the resolved service and its DNS transport (service/resolved): links, the order of
the default routes, and the servers of each link. -/
namespace SingBoxAuth.Resolved
open StubResolver Transitions

variable {I A : Type}

structure LinkDNSEx (A : Type) where
  address : A
  port : UInt16
  name : String

structure LinkDomain where
  domain : Name
  routingOnly : Bool
  deriving DecidableEq

/-- A link; its serial number and its index stand for the pointer to it. -/
structure TransportLink (I A : Type) where
  serial : ℕ
  iif : Option I := none
  address : List A := []
  addressEx : List (LinkDNSEx A) := []
  domain : List LinkDomain := []
  defaultRoute : Bool := false
  dnsOverTLS : Bool := false

/-- The name that a TLS server has to show: its address, or a name that was given. -/
inductive ServerName (A : Type)
  | address (address : A)
  | name (name : String)

/-- A transport made for a link: the interface it binds to, where it sends, and TLS or not. -/
structure Server (I A : Type) where
  iif : I
  address : A
  port : UInt16
  tls : Option (ServerName A)

/-- The tables of both objects; `updated` are the links that updateTransports has been run on. -/
structure Service (I A : Type) where
  links : ℤ → Option (TransportLink I A)
  defaultRouteSequence : List ℤ
  linkServers : ℤ × ℕ → Option (List (Server I A))
  next : ℕ
  updated : ℤ × ℕ → Bool

def newService : Service I A := ⟨fun _ => none,[],fun _ => none,0,fun _ => false⟩

inductive Ended (S : Type)
  | returned (err : Bool) (s : S)
  | panicked

namespace Service

def getLink (s : Service I A) (byIndex : ℤ → Option I) (ifIndex : ℤ) :
    Option (TransportLink I A) × Service I A :=
  match s.links ifIndex with
  | some link => (some link,s)
  | none =>
    -- the new link is in the table before its interface is looked up
    let link : TransportLink I A := { serial := s.next, iif := byIndex ifIndex }
    (if link.iif.isSome then some link else none,
      { s with links := Function.update s.links ifIndex (some link), next := s.next + 1 })

def transports (iif : I) (link : TransportLink I A) : List (Server I A) :=
  (link.address.map fun address =>
    ⟨iif,address,53,if link.dnsOverTLS then some (.address address) else none⟩) ++
  link.addressEx.map fun ex =>
    ⟨iif,ex.address,ex.port,if link.dnsOverTLS then
      some (if ex.name ≠ "" then .name ex.name else .address ex.address) else none⟩

def updateTransports (s : Service I A) (ifIndex : ℤ) (iif : I) (link : TransportLink I A) :
    Service I A :=
  { s with
    linkServers := Function.update s.linkServers (ifIndex,link.serial) (some (transports iif link))
    updated := Function.update s.updated (ifIndex,link.serial) true }

/-- The shared body of the SetLink calls: the link found or made is edited, its interface is named
in the log, and its transports are renewed. -/
def setLink (s : Service I A) (byIndex : ℤ → Option I) (ifIndex : ℤ)
    (edit : TransportLink I A → TransportLink I A) (route : List ℤ → List ℤ) :
    Ended (Service I A) :=
  match s.getLink byIndex ifIndex with
  | (none,s) => .returned true s
  | (some link,s) =>
    match (edit link).iif with
    | none => .panicked
    | some iif =>
      .returned false <| updateTransports { s with
        links := Function.update s.links ifIndex (some (edit link))
        defaultRouteSequence := route s.defaultRouteSequence } ifIndex iif (edit link)

variable (s : Service I A) (byIndex : ℤ → Option I) (ifIndex : ℤ)

def setLinkDNS (addresses : List A) : Ended (Service I A) :=
  s.setLink byIndex ifIndex (fun link => { link with address := addresses }) id

def setLinkDNSEx (addresses : List (LinkDNSEx A)) : Ended (Service I A) :=
  s.setLink byIndex ifIndex (fun link => { link with addressEx := addresses }) id

def setLinkDomains (domains : List LinkDomain) : Ended (Service I A) :=
  s.setLink byIndex ifIndex (fun link => { link with domain := domains }) id

def setLinkDefaultRoute (defaultRoute : Bool) : Ended (Service I A) :=
  s.setLink byIndex ifIndex (fun link => { link with defaultRoute := defaultRoute })
    fun sequence => if defaultRoute then sequence.filter (· ≠ ifIndex) ++ [ifIndex]
      else sequence.filter (· ≠ ifIndex)

def setLinkDNSOverTLS (dotMode : String) : Ended (Service I A) :=
  s.setLink byIndex ifIndex (fun link => { link with dnsOverTLS :=
    if dotMode = "yes" then true
    else if dotMode = "" ∨ dotMode = "opportunistic" ∨ dotMode = "no" then false
    else link.dnsOverTLS }) id

def revertLink : Ended (Service I A) :=
  match s.getLink byIndex ifIndex with
  | (none,s) => .returned true s
  | (some link,s) =>
    match link.iif with
    | none => .panicked
    | some iif =>
      .returned false <|
        updateTransports { s with links := Function.update s.links ifIndex none } ifIndex iif link

/-- The interface of a link is the one that its index has now. -/
def unchanged [DecidableEq I] (byIndex : ℤ → Option I) (ifIndex : ℤ) (link : TransportLink I A) : Bool :=
  (byIndex ifIndex).isSome && byIndex ifIndex == link.iif

/-- For every link its default route goes and the callback deletes its transports; the link goes
too if its interface has changed. -/
def onNetworkUpdate [DecidableEq I] : Service I A :=
  { s with
    links := fun i => (s.links i).filter (unchanged byIndex i)
    defaultRouteSequence := s.defaultRouteSequence.filter fun i => (s.links i).isNone
    linkServers := fun p =>
      if (s.links p.1).any (·.serial == p.2) then none else s.linkServers p }

end Service

/-! Queries. -/

/-- The test of the domain loop, `strings.HasSuffix` on the whole name. -/
def LinkDomain.selects (accept : Bool) (name : Name) (d : LinkDomain) : Bool :=
  !(d.domain == ['.'] && d.routingOnly && !accept) && d.domain.isSuffixOf name

def TransportLink.selected (accept : Bool) (name : Name) (link : TransportLink I A) : Bool :=
  link.domain.any (LinkDomain.selects accept name)

/-- The loop over the links, in the order of the map's iteration. -/
def byDomain (s : Service I A) (accept : Bool) (name : Name) (order : List ℤ) : Option ℤ :=
  order.foldl (fun selected i =>
    if (s.links i).any (TransportLink.selected accept name) then some i else selected) none

/-- The loop over the default routes, from the last one; an index without link is dereferenced. -/
def byDefaultRoute (s : Service I A) : List ℤ → Option ℤ → Option (Option ℤ)
  | [], selected => some selected
  | i :: rest, _ =>
    match s.links i with
    | none => none
    | some link =>
      if link.address ≠ [] ∨ link.addressEx ≠ [] then some (some i)
      else byDefaultRoute s rest (some i)

/-- The link that Exchange selects; `none` outside is a nil dereference. -/
def selectLink (s : Service I A) (accept : Bool) (name : Name) (order : List ℤ) :
    Option (Option ℤ) :=
  match byDomain s accept name order with
  | some i => some (some i)
  | none => if accept then byDefaultRoute s s.defaultRouteSequence.reverse none else some none

inductive Answer (I A : Type)
  | nameError
  | asks (servers : List (Server I A))
  | panicked

def exchange (s : Service I A) (accept : Bool) (name : Name) (order : List ℤ) : Answer I A :=
  match selectLink s accept name order with
  | none => .panicked
  | some none => .nameError
  | some (some i) =>
    match (s.links i).bind fun link => s.linkServers (i,link.serial) with
    | none => .panicked
    | some servers => if servers.length = 0 then .nameError else .asks servers

/-! What holds of the tables. -/

structure Consistent (s : Service I A) : Prop where
  routed : ∀ i ∈ s.defaultRouteSequence, (s.links i).isSome = true
  served : ∀ i n, (s.linkServers (i,n)).isSome = true ↔
    ∃ link, s.links i = some link ∧ link.serial = n ∧ s.updated (i,n) = true

structure Inv (s : Service I A) : Prop where
  routed : ∀ i ∈ s.defaultRouteSequence,
    ∃ link, s.links i = some link ∧ s.updated (i,link.serial) = true
  served : ∀ i n, (s.linkServers (i,n)).isSome = true ↔
    ∃ link, s.links i = some link ∧ link.serial = n ∧ s.updated (i,n) = true
  blank : ∀ i link, s.links i = some link →
    s.updated (i,link.serial) = true ∨ link.iif = none ∧ link.domain = []
  serials : ∀ i link, s.links i = some link → link.serial < s.next
  fresh : ∀ i n, s.updated (i,n) = true → n < s.next

variable {s s' : Service I A}

lemma Inv.consistent (h : Inv s) : Consistent s := by
  refine ⟨fun i hi => ?_,h.served⟩
  obtain ⟨link,hl,-⟩ := h.routed i hi
  rw [hl]
  rfl

lemma Inv.renew (h : Inv s) {i : ℤ} {iif : I} {link : TransportLink I A} {route : List ℤ}
    {next : ℕ} (hs : ∀ old,s.links i = some old → old.serial = link.serial)
    (hr : ∀ j ∈ route,j = i ∨ j ∈ s.defaultRouteSequence) (hn : s.next ≤ next)
    (hl : link.serial < next) :
    Inv (Service.updateTransports { s with
      links := Function.update s.links i (some link),defaultRouteSequence := route,
      next := next } i iif link) := by
  have hu : ∀ j n,Function.update s.updated (i,link.serial) true (j,n) = true ↔
      (j = i ∧ n = link.serial) ∨ s.updated (j,n) = true := by
    intro j n
    by_cases hp : (j,n) = (i,link.serial)
    · rw [hp,Function.update_self]
      simp_all
    · rw [Function.update_of_ne hp]
      simp_all
  have hi : Function.update s.links i (some link) i = some link := Function.update_self _ _ _
  have hk : ∀ j,j ≠ i → Function.update s.links i (some link) j = s.links j :=
    fun j hj => Function.update_of_ne hj _ _
  have hf : ∀ j l,Function.update s.links i (some link) j = some l →
      (j = i ∧ l = link) ∨ s.links j = some l := by
    intro j l hjl
    by_cases hji : j = i
    · rw [hji,hi] at hjl
      exact .inl ⟨hji,(Option.some.inj hjl).symm⟩
    · exact .inr ((hk j hji).symm.trans hjl)
  refine ⟨fun j hj => ?_,fun j n => ?_,fun j l hjl => ?_,fun j l hjl => ?_,fun j n hjn => ?_⟩
  · by_cases hji : j = i
    · subst hji
      exact ⟨link,hi,(hu _ _).mpr (.inl ⟨rfl,rfl⟩)⟩
    · obtain ⟨l,hl,hul⟩ := h.routed j ((hr j hj).resolve_left hji)
      exact ⟨l,(hk j hji).trans hl,(hu _ _).mpr (.inr hul)⟩
  · show (Function.update s.linkServers (i,link.serial) _ (j,n)).isSome = true ↔
      ∃ l,Function.update s.links i (some link) j = some l ∧ l.serial = n ∧
        Function.update s.updated (i,link.serial) true (j,n) = true
    by_cases hp : (j,n) = (i,link.serial)
    · cases hp
      rw [Function.update_self,hi,Function.update_self]
      exact ⟨fun _ => ⟨link,rfl,rfl,rfl⟩,fun _ => rfl⟩
    · rw [Function.update_of_ne hp,Function.update_of_ne hp,h.served]
      by_cases hji : j = i
      · subst hji
        constructor
        · rintro ⟨l,hl,rfl,-⟩
          exact absurd (congrArg (Prod.mk j) (hs l hl)) hp
        · rintro ⟨l,hl,rfl,-⟩
          rw [hi] at hl
          cases hl
          exact absurd rfl hp
      · rw [hk j hji]
  · rcases hf j l hjl with ⟨rfl,rfl⟩ | ho
    · exact .inl ((hu _ _).mpr (.inl ⟨rfl,rfl⟩))
    · exact (h.blank j l ho).imp_left fun hb => (hu _ _).mpr (.inr hb)
  · rcases hf j l hjl with ⟨rfl,rfl⟩ | ho
    · exact hl
    · exact (h.serials j l ho).trans_le hn
  · rcases (hu j n).mp hjn with ⟨-,rfl⟩ | hjn
    · exact hl
    · exact (h.fresh j n hjn).trans_le hn

lemma Inv.leave (h : Inv s) {i : ℤ} (hi : s.links i = none) :
    Inv { s with links := Function.update s.links i (some { serial := s.next }),
                 next := s.next + 1 } := by
  have hk : ∀ j l,s.links j = some l →
      Function.update s.links i (some { serial := s.next }) j = some l := by
    intro j l hl
    have hji : j ≠ i := by
      rintro rfl
      rw [hi] at hl
      cases hl
    rw [Function.update_of_ne hji,hl]
  have hf : ∀ j l,Function.update s.links i (some { serial := s.next }) j = some l →
      (l = { serial := s.next }) ∨ s.links j = some l := by
    intro j l hjl
    by_cases hji : j = i
    · rw [hji,Function.update_self] at hjl
      exact .inl (Option.some.inj hjl).symm
    · rw [Function.update_of_ne hji] at hjl
      exact .inr hjl
  refine ⟨fun j hj => ?_,fun j n => ?_,fun j l hjl => ?_,fun j l hjl => ?_,fun j n hjn => ?_⟩
  · obtain ⟨l,hl,hu⟩ := h.routed j hj
    exact ⟨l,hk j l hl,hu⟩
  · rw [h.served]
    constructor
    · rintro ⟨l,hl,hn,hu⟩
      exact ⟨l,hk j l hl,hn,hu⟩
    · rintro ⟨l,hl,hn,hu⟩
      rcases hf j l hl with rfl | ho
      · exact absurd (h.fresh j n hu) (hn ▸ lt_irrefl _)
      · exact ⟨l,ho,hn,hu⟩
  · rcases hf j l hjl with rfl | ho
    · exact .inr ⟨rfl,rfl⟩
    · exact h.blank j l ho
  · rcases hf j l hjl with rfl | ho
    · exact Nat.lt_succ_self _
    · exact (h.serials j l ho).trans (Nat.lt_succ_self _)
  · exact (h.fresh j n hjn).trans (Nat.lt_succ_self _)

lemma Inv.setLink (h : Inv s) {byIndex : ℤ → Option I} {i : ℤ}
    {edit : TransportLink I A → TransportLink I A} {route : List ℤ → List ℤ} {err : Bool}
    (hs : s.setLink byIndex i edit route = .returned err s')
    (he : ∀ link,(edit link).serial = link.serial) (hr : ∀ l,∀ j ∈ route l,j = i ∨ j ∈ l) :
    Inv s' := by
  rw [Service.setLink,Service.getLink] at hs
  cases hl : s.links i with
  | some link =>
    simp only [hl] at hs
    cases hi : (edit link).iif with
    | none => simp [hi] at hs
    | some iif =>
      simp only [hi,Ended.returned.injEq] at hs
      obtain ⟨-,rfl⟩ := hs
      refine h.renew (fun old ho => ?_) (hr _) le_rfl ((he link).symm ▸ h.serials i link hl)
      rw [hl] at ho
      cases ho
      exact (he _).symm
  | none =>
    cases hb : byIndex i with
    | none =>
      simp only [hl,hb,Option.isSome_none,Bool.false_eq_true,if_false,Ended.returned.injEq] at hs
      obtain ⟨-,rfl⟩ := hs
      exact h.leave hl
    | some iif' =>
      simp only [hl,hb,Option.isSome_some,if_true] at hs
      cases hi : (edit { serial := s.next,iif := some iif' }).iif with
      | none => simp [hi] at hs
      | some iif =>
        simp only [hi,Ended.returned.injEq,Function.update_idem] at hs
        obtain ⟨-,rfl⟩ := hs
        refine h.renew (fun old ho => ?_) (hr _) (Nat.le_succ _) ?_
        · rw [hl] at ho
          cases ho
        · rw [he]
          exact Nat.lt_succ_self _

/-! Queries find the servers of the link they select. -/

lemma getLast?_filter_cons {α : Type} (p : α → Bool) (x : α) (l : List α) :
    ((x :: l).filter p).getLast? = (l.filter p).getLast?.or (if p x then some x else none) := by
  rw [List.filter_cons]
  cases p x with
  | true => rw [if_pos rfl,if_pos rfl,List.getLast?_cons]; cases (l.filter p).getLast? <;> rfl
  | false => simp

lemma byDomain_eq (accept : Bool) (name : Name) (order : List ℤ) :
    byDomain s accept name order = (order.filter fun i =>
      (s.links i).any (TransportLink.selected accept name)).getLast? := by
  have hf : ∀ start,order.foldl (fun selected i =>
      if (s.links i).any (TransportLink.selected accept name) then some i else selected) start =
      (order.filter fun i => (s.links i).any (TransportLink.selected accept name)).getLast?.or
        start := by
    induction order with
    | nil => exact fun _ => rfl
    | cons i order ih =>
      intro start
      rw [List.foldl_cons,ih,getLast?_filter_cons,Option.or_assoc]
      split_ifs <;> rfl
  rw [byDomain,hf,Option.or_none]

lemma byDefaultRoute_spec {l : List ℤ} (selected : Option ℤ)
    (hl : ∀ i ∈ l,(s.links i).isSome = true) :
    ∃ r,byDefaultRoute s l selected = some r ∧ (r = selected ∧ l = [] ∨ ∃ i ∈ l,r = some i) := by
  induction l generalizing selected with
  | nil => exact ⟨selected,rfl,.inl ⟨rfl,rfl⟩⟩
  | cons i rest ih =>
    obtain ⟨link,hi⟩ := Option.isSome_iff_exists.mp (hl i List.mem_cons_self)
    rw [byDefaultRoute,hi]
    by_cases ha : link.address ≠ [] ∨ link.addressEx ≠ []
    · exact ⟨some i,if_pos ha,.inr ⟨i,List.mem_cons_self,rfl⟩⟩
    · obtain ⟨r,hr,hc⟩ := ih (some i) fun j hj => hl j (List.mem_cons_of_mem _ hj)
      refine ⟨r,(if_neg ha).trans hr,.inr ?_⟩
      rcases hc with ⟨rfl,-⟩ | ⟨j,hj,rfl⟩
      · exact ⟨i,List.mem_cons_self,rfl⟩
      · exact ⟨j,List.mem_cons_of_mem _ hj,rfl⟩

lemma Inv.selectLink (h : Inv s) (accept : Bool) (name : Name) (order : List ℤ) :
    ∃ r,selectLink s accept name order = some r ∧
      ∀ i ∈ r,∃ link,s.links i = some link ∧ s.updated (i,link.serial) = true := by
  rw [Resolved.selectLink]
  cases hd : byDomain s accept name order with
  | some i =>
    refine ⟨some i,rfl,fun j hj => ?_⟩
    cases hj
    rw [byDomain_eq] at hd
    have hs := (List.mem_filter.mp (List.mem_of_getLast? hd)).2
    cases hl : s.links i with
    | none => simp [hl] at hs
    | some link =>
      refine ⟨link,rfl,(h.blank i link hl).resolve_right fun hb => ?_⟩
      simp [hl,TransportLink.selected,hb.2] at hs
  | none =>
    cases accept with
    | false => exact ⟨none,rfl,fun _ hi => by cases hi⟩
    | true =>
      obtain ⟨r,hr,hc⟩ := byDefaultRoute_spec none fun i hi =>
        h.consistent.routed i (List.mem_reverse.mp hi)
      refine ⟨r,hr,fun i hi => ?_⟩
      rcases hc with ⟨rfl,-⟩ | ⟨j,hj,rfl⟩
      · cases hi
      · cases hi
        exact h.routed i (List.mem_reverse.mp hj)

lemma Inv.exchange (h : Inv s) (accept : Bool) (name : Name) (order : List ℤ) :
    exchange s accept name order ≠ .panicked := by
  obtain ⟨r,hr,hu⟩ := h.selectLink accept name order
  rw [Resolved.exchange,hr]
  cases r with
  | none => exact fun he => by cases he
  | some i =>
    obtain ⟨link,hl,hup⟩ := hu i rfl
    obtain ⟨servers,hs⟩ := Option.isSome_iff_exists.mp
      ((h.served i link.serial).mpr ⟨link,hl,rfl,hup⟩)
    simp only [hl,Option.bind_some,hs]
    split_ifs
    · exact fun he => by cases he
    · exact fun he => by cases he

lemma inv_newService : Inv (newService : Service I A) :=
  ⟨fun _ hi => absurd hi List.not_mem_nil,fun _ _ => by simp [newService],
    fun _ _ hl => absurd hl.symm (Option.some_ne_none _),
    fun _ _ hl => absurd hl.symm (Option.some_ne_none _),fun _ _ hu => absurd hu Bool.false_ne_true⟩

/-! Histories. -/

section Histories

variable [DecidableEq I]

inductive Event (I A : Type)
  | setLinkDNS (byIndex : ℤ → Option I) (ifIndex : ℤ) (addresses : List A)
  | setLinkDNSEx (byIndex : ℤ → Option I) (ifIndex : ℤ) (addresses : List (LinkDNSEx A))
  | setLinkDomains (byIndex : ℤ → Option I) (ifIndex : ℤ) (domains : List LinkDomain)
  | setLinkDefaultRoute (byIndex : ℤ → Option I) (ifIndex : ℤ) (defaultRoute : Bool)
  | setLinkDNSOverTLS (byIndex : ℤ → Option I) (ifIndex : ℤ) (dotMode : String)
  | revertLink (byIndex : ℤ → Option I) (ifIndex : ℤ)
  | networkUpdate (byIndex : ℤ → Option I)
  | query (accept : Bool) (name : Name) (order : List ℤ)

def perform (s : Service I A) : Event I A → Ended (Service I A)
  | .setLinkDNS byIndex ifIndex addresses => s.setLinkDNS byIndex ifIndex addresses
  | .setLinkDNSEx byIndex ifIndex addresses => s.setLinkDNSEx byIndex ifIndex addresses
  | .setLinkDomains byIndex ifIndex domains => s.setLinkDomains byIndex ifIndex domains
  | .setLinkDefaultRoute byIndex ifIndex route => s.setLinkDefaultRoute byIndex ifIndex route
  | .setLinkDNSOverTLS byIndex ifIndex dotMode => s.setLinkDNSOverTLS byIndex ifIndex dotMode
  | .revertLink byIndex ifIndex => s.revertLink byIndex ifIndex
  | .networkUpdate byIndex => .returned false (s.onNetworkUpdate byIndex)
  | .query _ _ _ => .returned false s

def Step (s : Service I A) (e : Event I A) (s' : Service I A) : Prop :=
  ∃ err, perform s e = .returned err s'

/-- Links whose interface is unchanged keep their data, servers and default-route places. -/
structure Undisturbed (byIndex : ℤ → Option I) (s s' : Service I A) : Prop where
  kept : ∀ i link, s.links i = some link → Service.unchanged byIndex i link = true →
    s'.links i = some link ∧ s'.linkServers (i,link.serial) = s.linkServers (i,link.serial)
  places : s'.defaultRouteSequence.filter (fun i => (s.links i).any (Service.unchanged byIndex i)) =
    s.defaultRouteSequence.filter fun i => (s.links i).any (Service.unchanged byIndex i)

def Keeps (s : Service I A) (e : Event I A) : Prop :=
  (∀ s', Step s e s' → Consistent s' ∧
    ∀ byIndex, e = .networkUpdate byIndex → Undisturbed byIndex s s') ∧
  ∀ accept name order, e = .query accept name order → exchange s accept name order ≠ .panicked

/-- No RevertLink of an index that has a link with an interface, or gets one, and no network update
while the interface of a link is unchanged. -/
def Spared (s : Service I A) : Event I A → Prop
  | .revertLink byIndex ifIndex =>
    match s.links ifIndex with
    | some link => link.iif = none
    | none => byIndex ifIndex = none
  | .networkUpdate byIndex =>
    ∀ i link, s.links i = some link → Service.unchanged byIndex i link = false
  | _ => True

variable {byIndex : ℤ → Option I}

lemma Inv.revertLink (h : Inv s) {i : ℤ} {err : Bool} (hc : Spared s (.revertLink byIndex i))
    (hs : s.revertLink byIndex i = .returned err s') : Inv s' := by
  rw [Service.revertLink,Service.getLink] at hs
  cases hl : s.links i with
  | some link =>
    have hi : link.iif = none := by simpa [Spared,hl] using hc
    simp [hl,hi] at hs
  | none =>
    have hb : byIndex i = none := by simpa [Spared,hl] using hc
    simp only [hl,hb,Option.isSome_none,Bool.false_eq_true,if_false,Ended.returned.injEq] at hs
    obtain ⟨-,rfl⟩ := hs
    exact h.leave hl

/-- Any other RevertLink renews the servers of a link that is not in the table. -/
lemma revertLink_stray {i : ℤ} (hc : ¬ Spared s (.revertLink byIndex i)) :
    ∃ s' n,Step s (.revertLink byIndex i) s' ∧ s'.links i = none ∧
      (s'.linkServers (i,n)).isSome = true := by
  cases hl : s.links i with
  | some link =>
    cases hi : link.iif with
    | none => simp [Spared,hl,hi] at hc
    | some iif =>
      have hr : s.revertLink byIndex i = .returned false (Service.updateTransports
          { s with links := Function.update s.links i none } i iif link) := by
        simp only [Service.revertLink,Service.getLink,hl,hi]
      exact ⟨_,link.serial,⟨false,hr⟩,by simp [Service.updateTransports],
        by simp [Service.updateTransports]⟩
  | none =>
    cases hb : byIndex i with
    | none => simp [Spared,hl,hb] at hc
    | some iif =>
      have hr : s.revertLink byIndex i = .returned false (Service.updateTransports
          { s with links := Function.update s.links i none,next := s.next + 1 } i iif
          { serial := s.next,iif := some iif }) := by
        simp [Service.revertLink,Service.getLink,hl,hb]
      exact ⟨_,s.next,⟨false,hr⟩,by simp [Service.updateTransports],
        by simp [Service.updateTransports]⟩

lemma links_onNetworkUpdate (hc : Spared s (.networkUpdate byIndex)) (i : ℤ) :
    (s.onNetworkUpdate byIndex).links i = none := by
  show (s.links i).filter (Service.unchanged byIndex i) = none
  cases hl : s.links i with
  | none => rfl
  | some link =>
    rw [Option.filter_some,hc i link hl]
    rfl

lemma Inv.onNetworkUpdate (h : Inv s) (hc : Spared s (.networkUpdate byIndex)) :
    Inv (s.onNetworkUpdate byIndex) := by
  have hn := links_onNetworkUpdate hc
  refine ⟨fun i hi => ?_,fun i n => ?_,fun i l hl => ?_,fun i l hl => ?_,h.fresh⟩
  · obtain ⟨hs,hi⟩ := List.mem_filter.mp hi
    obtain ⟨link,hl,-⟩ := h.routed i hs
    rw [hl] at hi
    cases hi
  · rw [hn]
    refine iff_of_false (fun hs => ?_) (by simp)
    simp only [Service.onNetworkUpdate] at hs
    split_ifs at hs with ha
    · cases hs
    · obtain ⟨link,hl,hln,-⟩ := (h.served i n).mp hs
      simp [hl,hln] at ha
  · rw [hn] at hl
    cases hl
  · rw [hn] at hl
    cases hl

lemma undisturbed_of_spared (hc : Spared s (.networkUpdate byIndex)) (s' : Service I A) :
    Undisturbed byIndex s s' := by
  have hk : ∀ i,(s.links i).any (Service.unchanged byIndex i) = false := by
    intro i
    cases hl : s.links i with
    | none => rfl
    | some link => exact hc i link hl
  refine ⟨fun i link hl hu => ?_,?_⟩
  · rw [hc i link hl] at hu
    cases hu
  · simp [hk]

lemma Inv.spared_of_consistent (h : Inv s) (hc : Consistent (s.onNetworkUpdate byIndex)) :
    Spared s (.networkUpdate byIndex) := by
  intro i link hl
  by_contra hu
  rw [Bool.not_eq_false] at hu
  have hk : (s.onNetworkUpdate byIndex).links i = some link := by
    show (s.links i).filter (Service.unchanged byIndex i) = some link
    rw [hl,Option.filter_some,hu]
    rfl
  have hup : s.updated (i,link.serial) = true := by
    refine (h.blank i link hl).resolve_right fun hb => ?_
    rw [Service.unchanged,hb.1] at hu
    cases hi : byIndex i <;> simp [hi] at hu
  have hs := (hc.served i link.serial).mpr ⟨link,hk,rfl,hup⟩
  simp [Service.onNetworkUpdate,hl] at hs

lemma Inv.step (h : Inv s) {e : Event I A} (hs : Step s e s') (hc : Spared s e) : Inv s' := by
  obtain ⟨err,hs⟩ := hs
  cases e with
  | setLinkDNS byIndex i addresses =>
    exact h.setLink hs (fun _ => rfl) fun _ _ hj => .inr hj
  | setLinkDNSEx byIndex i addresses =>
    exact h.setLink hs (fun _ => rfl) fun _ _ hj => .inr hj
  | setLinkDomains byIndex i domains =>
    exact h.setLink hs (fun _ => rfl) fun _ _ hj => .inr hj
  | setLinkDefaultRoute byIndex i defaultRoute =>
    rw [perform,Service.setLinkDefaultRoute] at hs
    refine h.setLink hs (fun _ => rfl) fun l j hj => ?_
    cases defaultRoute with
    | false => exact .inr (List.mem_filter.mp hj).1
    | true =>
      rcases List.mem_append.mp hj with hj | hj
      · exact .inr (List.mem_filter.mp hj).1
      · exact .inl (List.mem_singleton.mp hj)
  | setLinkDNSOverTLS byIndex i dotMode =>
    exact h.setLink hs (fun _ => rfl) fun _ _ hj => .inr hj
  | revertLink byIndex i => exact h.revertLink hc hs
  | networkUpdate byIndex =>
    cases hs
    exact h.onNetworkUpdate hc
  | query accept name order =>
    cases hs
    exact h

lemma inv_of_reaches (run : Reaches Step Spared (newService : Service I A) s) : Inv s :=
  run.invariant Inv inv_newService fun _ _ _ h hs hc => h.step hs hc

/-- In every run that spares the links the tables are consistent, and a further step keeps them so,
leaves unchanged links alone and dereferences nothing that is missing exactly when it spares the
links too. -/
theorem tables_kept_iff (run : Reaches Step Spared (newService : Service I A) s) (e : Event I A) :
    Consistent s ∧ (Keeps s e ↔ Spared s e) := by
  have h := inv_of_reaches run
  refine ⟨h.consistent,fun hk => ?_,fun hc => ⟨fun s' hs => ?_,fun accept name order _ => ?_⟩⟩
  · cases e with
    | revertLink byIndex i =>
      by_contra hn
      obtain ⟨s',n,hs,hl,hv⟩ := revertLink_stray hn
      obtain ⟨link,hl',-⟩ := ((hk.1 s' hs).1.served i n).mp hv
      rw [hl] at hl'
      cases hl'
    | networkUpdate byIndex => exact h.spared_of_consistent (hk.1 _ ⟨false,rfl⟩).1
    | _ => trivial
  · refine ⟨(h.step hs hc).consistent,fun byIndex he => ?_⟩
    subst he
    exact undisturbed_of_spared hc s'
  · exact h.exchange accept name order

def eth : ℤ → Option ℕ := fun i => if i = 2 then some 0 else none

theorem tables_kept_routed : ∃ s : Service ℕ ℕ, s.defaultRouteSequence = [2] ∧
    Keeps s (.query true ['.'] [2]) :=
  ⟨_,rfl,(tables_kept_iff (.step (e := .setLinkDefaultRoute eth 2 true) .start ⟨false,rfl⟩
    trivial) _).2.mpr trivial⟩

/-- A query for a link that a network update has left alone, and a query for the default route after
a RevertLink, dereference nil. -/
theorem missing_entries_dereferenced :
    (∃ s s' : Service ℕ ℕ, Step newService (.setLinkDomains eth 2 [⟨['.'],false⟩]) s ∧
      Step s (.networkUpdate eth) s' ∧ exchange s' false ['.'] [2] = .panicked) ∧
    ∃ s s' : Service ℕ ℕ, Step newService (.setLinkDefaultRoute eth 2 true) s ∧
      Step s (.revertLink eth 2) s' ∧ exchange s' true ['.'] [] = .panicked :=
  ⟨⟨_,_,⟨false,rfl⟩,⟨false,rfl⟩,rfl⟩,_,_,⟨false,rfl⟩,⟨false,rfl⟩,rfl⟩

end Histories

end SingBoxAuth.Resolved
