import SingBoxAuth.FakeIPRanges

/-! The two directions of the fake-IP tables stay inverse to each other. -/
namespace SingBoxAuth.FakeIP
open AddressRanges Transitions

/-- A storage whose accepted writes put a pair into both tables and take the old domain of the
address out of the other one. -/
structure PairedStorage (σ : Type) extends LawfulStorage σ where
  Accepts : Addr → String → Prop
  load_fresh : ∀ address, load (reset (metadata fresh).2) address = none
  load_async : ∀ s m, load (saveMetadataAsync s m) = load s
  load_store : ∀ s address domain, Accepts address domain → ∀ x,
    load (store s address domain) x = if x = address then some domain else load s x
  loadDomain_accepted : ∀ s address domain, Accepts address domain → ∀ d isIPv6, d ≠ "" →
    loadDomain (store s address domain) d isIPv6 =
      if isIPv6 = !is4 address then
        if d = domain then some address
        else if load s address = some d then none else loadDomain s d isIPv6
      else loadDomain s d isIPv6

lemma MemoryStorage.replace_apply {α : Type} (cache : String → Option α) (old : Option String)
    (domain d : String) (address : α) : replace cache old domain address d =
      if d = domain then some address else if old = some d then none else cache d := by
  cases old with
  | none => simp [replace,Function.update_apply]
  | some oldDomain => simp [replace,Function.update_apply,eq_comm]

def MemoryStorage.paired : PairedStorage MemoryStorage where
  toLawfulStorage := MemoryStorage.lawful
  Accepts _ domain := domain ≠ ""
  load_fresh _ := rfl
  load_async _ _ := rfl
  load_store s address domain _ x := by
    simp only [lawful,ops,store]
    split_ifs <;> simp_all
  loadDomain_accepted s address domain _ d isIPv6 _ := by
    simp only [lawful,ops,store,loadDomain]
    cases is4 address <;> cases isIPv6 <;> simp [replace_apply]

lemma CacheFile.load_store (c : CacheFile) (ip : IP) {domain : String} (hk : isKey domain = true)
    (x : Addr) : (c.store (some ip) domain).load x =
      if x = some ip then some domain else c.load x := by
  have hd : domain ≠ "" := by simpa using (Bool.and_eq_true_iff.mp hk).1
  simp only [store,hk,if_true,load,address_putDomains]
  cases x with
  | none => cases c.address <;> rfl
  | some ip' =>
    by_cases hi : ip' = ip
    · simp [hi,hd]
    · cases hc : c.address <;> simp [hi,emptyBucket]

lemma CacheFile.loadDomain_store (c : CacheFile) (ip : IP) {domain : String}
    (hk : isKey domain = true) {d : String} (hd : d ≠ "") (isIPv6 : Bool) :
    (c.store (some ip) domain).loadDomain d isIPv6 =
      if isIPv6 = !is4 (some ip) then
        if d = domain then some (some ip)
        else if c.load (some ip) = some d then none else c.loadDomain d isIPv6
      else c.loadDomain d isIPv6 := by
  simp only [store,hk,if_true,loadDomain]
  by_cases h6 : isIPv6 = !is4 (some ip)
  · subst h6
    have ho : (c.address.getD emptyBucket).domains ip = some d ↔ c.load (some ip) = some d := by
      cases hc : c.address <;> simp [load,hc,emptyBucket,hd,Option.filter_eq_some_iff]
    rw [domains_putDomains,Option.bind_some,MemoryStorage.replace_apply,if_pos rfl]
    simp only [ho]
    split_ifs
    · rfl
    · rfl
    · show Option.map some ((c.domains (!is4 (some ip))).getD (fun _ => none) d) = _
      cases c.domains (!is4 (some ip)) <;> rfl
  · rw [domains_putDomains_of_ne _ _ _ h6,if_neg h6]
    rfl

def CacheFile.paired : PairedStorage CacheFile where
  toLawfulStorage := CacheFile.lawful
  Accepts address domain := address ≠ none ∧ isKey domain = true
  load_fresh address := by cases address <;> rfl
  load_async c m := by
    simp only [lawful,ops,saveMetadataAsync]
    cases c.timer <;> rfl
  load_store c address domain ha x := by
    obtain ⟨ip,rfl⟩ := Option.ne_none_iff_exists'.mp ha.1
    exact c.load_store ip ha.2 x
  loadDomain_accepted c address domain ha d isIPv6 hd := by
    obtain ⟨ip,rfl⟩ := Option.ne_none_iff_exists'.mp ha.1
    exact c.loadDomain_store ip ha.2 hd isIPv6

/-- Each domain is mapped to an address of the family exactly when the address is mapped to it. -/
def Inverse {σ : Type} (ops : PairedStorage σ) (s : σ) : Prop :=
  ∀ domain isIPv6 address, domain ≠ "" → (ops.loadDomain s domain isIPv6 = some address ↔
    ops.load s address = some domain ∧ is4 address = !isIPv6)

lemma Inverse.store {σ : Type} {ops : PairedStorage σ} {s : σ} {address : Addr} {domain : String}
    (h : Inverse ops s) (ha : ops.Accepts address domain)
    (hn : ops.loadDomain s domain (!is4 address) = none) (hd : domain ≠ "") :
    Inverse ops (ops.store s address domain) := by
  intro d isIPv6 x hne
  rw [ops.loadDomain_accepted s address domain ha d isIPv6 hne,ops.load_store s address domain ha x]
  by_cases h6 : isIPv6 = !is4 address
  · subst h6
    rw [if_pos rfl,Bool.not_not]
    by_cases hdd : d = domain
    · subst hdd
      have hx : ¬ (ops.load s x = some d ∧ is4 x = is4 address) := by
        have hi := h d (!is4 address) x hd
        rw [hn,Bool.not_not] at hi
        exact fun hx => Option.some_ne_none x (hi.mpr hx).symm
      by_cases hxa : x = address
      · simp [hxa]
      · simp [hxa,hx,Ne.symm hxa]
    · rw [if_neg hdd]
      have hi := fun y => h d (!is4 address) y hne
      simp only [Bool.not_not] at hi
      by_cases hxa : x = address
      · subst hxa
        rw [if_pos rfl]
        refine iff_of_false (fun hx => ?_) fun hx => hdd (Option.some.inj hx.1).symm
        split_ifs at hx with hl
        exact hl ((hi x).mp hx).1
      · rw [if_neg hxa,← hi x]
        split_ifs with hl
        · refine iff_of_false (fun hx => by cases hx) fun hx => hxa ?_
          exact Option.some.inj (hx.symm.trans ((hi address).mpr ⟨hl,rfl⟩))
        · exact Iff.rfl
  · rw [if_neg h6,h d isIPv6 x hne]
    refine and_congr_left fun hx => ?_
    rw [if_neg]
    rintro rfl
    exact h6 (by rw [hx,Bool.not_not])

namespace Store

variable {σ : Type} {ops : PairedStorage σ} {ranges : Ranges} {s : Store σ}

/-- The domain is not empty and the write that the call leads to, if any, is accepted. -/
def Succeeds (ops : PairedStorage σ) (s : Store σ) (call : String × Bool) : Prop :=
  call.1 ≠ "" ∧ (ops.loadDomain s.storage call.1 call.2 = none → ∀ lane,
    (s.lane call.2).allocate = some lane → ops.Accepts lane.current call.1)

def Calls (ops : PairedStorage σ) : Store σ → Store σ → Prop :=
  Reaches (createStep ops.toLawfulStorage) (Succeeds ops)

/-- What is asked of the tables after some calls: they are inverse to each other, and the address
that a further call returns is found and returned again until it goes to another domain. -/
structure Kept (ops : PairedStorage σ) (s : Store σ) : Prop where
  inverse : Inverse ops s.storage
  created : ∀ domain isIPv6 address, Succeeds ops s (domain,isIPv6) →
    (s.create ops.toStorage domain isIPv6).1 = .ok address →
    (s.create ops.toStorage domain isIPv6).2.lookup ops.toStorage address = some domain ∧
    ∀ t, Calls ops (s.create ops.toStorage domain isIPv6).2 t →
      t.lookup ops.toStorage address = some domain →
      (t.create ops.toStorage domain isIPv6).1 = .ok address

end Store

namespace Lane

/-- The addresses of a lane are of its family, and a lane that hands out only valid ones can begin
anew. -/
structure Own (lane : Lane) (range : Option Prefix) (valid : Prop) : Prop where
  same : lane.range = range
  current : ∀ ip, lane.current = some ip → ∃ p, range = some p ∧ ip.family = p.addr.family ∧
    (valid → p.addr.value + 2 < 2 ^ p.addr.family.bits)

lemma own_begin {range : Option Prefix} {valid : Prop}
    (hv : valid → ∀ p ∈ range,p.addr.value + 2 ≠ 2 ^ p.addr.family.bits) :
    (Lane.new range).begin.Own range valid := by
  cases range with
  | none => exact ⟨rfl,fun _ hip => absurd hip.symm (Option.some_ne_none _)⟩
  | some p =>
    refine ⟨rfl,fun ip hip => ⟨p,rfl,?_⟩⟩
    obtain ⟨hf,hval⟩ := IP.next_eq_some (show p.addr.next = some ip from hip)
    refine ⟨hf,fun h => ?_⟩
    have hne := hv h p rfl
    have hlt := ip.fits
    rw [hf] at hlt
    omega

lemma Own.allocate {lane lane' : Lane} {range : Option Prefix} {valid : Prop}
    (h : lane.Own range valid) (ha : lane.allocate = some lane') :
    lane'.Own range valid ∧ (valid → lane'.current ≠ none) := by
  unfold Lane.allocate at ha
  dsimp only at ha
  split_ifs at ha with hn hw
  · obtain ⟨ip,hip⟩ := Option.ne_none_iff_exists'.mp hn
    obtain ⟨p,hr,-,hv⟩ := h.current ip hip
    have hb : lane.base = some p.addr := by
      rw [Lane.base,h.same,hr]
      rfl
    rw [hb] at ha
    cases ha
    refine ⟨⟨h.same,fun ip' hip' => ⟨p,hr,?_,hv⟩⟩,fun hva => ?_⟩
    · obtain ⟨x,hx,hy⟩ := Option.bind_eq_some_iff.mp (show (p.addr.next).bind IP.next = _ from hip')
      exact (IP.next_eq_some hy).1.trans (IP.next_eq_some hx).1
    · have h2 := hv hva
      show (p.addr.next).bind IP.next ≠ none
      rw [IP.next_of_lt (by omega),Option.bind_some,IP.next_of_lt (by dsimp only; omega)]
      exact Option.some_ne_none _
  · obtain ⟨ip,hip⟩ := Option.ne_none_iff_exists'.mp hn
    obtain ⟨p,hr,hf,hv⟩ := h.current ip hip
    cases ha
    refine ⟨⟨h.same,fun ip' hip' => ⟨p,hr,?_,hv⟩⟩,fun _ hne => ?_⟩
    · rw [hip] at hip'
      exact (IP.next_eq_some hip').1.trans hf
    · refine hw (.inr ?_)
      rw [show nextAddr lane.current = none from hne]
      cases hl : lane.range <;> simp [Lane.contains,hl]

lemma allocate_edge {p : Prefix} (h : p.addr.value + 2 = 2 ^ p.addr.family.bits) :
    (Lane.new (some p)).begin.allocate = some { (Lane.new (some p)).begin with current := none } := by
  have hx : p.addr.next = some ⟨p.addr.family,p.addr.value + 1,by omega⟩ :=
    IP.next_of_lt (by omega)
  have hn : nextAddr p.addr.next = none := by
    rw [hx]
    exact dif_neg (by dsimp only; omega)
  have hc : (Lane.new (some p)).begin.current = p.addr.next := rfl
  have hb : nextAddr (nextAddr (Lane.new (some p)).begin.base) = nextAddr p.addr.next := rfl
  unfold Lane.allocate
  dsimp only
  rw [hc,hb,hn,if_neg (by rw [hx]; exact Option.some_ne_none _),if_pos (.inr rfl)]

end Lane

namespace Store

variable {σ : Type} {ops : PairedStorage σ} {ranges : Ranges} {s : Store σ}

/-- Writes of an invalid address are refused, or none comes up for IPv4. -/
def Safe (ops : PairedStorage σ) (ranges : Ranges) : Prop :=
  (∀ address domain, ops.Accepts address domain → address ≠ none) ∨
    ∀ p ∈ ranges.inet4, p.addr.value + 2 ≠ 2 ^ 32

/-- The lanes stay with their families and the tables inverse. -/
structure Steady (ops : PairedStorage σ) (ranges : Ranges) (s : Store σ) : Prop where
  lanes : ∀ isIPv6, (s.lane isIPv6).Own (ranges.get isIPv6) (isIPv6 = false ∧
    ∀ p ∈ ranges.inet4, p.addr.value + 2 ≠ 2 ^ 32)
  inverse : Inverse ops s.storage

lemma Steady.is4_current (h : Steady ops ranges s) (hs : Safe ops ranges) {domain : String}
    {isIPv6 : Bool} {lane : Lane} (hl : (s.lane isIPv6).allocate = some lane)
    (ha : ops.Accepts lane.current domain) : is4 lane.current = !isIPv6 := by
  obtain ⟨ho,hv⟩ := (h.lanes isIPv6).allocate hl
  cases hc : lane.current with
  | none =>
    cases isIPv6 with
    | true => rfl
    | false =>
      rcases hs with hs | hs
      · exact absurd hc (hs _ _ ha)
      · exact absurd hc (hv ⟨rfl,hs⟩)
  | some ip =>
    obtain ⟨p,hp,hf,-⟩ := ho.current ip hc
    cases isIPv6 with
    | true => simp [is4,hf,ranges.family6 p hp]
    | false => simp [is4,hf,ranges.family4 p hp]

lemma steady_fresh (ops : PairedStorage σ) (ranges : Ranges) :
    Steady ops ranges (fresh ops.toLawfulStorage ranges) := by
  rw [fresh_eq]
  refine ⟨fun isIPv6 => ?_,fun domain isIPv6 address _ => ?_⟩
  · cases isIPv6 with
    | true => exact Lane.own_begin fun hv => absurd hv.1.symm Bool.false_ne_true
    | false =>
      refine Lane.own_begin fun hv p hp => ?_
      rw [ranges.family4 p hp]
      exact hv.2 p hp
  · rw [ops.loadDomain_fresh,ops.load_fresh]
    simp

lemma Steady.setLane (h : Steady ops ranges s) {isIPv6 : Bool} {lane : Lane}
    (hl : (s.lane isIPv6).allocate = some lane) (isIPv6' : Bool) :
    ((s.setLane isIPv6 lane).lane isIPv6').Own (ranges.get isIPv6') (isIPv6' = false ∧
      ∀ p ∈ ranges.inet4,p.addr.value + 2 ≠ 2 ^ 32) := by
  rw [lane_setLane]
  split_ifs with he
  · subst he
    exact ((h.lanes isIPv6').allocate hl).1
  · exact h.lanes isIPv6'

lemma Steady.create (h : Steady ops ranges s) (hs : Safe ops ranges) {domain : String}
    {isIPv6 : Bool} (hc : Succeeds ops s (domain,isIPv6)) :
    Steady ops ranges (s.create ops.toStorage domain isIPv6).2 ∧
      ∀ address,(s.create ops.toStorage domain isIPv6).1 = .ok address →
        (s.create ops.toStorage domain isIPv6).2.lookup ops.toStorage address = some domain ∧
          is4 address = !isIPv6 := by
  have hca := s.create_cases ops.toStorage domain isIPv6
  generalize s.create ops.toStorage domain isIPv6 = answer at hca ⊢
  cases hca with
  | loaded hl =>
    refine ⟨h,fun address ha => ?_⟩
    cases ha
    exact (h.inverse domain isIPv6 _ hc.1).mp hl
  | missing => exact ⟨h,fun address ha => by cases ha⟩
  | @allocated lane hn hla =>
    have ha := hc.2 hn lane hla
    have hf := h.is4_current hs hla ha
    refine ⟨⟨h.setLane hla,?_⟩,fun address he => ?_⟩
    · have hi := h.inverse.store ha (by rw [hf,Bool.not_not]; exact hn) hc.1
      intro d isIPv6' x hd
      have hx := hi d isIPv6' x hd
      rwa [← ops.loadDomain_async _ (s.setLane isIPv6 lane).metadata,
        ← ops.load_async _ (s.setLane isIPv6 lane).metadata] at hx
    · cases he
      refine ⟨?_,hf⟩
      show ops.load (ops.saveMetadataAsync _ _) _ = _
      rw [ops.load_async,ops.load_store _ _ _ ha,if_pos rfl]

lemma Steady.calls {t : Store σ} (h : Steady ops ranges s) (hs : Safe ops ranges)
    (run : Calls ops s t) : Steady ops ranges t := by
  refine run.invariant (Steady ops ranges) h ?_
  rintro s ⟨domain,isIPv6⟩ t h rfl hc
  exact (h.create hs hc).1

lemma Steady.kept (h : Steady ops ranges s) (hs : Safe ops ranges) : Kept ops s := by
  refine ⟨h.inverse,fun domain isIPv6 address hc ha => ?_⟩
  obtain ⟨hst,hfound⟩ := h.create hs hc
  obtain ⟨hl,hf⟩ := hfound address ha
  refine ⟨hl,fun t run ht => ?_⟩
  have hd := ((hst.calls hs run).inverse domain isIPv6 address hc.1).mpr ⟨ht,hf⟩
  simp only [Store.create,hd]

def TablesKept (ops : PairedStorage σ) (ranges : Ranges) : Prop :=
  ∀ s, Calls ops (fresh ops.toLawfulStorage ranges) s → Kept ops s

lemma tablesKept (hs : Safe ops ranges) : TablesKept ops ranges :=
  fun _ run => ((steady_fresh ops ranges).calls hs run).kept hs

/-- The invalid address is stored on the side of IPv6, where an IPv4 call does not look. -/
lemma create_edge {s : Store MemoryStorage} {lane : Lane} (hn : s.storage.domainCache4 "a" = none)
    (ha : s.inet4.allocate = some { lane with current := none }) :
    (s.create MemoryStorage.ops "a" false).1 = .ok none ∧
    ((s.create MemoryStorage.ops "a" false).2.create MemoryStorage.ops "a" false).1 =
      .error (missingRange false) := by
  have hl : MemoryStorage.ops.loadDomain s.storage "a" false = none := hn
  have hc : s.create MemoryStorage.ops "a" false = (.ok none,
      { s with inet4 := { lane with current := none },storage := s.storage.store none "a" }) := by
    rw [create,hl]
    simp only [Store.lane,Bool.false_eq_true,if_false,ha]
    rfl
  rw [hc]
  refine ⟨rfl,?_⟩
  have h2 : MemoryStorage.ops.loadDomain (s.storage.store none "a") "a" false = none := hn
  rw [create,h2]
  rfl

/-- In memory the tables are kept exactly when the IPv4 range is not written with the last address
but one of all; in the cache file, with writes that succeed, they always are. -/
theorem tables_kept_inverse_iff (ranges : Ranges) :
    (TablesKept MemoryStorage.paired ranges ↔ ∀ p ∈ ranges.inet4, p.addr.value + 2 ≠ 2 ^ 32) ∧
    TablesKept CacheFile.paired ranges := by
  refine ⟨⟨fun h p hp hv => ?_,fun h => tablesKept (.inr h)⟩,tablesKept (.inl fun _ _ ha => ha.1)⟩
  have hl : (fresh MemoryStorage.lawful ranges).inet4 = (Lane.new (some p)).begin := by
    rw [fresh_eq,show ranges.inet4 = some p from hp]
  have ha := Lane.allocate_edge (p := p) (by rw [ranges.family4 p hp]; exact hv)
  rw [← hl] at ha
  obtain ⟨h1,h2⟩ := create_edge (s := fresh MemoryStorage.lawful ranges)
    (by rw [fresh_eq]; rfl) ha
  have hk := (h _ .start).created "a" false none ⟨by simp,fun _ _ _ => by simp [MemoryStorage.paired]⟩
    h1
  cases h2.symm.trans (hk.2 _ .start hk.1)

def lastButOne : Prefix := ⟨⟨.inet4,4294967294,by decide⟩,30,by decide⟩

/-- The range 255.255.255.254/30 has four addresses. The first call returns an invalid one and the
second call for the same domain fails. -/
theorem invalid_address_created :
    let s := fresh MemoryStorage.lawful (onlyInet4 lastButOne rfl)
    lastButOne.size = 4 ∧ (s.create MemoryStorage.ops "example.org" false).1 = .ok none ∧
    ((s.create MemoryStorage.ops "example.org" false).2.create MemoryStorage.ops "example.org"
      false).1 = .error "missing IPv4 fakeip address range" :=
  ⟨by decide,rfl,rfl⟩

end Store

end SingBoxAuth.FakeIP
