import SingBoxAuth.FakeIPStore

/-! Which ranges keep the allocated addresses inside them. -/
namespace SingBoxAuth.FakeIP
open AddressRanges Transitions

/-- A storage that holds nothing at first and then returns only what was stored. -/
structure LawfulStorage (σ : Type) extends Storage σ where
  fresh : σ
  metadata_fresh : (metadata fresh).1 = none
  loadDomain_fresh : ∀ domain isIPv6, loadDomain (reset (metadata fresh).2) domain isIPv6 = none
  loadDomain_async : ∀ s m, loadDomain (saveMetadataAsync s m) = loadDomain s
  loadDomain_store : ∀ s address domain d isIPv6 x,
    loadDomain (store s address domain) d isIPv6 = some x →
      (x = address ∧ isIPv6 = !is4 address) ∨ loadDomain s d isIPv6 = some x

def MemoryStorage.lawful : LawfulStorage MemoryStorage where
  toStorage := MemoryStorage.ops
  fresh := .new
  metadata_fresh := rfl
  loadDomain_fresh _ isIPv6 := by cases isIPv6 <;> rfl
  loadDomain_async _ _ := rfl
  loadDomain_store s address domain d isIPv6 x h := by
    simp only [ops,store,loadDomain] at h ⊢
    by_cases h4 : is4 address = true
    · cases isIPv6 with
      | true =>
        simp only [h4,if_true] at h ⊢
        exact .inr h
      | false =>
        simp only [h4,if_true,Bool.false_eq_true,if_false] at h ⊢
        obtain ⟨-,rfl⟩ | h := replace_eq_some h
        · exact .inl ⟨rfl,by simp⟩
        · exact .inr h
    · cases isIPv6 with
      | true =>
        simp only [h4,if_true,Bool.false_eq_true,if_false] at h ⊢
        obtain ⟨-,rfl⟩ | h := replace_eq_some h
        · exact .inl ⟨rfl,by simp [h4]⟩
        · exact .inr h
      | false =>
        simp only [h4,Bool.false_eq_true,if_false] at h ⊢
        exact .inr h

def CacheFile.lawful : LawfulStorage CacheFile where
  toStorage := CacheFile.ops
  fresh := .empty
  metadata_fresh := rfl
  loadDomain_fresh _ isIPv6 := by cases isIPv6 <;> rfl
  loadDomain_async c m := by
    simp only [ops,saveMetadataAsync]
    cases c.timer <;> rfl
  loadDomain_store c address domain d isIPv6 x h := by
    have hcases := c.store_cases address domain
    simp only [ops] at h ⊢
    generalize c.store address domain = c' at h hcases
    cases hcases with
    | refused _ => exact .inr h
    | @put ip ha _ =>
      obtain ⟨bucket,ip',hb,hip,rfl⟩ := loadDomain_eq_some.mp h
      by_cases h6 : isIPv6 = !is4 address
      · subst h6
        rw [domains_putDomains,Option.some.injEq] at hb
        subst hb
        obtain ⟨-,rfl⟩ | hold := MemoryStorage.replace_eq_some hip
        · exact .inl ⟨ha.symm,rfl⟩
        · cases hd : c.domains (!is4 address) with
          | none =>
            rw [hd] at hold
            cases hold
          | some bucket =>
            rw [hd] at hold
            exact .inr (loadDomain_eq_some.mpr ⟨bucket,ip',hd,hold,rfl⟩)
      · rw [domains_putDomains_of_ne _ _ _ h6] at hb
        exact .inr (loadDomain_eq_some.mpr ⟨bucket,ip',hb,hip,rfl⟩)

lemma setLowBits_mapped {value n : ℕ} (hn : n ≤ 32) :
    setLowBits (0xffff * 2 ^ 32 + value) n = 0xffff * 2 ^ 32 + setLowBits value n := by
  have hp : 0xffff * 2 ^ 32 = 2 ^ n * (0xffff * 2 ^ (32 - n)) := by
    rw [Nat.mul_left_comm,← pow_add,show n + (32 - n) = 32 by omega]
  rw [setLowBits_eq,setLowBits_eq,hp,Nat.mul_add_div (Nat.two_pow_pos n),Nat.add_mul]
  ring

lemma broadcastAddress_value (p : Prefix) : (broadcastAddress p).value = p.last := by
  have hlt := p.last_lt
  have hfits := p.fits
  have hl : p.last = setLowBits p.addr.value p.hostBits := (setLowBits_eq _ _).symm
  cases hf : p.addr.family with
  | inet4 =>
    simp only [hf,Family.bits] at hlt hfits
    simp only [broadcastAddress,as16,hf,Family.bits]
    rw [show 128 - (p.bits + 96) = p.hostBits by simp only [Prefix.hostBits,hf,Family.bits]; omega,
      setLowBits_mapped (by simp only [Prefix.hostBits,hf,Family.bits]; omega),← hl,
      Nat.add_comm,Nat.add_mul_mod_self_right,Nat.mod_eq_of_lt hlt]
  | inet6 =>
    simp only [hf,Family.bits] at hlt hfits
    simp only [broadcastAddress,as16,hf,Family.bits]
    rw [show 128 - p.bits = p.hostBits by simp only [Prefix.hostBits,hf,Family.bits],← hl,
      Nat.mod_eq_of_lt hlt]

/-- An address that the range is to hand out: inside, but neither its network address nor its
last one. -/
def InRange (range : Option Prefix) (address : Addr) : Prop :=
  ∃ p ip, range = some p ∧ address = some ip ∧ p.contains ip = true ∧ ip.value ≠ p.network ∧
    ip.value ≠ p.last

/-- Two addresses after the range's own there is still one before the last; or there is no
address after the range's own at all, so that nothing can be allocated. -/
def Roomy (p : Prefix) : Prop :=
  p.addr.value + 1 = 2 ^ p.addr.family.bits ∨ p.host + 3 < p.size

/-- The address that a lane has got to lies between the range's own and its last. -/
structure Between (p : Prefix) (ip : IP) : Prop where
  family : ip.family = p.addr.family
  after : p.addr.value < ip.value
  before : ip.value < p.last

namespace Lane

structure Sound (lane : Lane) (range : Option Prefix) : Prop where
  same : lane.range = range
  current : ∀ ip, lane.current = some ip → ∃ p, range = some p ∧
    lane.last = some (broadcastAddress p) ∧ p.host + 3 < p.size ∧ Between p ip

lemma inRange_of_between {p : Prefix} {ip : IP} (h : Between p ip) :
    InRange (some p) (some ip) := by
  have hn := p.network_add_host
  have ha := h.after
  have hb := h.before
  exact ⟨p,ip,rfl,rfl,(p.contains_iff ip).mpr ⟨h.family,by omega,by omega⟩,by omega,by omega⟩

lemma between_wrap {p : Prefix} (hr : p.host + 3 < p.size) :
    ∃ ip,nextAddr (nextAddr (some p.addr)) = some ip ∧ Between p ip := by
  have hn := p.network_add_host
  have hlt := p.last_lt
  have hl : p.last = p.network + (p.size - 1) := rfl
  have h1 : p.addr.next = some ⟨p.addr.family,p.addr.value + 1,by omega⟩ :=
    IP.next_of_lt (by omega)
  have h2 : IP.next ⟨p.addr.family,p.addr.value + 1,by omega⟩ =
      some ⟨p.addr.family,p.addr.value + 1 + 1,by omega⟩ :=
    IP.next_of_lt (by dsimp only; omega)
  refine ⟨⟨p.addr.family,p.addr.value + 1 + 1,by omega⟩,?_,rfl,?_,?_⟩
  · simp only [nextAddr,Option.bind_some,h1,h2]
  · dsimp only
    omega
  · dsimp only
    omega

lemma Sound.allocate {lane lane' : Lane} {range : Option Prefix} (h : lane.Sound range)
    (hs : lane.allocate = some lane') :
    lane'.Sound range ∧ InRange range lane'.current := by
  have hk {p : Prefix} {ip : IP} (hr : range = some p) (hl : lane.last = some (broadcastAddress p))
      (hro : p.host + 3 < p.size) (hb : Between p ip) :
      Sound { lane with current := some ip } range ∧ InRange range (some ip) := by
    subst hr
    refine ⟨⟨h.same,?_⟩,inRange_of_between hb⟩
    intro ip' hip
    cases hip
    exact ⟨p,rfl,hl,hro,hb⟩
  unfold Lane.allocate at hs
  dsimp only at hs
  split_ifs at hs with hn hwr
  · obtain ⟨ip,hip⟩ := Option.ne_none_iff_exists'.mp hn
    obtain ⟨p,hr,hl,hro,-⟩ := h.current ip hip
    obtain ⟨wrapped,hw,hwb⟩ := between_wrap hro
    have hba : lane.base = some p.addr := by
      rw [Lane.base,h.same,hr]
      rfl
    rw [hba,hw] at hs
    cases hs
    exact hk hr hl hro hwb
  · obtain ⟨ip,hip⟩ := Option.ne_none_iff_exists'.mp hn
    obtain ⟨p,hr,hl,hro,hb⟩ := h.current ip hip
    have ha := hb.after
    have hbe := hb.before
    have hlt : ip.value + 1 < 2 ^ ip.family.bits := by
      have := p.last_lt
      rw [hb.family]
      omega
    have hnx : nextAddr lane.current = some ⟨ip.family,ip.value + 1,hlt⟩ := by
      rw [hip]
      exact IP.next_of_lt hlt
    rw [hnx] at hwr hs
    cases hs
    have hne : ip.value + 1 ≠ p.last := by
      intro heq
      refine hwr (.inl (hl ▸ congrArg some (IP.ext hb.family ?_)))
      rw [broadcastAddress_value]
      exact heq
    exact hk hr hl hro ⟨hb.family,by dsimp only; omega,by dsimp only; omega⟩

lemma sound_begin {range : Option Prefix} (hr : ∀ p ∈ range,Roomy p) :
    (Lane.new range).begin.Sound range := by
  cases range with
  | none => exact ⟨rfl,fun ip hip => by cases hip⟩
  | some p =>
    refine ⟨rfl,fun ip hip => ?_⟩
    have hip : p.addr.next = some ip := hip
    obtain ⟨hf,hv⟩ := IP.next_eq_some hip
    have hn := p.network_add_host
    have hl : p.last = p.network + (p.size - 1) := rfl
    obtain ht | hr := hr p rfl
    · have := ip.fits
      rw [hf] at this
      omega
    · exact ⟨p,rfl,rfl,hr,hf,by omega,by omega⟩

lemma allocate_outside {p : Prefix} (hr : ¬ Roomy p) :
    ∃ lane,(Lane.new (some p)).begin.allocate = some lane ∧ ¬ InRange (some p) lane.current := by
  have hn := p.network_add_host
  have hl : p.last = p.network + (p.size - 1) := rfl
  have hfits := p.addr.fits
  unfold Roomy at hr
  push Not at hr
  have ho : p.addr.next = some ⟨p.addr.family,p.addr.value + 1,by omega⟩ :=
    IP.next_of_lt (by omega)
  have hcu : (Lane.new (some p)).begin.current =
      some ⟨p.addr.family,p.addr.value + 1,by omega⟩ := ho
  -- Both branches give the address two after the range's own.
  have ha : (Lane.new (some p)).begin.allocate =
      some { (Lane.new (some p)).begin with current := nextAddr (nextAddr (some p.addr)) } := by
    have hb : nextAddr (Lane.new (some p)).begin.current = nextAddr (nextAddr (some p.addr)) := rfl
    unfold Lane.allocate
    dsimp only
    rw [hb,if_neg (by rw [hcu]; simp)]
    split_ifs <;> rfl
  refine ⟨_,ha,?_⟩
  rintro ⟨q,ip,hq,hip,hin,-,hne⟩
  cases hq
  have hip : (p.addr.next).bind IP.next = some ip := hip
  rw [ho] at hip
  obtain ⟨-,hv⟩ := IP.next_eq_some hip
  have hle := ((p.contains_iff ip).mp hin).2.2
  dsimp only at hv
  omega

end Lane

structure Ranges where
  inet4 : Option Prefix
  inet6 : Option Prefix
  family4 : ∀ p ∈ inet4, p.addr.family = .inet4
  family6 : ∀ p ∈ inet6, p.addr.family = .inet6

def Ranges.get (ranges : Ranges) (isIPv6 : Bool) : Option Prefix :=
  if isIPv6 then ranges.inet6 else ranges.inet4

lemma Ranges.is4_of_inRange {ranges : Ranges} {isIPv6 : Bool} {address : Addr}
    (h : InRange (ranges.get isIPv6) address) : is4 address = !isIPv6 := by
  obtain ⟨p,ip,hp,rfl,hin,-⟩ := h
  have hf := ((p.contains_iff ip).mp hin).1
  cases isIPv6 with
  | true => simp [is4,hf,ranges.family6 p hp]
  | false => simp [is4,hf,ranges.family4 p hp]

namespace Store

variable {σ : Type} {ops : LawfulStorage σ} {ranges : Ranges} {s t : Store σ}

def fresh (ops : LawfulStorage σ) (ranges : Ranges) : Store σ :=
  start ops.toStorage ranges.inet4 ranges.inet6 ops.fresh

def createStep (ops : LawfulStorage σ) (s : Store σ) (call : String × Bool) (t : Store σ) : Prop :=
  (s.create ops.toStorage call.1 call.2).2 = t

/-- Both lanes stay inside, and everything stored is to be handed out. -/
structure Sound (ops : LawfulStorage σ) (ranges : Ranges) (s : Store σ) : Prop where
  lanes : ∀ isIPv6, (s.lane isIPv6).Sound (ranges.get isIPv6)
  loads : ∀ domain isIPv6 address, ops.loadDomain s.storage domain isIPv6 = some address →
    InRange (ranges.get isIPv6) address

lemma fresh_eq (ops : LawfulStorage σ) (ranges : Ranges) : fresh ops ranges =
    ⟨(Lane.new ranges.inet4).begin,(Lane.new ranges.inet6).begin,
      ops.reset (ops.metadata ops.fresh).2⟩ := by
  simp only [fresh,start,ops.metadata_fresh]

lemma sound_fresh (h4 : ∀ p ∈ ranges.inet4,Roomy p) (h6 : ∀ p ∈ ranges.inet6,Roomy p) :
    Sound ops ranges (fresh ops ranges) := by
  rw [fresh_eq]
  constructor
  · intro isIPv6
    cases isIPv6 with
    | true => exact Lane.sound_begin h6
    | false => exact Lane.sound_begin h4
  · intro domain isIPv6 address hl
    rw [ops.loadDomain_fresh] at hl
    cases hl

lemma lane_setLane (s : Store σ) (isIPv6 isIPv6' : Bool) (lane : Lane) :
    (s.setLane isIPv6 lane).lane isIPv6' = if isIPv6' = isIPv6 then lane else s.lane isIPv6' := by
  cases isIPv6 <;> cases isIPv6' <;> rfl

lemma Sound.create (h : Sound ops ranges s) (domain : String) (isIPv6 : Bool) :
    Sound ops ranges (s.create ops.toStorage domain isIPv6).2 ∧
      ∀ address,(s.create ops.toStorage domain isIPv6).1 = .ok address →
        InRange (ranges.get isIPv6) address := by
  have hca := s.create_cases ops.toStorage domain isIPv6
  generalize s.create ops.toStorage domain isIPv6 = answer at hca ⊢
  cases hca with
  | loaded hl =>
    refine ⟨h,fun address ha => ?_⟩
    cases ha
    exact h.loads _ _ _ hl
  | missing => exact ⟨h,fun address ha => by cases ha⟩
  | @allocated lane _ hla =>
    obtain ⟨hs,hin⟩ := (h.lanes isIPv6).allocate hla
    refine ⟨⟨fun isIPv6' => ?_,fun d isIPv6' x hx => ?_⟩,fun address ha => ?_⟩
    · change ((s.setLane isIPv6 lane).lane isIPv6').Sound _
      rw [lane_setLane]
      split_ifs with heq
      · exact heq ▸ hs
      · exact h.lanes isIPv6'
    · rw [ops.loadDomain_async] at hx
      obtain ⟨rfl,hf⟩ | hold := ops.loadDomain_store _ _ _ _ _ _ hx
      · rw [Ranges.is4_of_inRange hin,Bool.not_not] at hf
        exact hf ▸ hin
      · exact h.loads _ _ _ hold
    · cases ha
      exact hin

/-- Every address that a fresh store answers, after any calls of Create, lies in the range of its
family and is neither its network address nor its last one if and only if each range has room. -/
theorem created_in_range_iff (ops : LawfulStorage σ) (ranges : Ranges) :
    (∀ s, Reaches (createStep ops) anyStep (fresh ops ranges) s → ∀ domain isIPv6 address,
      (s.create ops.toStorage domain isIPv6).1 = .ok address →
        InRange (ranges.get isIPv6) address ∧ s.contains address = true) ↔
    (∀ p ∈ ranges.inet4, Roomy p) ∧ ∀ p ∈ ranges.inet6, Roomy p := by
  constructor
  · intro hal
    have hf (isIPv6 : Bool) : ∀ p ∈ ranges.get isIPv6, Roomy p := by
      intro p hp
      by_contra hr
      obtain ⟨lane,hl,ho⟩ := Lane.allocate_outside hr
      have hstart : (fresh ops ranges).lane isIPv6 = (Lane.new (some p)).begin := by
        rw [fresh_eq,← show ranges.get isIPv6 = some p from hp]
        cases isIPv6 <;> rfl
      rw [← hstart] at hl
      have hlo : ops.loadDomain (fresh ops ranges).storage "" isIPv6 = none := by
        rw [fresh_eq]
        exact ops.loadDomain_fresh _ _
      have ha : ((fresh ops ranges).create ops.toStorage "" isIPv6).1 = .ok lane.current := by
        simp only [create,hlo,hl]
      obtain ⟨hin,-⟩ := hal _ .start "" isIPv6 _ ha
      rw [show ranges.get isIPv6 = some p from hp] at hin
      exact ho hin
    exact ⟨hf false,hf true⟩
  · rintro ⟨h4,h6⟩ s hs domain isIPv6 address ha
    have hso : Sound ops ranges s := by
      refine hs.invariant (Sound ops ranges) (sound_fresh h4 h6) ?_
      rintro s ⟨domain,isIPv6⟩ t h rfl -
      exact (h.create domain isIPv6).1
    have hin := (hso.create domain isIPv6).2 address ha
    refine ⟨hin,?_⟩
    obtain ⟨p,ip,hp,rfl,hco,-⟩ := hin
    have hl := (hso.lanes isIPv6).same.trans hp
    cases isIPv6 with
    | true =>
      have hl : s.inet6.range = some p := hl
      simp [contains,Lane.contains,hl,hco]
    | false =>
      have hl : s.inet4.range = some p := hl
      simp [contains,Lane.contains,hl,hco]

def onlyInet4 (p : Prefix) (h : p.addr.family = .inet4) : Ranges where
  inet4 := some p
  inet6 := none
  family4 q hq := by
    cases hq
    exact h
  family6 q hq := by cases hq

def fourHosts : Prefix := ⟨⟨.inet4,167772161,by decide⟩,30,by decide⟩

def twoHosts : Prefix := ⟨⟨.inet4,167772160,ten_fits⟩,31,by decide⟩

/-- The range 10.0.0.1/30 hands out 10.0.0.3, its last address, and 10.0.0.0/31 hands out 10.0.0.2,
which is outside. -/
theorem small_ranges_left :
    ((fresh MemoryStorage.lawful (onlyInet4 fourHosts rfl)).create MemoryStorage.ops "example.org"
      false).1 = .ok (some ⟨.inet4,167772163,by decide⟩) ∧ fourHosts.last = 167772163 ∧
    ((fresh MemoryStorage.lawful (onlyInet4 twoHosts rfl)).create MemoryStorage.ops "example.org"
      false).1 = .ok (some ⟨.inet4,167772162,by decide⟩) ∧
    twoHosts.contains ⟨.inet4,167772162,by decide⟩ = false := by
  exact ⟨rfl,by decide,rfl,by decide⟩

end Store

end SingBoxAuth.FakeIP
