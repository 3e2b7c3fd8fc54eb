import SingBoxAuth.FakeIPReset
import SingBoxAuth.FakeIPTables

/-! The position of the fake-IP ranges that the delayed save writes, and what a run that starts from
it hands out. -/
namespace SingBoxAuth.FakeIP
open AddressRanges

namespace CacheFile.Keeps

variable {c c' : CacheFile}

lemma load (h : Keeps c c') : c'.load = c.load := by
  have hl : ∀ (c : CacheFile) (ip : IP),c.load (some ip) = (c.domainOf ip).filter (· ≠ "") := by
    intro c ip
    cases hc : c.address <;> simp [CacheFile.load,CacheFile.domainOf,hc,emptyBucket]
  funext address
  cases address with
  | none => cases hc : c.address <;> cases hc' : c'.address <;> simp [CacheFile.load,hc,hc']
  | some ip => rw [hl,hl,h.domainOf]

lemma loadDomain (h : Keeps c c') : c'.loadDomain = c.loadDomain := by
  funext domain isIPv6
  rw [CacheFile.loadDomain,CacheFile.loadDomain,h.domains]

end CacheFile.Keeps

lemma CacheFile.metadata_ended (c : CacheFile) : c.ended.metadata.1 = c.metadata.1 := by
  obtain ⟨address,domain4,domain6,timer⟩ := c
  cases address with
  | none => rfl
  | some bucket =>
    obtain ⟨domains,m⟩ := bucket
    cases m <;> rfl

/-- The next address of the lane is the first one of a new round. -/
def Lane.wraps (lane : Lane) : Prop :=
  nextAddr lane.current = lane.last ∨ lane.contains (nextAddr lane.current) = false

lemma Lane.allocate_straight {lane lane' : Lane} (hw : ¬ lane.wraps)
    (ha : lane.allocate = some lane') : ∃ ip ip',lane.current = some ip ∧
      lane'.current = some ip' ∧ ip'.value = ip.value + 1 := by
  unfold Lane.allocate at ha
  dsimp only at ha
  split_ifs at ha with hn hb
  · exact absurd hb hw
  · cases ha
    obtain ⟨ip,hip⟩ := Option.ne_none_iff_exists'.mp hn
    cases hx : nextAddr lane.current with
    | none =>
      refine absurd (.inr ?_) hw
      rw [hx]
      cases hl : lane.range <;> simp [Lane.contains,hl]
    | some ip' =>
      rw [hip] at hx
      exact ⟨ip,ip',hip,rfl,(IP.next_eq_some hx).2⟩

/-- A step of a run on the cache file: a call of Create, or the timer runs the save. -/
inductive Move
  | create (domain : String) (isIPv6 : Bool)
  | save

namespace Store

def move (s : Store CacheFile) : Move → Store CacheFile
  | .create domain isIPv6 => (s.create CacheFile.ops domain isIPv6).2
  | .save => { s with storage := s.storage.fire }

def moves (s : Store CacheFile) (l : List Move) : Store CacheFile := l.foldl move s

/-- The position that the step passes to FakeIPSaveMetadataAsync, if it allocates. -/
def position (s : Store CacheFile) : Move → Option Metadata
  | .create domain isIPv6 =>
    if (s.storage.loadDomain domain isIPv6).isNone ∧ (s.lane isIPv6).allocate.isSome then
      some (s.move (.create domain isIPv6)).metadata
    else none
  | .save => none

def positions : Store CacheFile → List Move → List Metadata
  | _, [] => []
  | s, m :: rest => (s.position m).toList ++ positions (s.move m) rest

def StraightStep (isIPv6 : Bool) (s : Store CacheFile) (m : Move) : Prop :=
  ∀ domain, m = .create domain isIPv6 → s.storage.loadDomain domain isIPv6 = none →
    ¬ (s.lane isIPv6).wraps

/-- The allocations of a family in a run stay in the first round. -/
def Straight (isIPv6 : Bool) : Store CacheFile → List Move → Prop
  | _, [] => True
  | s, m :: rest => StraightStep isIPv6 s m ∧ Straight isIPv6 (s.move m) rest

/-- The run that starts on the file of a run, which has ended without Close. -/
def restart (ranges : Ranges) (file : CacheFile) : Store CacheFile :=
  start CacheFile.ops ranges.inet4 ranges.inet6 file.ended

/-- As long as the allocation of a family is in its first round, over both runs, no address is
handed out that the file maps to another domain. -/
def NoneReused (ranges : Ranges) (l : List Move) (file : CacheFile) : Prop :=
  ∀ isIPv6 l' domain address, Straight isIPv6 (fresh CacheFile.lawful ranges) l →
    Straight isIPv6 (restart ranges file) (l' ++ [.create domain isIPv6]) →
    (((restart ranges file).moves l').create CacheFile.ops domain isIPv6).1 = .ok address →
    ∀ other, file.load address = some other → other = domain

variable {ranges : Ranges} {s : Store CacheFile}

lemma move_create_cases (s : Store CacheFile) (domain : String) (isIPv6 : Bool) :
    (s.move (.create domain isIPv6) = s ∧ s.position (.create domain isIPv6) = none) ∨
    ∃ lane,s.storage.loadDomain domain isIPv6 = none ∧ (s.lane isIPv6).allocate = some lane ∧
      s.position (.create domain isIPv6) = some (s.setLane isIPv6 lane).metadata ∧
      s.move (.create domain isIPv6) = { s.setLane isIPv6 lane with
        storage := (s.storage.store lane.current domain).saveMetadataAsync
          (s.setLane isIPv6 lane).metadata } := by
  have hc := s.create_cases CacheFile.ops domain isIPv6
  have hm : s.move (.create domain isIPv6) = (s.create CacheFile.ops domain isIPv6).2 := rfl
  rw [position,hm]
  generalize s.create CacheFile.ops domain isIPv6 = answer at hc
  cases hc with
  | loaded hl =>
    have hl : s.storage.loadDomain domain isIPv6 = some _ := hl
    exact .inl ⟨rfl,by simp [hl]⟩
  | missing hl ha => exact .inl ⟨rfl,by simp [ha]⟩
  | @allocated lane hl ha =>
    have hl : s.storage.loadDomain domain isIPv6 = none := hl
    refine .inr ⟨lane,hl,ha,?_,rfl⟩
    rw [if_pos ⟨by rw [hl]; rfl,by rw [ha]; rfl⟩]
    cases isIPv6 <;> rfl

/-! The timer keeps the first position; the store is at the last one. -/

lemma timer_store (c : CacheFile) (address : Addr) (domain : String) :
    (c.store address domain).timer = c.timer := by
  cases address with
  | none => rfl
  | some ip =>
    simp only [CacheFile.store]
    split_ifs
    · cases is4 (some ip) <;> rfl
    · rfl

lemma timer_saveMetadataAsync (c : CacheFile) (m : Metadata) :
    (c.saveMetadataAsync m).timer = c.timer.or (some m) := by
  cases hc : c.timer <;> simp [CacheFile.saveMetadataAsync,hc]

lemma timer_fire (c : CacheFile) : c.fire.timer = c.timer := by
  unfold CacheFile.fire
  split <;> rfl

lemma timer_moves (s : Store CacheFile) (l : List Move) :
    (s.moves l).storage.timer = s.storage.timer.or (positions s l).head? := by
  induction l generalizing s with
  | nil => exact (Option.or_none).symm
  | cons m rest ih =>
    have hm : (s.move m).storage.timer = s.storage.timer.or (s.position m) := by
      cases m with
      | save => exact (timer_fire _).trans (Option.or_none).symm
      | create domain isIPv6 =>
        rcases s.move_create_cases domain isIPv6 with ⟨he,hp⟩ | ⟨lane,-,-,hp,he⟩
        · rw [he,hp,Option.or_none]
        · rw [he,hp,timer_saveMetadataAsync,timer_store]
    rw [show s.moves (m :: rest) = (s.move m).moves rest from rfl,ih,hm,positions,
      List.head?_append,Option.or_assoc]
    cases s.position m <;> rfl

lemma metadata_moves (s : Store CacheFile) (l : List Move) :
    (positions s l).getLast?.getD s.metadata = (s.moves l).metadata := by
  induction l generalizing s with
  | nil => rfl
  | cons m rest ih =>
    have hm : (s.move m).metadata = (s.position m).getD s.metadata := by
      cases m with
      | save => rfl
      | create domain isIPv6 =>
        rcases s.move_create_cases domain isIPv6 with ⟨he,hp⟩ | ⟨lane,-,-,hp,he⟩
        · rw [he,hp]
          rfl
        · rw [he,hp]
          rfl
    rw [show s.moves (m :: rest) = (s.move m).moves rest from rfl,← ih,hm,positions,
      List.getLast?_append]
    cases (positions (s.move m) rest).getLast? <;> cases s.position m <;> rfl

/-- Without a timer nothing has been saved or stored. -/
def Idle (s : Store CacheFile) : Prop :=
  s.storage.timer = none → s.storage.metadata.1 = none ∧ ∀ address, s.storage.load address = none

lemma Idle.move (h : Idle s) (m : Move) : Idle (s.move m) := by
  intro ht
  cases m with
  | save =>
    have hs : s.storage.timer = none := (timer_fire _).symm.trans ht
    have hf : s.storage.fire = s.storage := by rw [CacheFile.fire,hs]
    show s.storage.fire.metadata.1 = none ∧ ∀ address,s.storage.fire.load address = none
    rw [hf]
    exact h hs
  | create domain isIPv6 =>
    rcases s.move_create_cases domain isIPv6 with ⟨he,-⟩ | ⟨lane,-,-,-,he⟩
    · rw [he] at ht ⊢
      exact h ht
    · rw [he,timer_saveMetadataAsync] at ht
      cases hs : (s.storage.store lane.current domain).timer <;> simp [hs] at ht

lemma Idle.moves (h : Idle s) (l : List Move) : Idle (s.moves l) := by
  induction l generalizing s with
  | nil => exact h
  | cons m rest ih => exact ih (h.move m)

lemma Idle.metadata_fire (h : Idle s) : s.storage.fire.metadata.1 = s.storage.timer := by
  unfold CacheFile.fire
  split
  · rename_i ht
    rw [(h ht).1,ht]
  · rename_i m ht
    rw [ht]
    rfl

/-! The tables and the lanes of a run. -/

/-- The tables are inverse to each other, and no pair of them has the empty domain. -/
structure Filed (ranges : Ranges) (s : Store CacheFile) : Prop where
  steady : Steady CacheFile.paired ranges s
  unnamed : ∀ isIPv6, s.storage.loadDomain "" isIPv6 = none

lemma Inverse.of_keeps {c c' : CacheFile} (h : Inverse CacheFile.paired c)
    (hk : CacheFile.Keeps c c') : Inverse CacheFile.paired c' := by
  intro domain isIPv6 address hd
  show c'.loadDomain domain isIPv6 = some address ↔ c'.load address = some domain ∧ _
  rw [hk.load,hk.loadDomain]
  exact h domain isIPv6 address hd

lemma loadDomain_empty_store {c : CacheFile} (h : ∀ isIPv6,c.loadDomain "" isIPv6 = none)
    (ip : IP) {domain : String} (hk : CacheFile.isKey domain = true) (isIPv6 : Bool) :
    (c.store (some ip) domain).loadDomain "" isIPv6 = none := by
  have hd : "" ≠ domain := by
    rintro rfl
    exact absurd hk (by decide)
  have hc := h isIPv6
  rw [CacheFile.loadDomain] at hc
  rw [CacheFile.loadDomain,(CacheFile.put_eq c ip hk).2.1]
  split_ifs with h6
  · rw [Option.bind_some,MemoryStorage.replace_apply,if_neg hd]
    split_ifs
    · rfl
    · cases hb : c.domains isIPv6 with
      | none => rfl
      | some bucket => simpa [hb] using hc
  · exact hc

lemma Filed.move (h : Filed ranges s) (m : Move) : Filed ranges (s.move m) := by
  cases m with
  | save =>
    have hk := s.storage.keeps_fire
    refine ⟨⟨h.steady.lanes,Inverse.of_keeps h.steady.inverse hk⟩,fun isIPv6 => ?_⟩
    show s.storage.fire.loadDomain "" isIPv6 = none
    rw [hk.loadDomain]
    exact h.unnamed isIPv6
  | create domain isIPv6 =>
    rcases s.move_create_cases domain isIPv6 with ⟨he,-⟩ | ⟨lane,hn,ha,-,he⟩
    · rw [he]
      exact h
    · rw [he]
      have hk := (s.storage.store lane.current domain).keeps_saveMetadataAsync
        (s.setLane isIPv6 lane).metadata
      by_cases hs : lane.current = none ∨ CacheFile.isKey domain = false
      · rw [CacheFile.store_of_not_key hs] at hk ⊢
        refine ⟨⟨h.steady.setLane ha,Inverse.of_keeps h.steady.inverse hk⟩,fun isIPv6 => ?_⟩
        show (CacheFile.saveMetadataAsync _ _).loadDomain "" isIPv6 = none
        rw [hk.loadDomain]
        exact h.unnamed isIPv6
      · push Not at hs
        obtain ⟨ip,hip⟩ := Option.ne_none_iff_exists'.mp hs.1
        have hkey : CacheFile.isKey domain = true := by simpa using hs.2
        have hacc : CacheFile.paired.Accepts lane.current domain := ⟨hs.1,hkey⟩
        have hf := h.steady.is4_current (.inl fun _ _ ha => ha.1) ha hacc
        have hd : domain ≠ "" := by simpa using (Bool.and_eq_true_iff.mp hkey).1
        have hi := h.steady.inverse.store hacc (by rw [hf,Bool.not_not]; exact hn) hd
        refine ⟨⟨h.steady.setLane ha,Inverse.of_keeps hi hk⟩,fun isIPv6 => ?_⟩
        show (CacheFile.saveMetadataAsync _ _).loadDomain "" isIPv6 = none
        rw [hk.loadDomain,hip]
        exact loadDomain_empty_store h.unnamed ip hkey isIPv6

lemma Filed.moves (h : Filed ranges s) (l : List Move) : Filed ranges (s.moves l) := by
  induction l generalizing s with
  | nil => exact h
  | cons m rest ih => exact ih (h.move m)

/-- The lane has got past every address of its family that the file maps. -/
def Ahead (file : CacheFile) (isIPv6 : Bool) (s : Store CacheFile) : Prop :=
  ∀ ip domain, is4 (some ip) = !isIPv6 → file.load (some ip) = some domain →
    ∃ current, (s.lane isIPv6).current = some current ∧ ip.value ≤ current.value

variable {file : CacheFile} {isIPv6 : Bool}

lemma lane_move {m : Move} (hm : StraightStep isIPv6 s m) : (s.move m).lane isIPv6 = s.lane isIPv6 ∨
    ∃ ip ip',(s.lane isIPv6).current = some ip ∧
      ((s.move m).lane isIPv6).current = some ip' ∧ ip'.value = ip.value + 1 := by
  cases m with
  | save => exact .inl rfl
  | create domain isIPv6' =>
    rcases s.move_create_cases domain isIPv6' with ⟨he,-⟩ | ⟨lane,hn,ha,-,he⟩
    · rw [he]
      exact .inl rfl
    · have hl : (s.move (.create domain isIPv6')).lane isIPv6 =
          if isIPv6 = isIPv6' then lane else s.lane isIPv6 := by
        rw [he]
        exact lane_setLane s isIPv6' isIPv6 lane
      rw [hl]
      split_ifs with h6
      · subst h6
        exact .inr (Lane.allocate_straight (hm domain rfl hn) ha)
      · exact .inl rfl

lemma Ahead.move {m : Move} (h : Ahead file isIPv6 s) (hm : StraightStep isIPv6 s m) :
    Ahead file isIPv6 (s.move m) := by
  intro ip domain h4 hl
  obtain ⟨current,hc,hle⟩ := h ip domain h4 hl
  rcases lane_move hm with he | ⟨x,y,hx,hy,hxy⟩
  · exact ⟨current,by rw [he,hc],hle⟩
  · obtain rfl : x = current := Option.some.inj (hx.symm.trans hc)
    exact ⟨y,hy,by omega⟩

lemma Ahead.own_move (hf : Filed ranges s) {m : Move}
    (h : Ahead s.storage isIPv6 s) (hm : StraightStep isIPv6 s m) :
    Ahead (s.move m).storage isIPv6 (s.move m) := by
  intro ip other h4 hl
  cases m with
  | save =>
    refine h ip other h4 ?_
    rw [← s.storage.keeps_fire.load]
    exact hl
  | create domain isIPv6' =>
    rcases s.move_create_cases domain isIPv6' with ⟨he,-⟩ | ⟨lane,hn,ha,-,he⟩
    · rw [he] at hl ⊢
      exact h ip other h4 hl
    · have hold : s.storage.load (some ip) = some other →
          ∃ current,((s.move (.create domain isIPv6')).lane isIPv6).current = some current ∧
            ip.value ≤ current.value := fun hl => h.move hm ip other h4 hl
      rw [he] at hl
      have hl : (CacheFile.saveMetadataAsync _ _).load (some ip) = some other := hl
      rw [((s.storage.store lane.current domain).keeps_saveMetadataAsync _).load] at hl
      by_cases hs : lane.current = none ∨ CacheFile.isKey domain = false
      · rw [CacheFile.store_of_not_key hs] at hl
        exact hold hl
      · push Not at hs
        obtain ⟨x,hx⟩ := Option.ne_none_iff_exists'.mp hs.1
        have hkey : CacheFile.isKey domain = true := by simpa using hs.2
        rw [hx,CacheFile.load_store _ _ hkey] at hl
        split_ifs at hl with hxi
        · -- the address just stored is the one its own lane is at
          have h6 : isIPv6 = isIPv6' := by
            have h4' := hf.steady.is4_current (.inl fun _ _ ha => ha.1) ha
              (show CacheFile.paired.Accepts lane.current domain from ⟨hs.1,hkey⟩)
            rw [hx,← hxi,h4] at h4'
            exact Bool.not_inj h4'
          refine ⟨x,?_,(Option.some.inj hxi) ▸ le_rfl⟩
          rw [he]
          exact (congrArg Lane.current ((lane_setLane s isIPv6' isIPv6 lane).trans
            (if_pos h6))).trans hx
        · exact hold hl

lemma Ahead.own_moves {l : List Move} (hf : Filed ranges s)
    (h : Ahead s.storage isIPv6 s) (hs : Straight isIPv6 s l) :
    Ahead (s.moves l).storage isIPv6 (s.moves l) := by
  induction l generalizing s with
  | nil => exact h
  | cons m rest ih => exact ih (hf.move m) (h.own_move hf hs.1) hs.2

/-- In the second run a domain has its address from the file, or one that the file does not map. -/
structure Beyond (file : CacheFile) (isIPv6 : Bool) (s : Store CacheFile) : Prop where
  ahead : Ahead file isIPv6 s
  loads : ∀ domain address, s.storage.loadDomain domain isIPv6 = some address →
    file.loadDomain domain isIPv6 = some address ∨ file.load address = none

lemma Filed.is4_current (hf : Filed ranges s) {lane : Lane} {ip : IP}
    (ha : (s.lane isIPv6).allocate = some lane) (hi : lane.current = some ip) :
    is4 (some ip) = !isIPv6 := by
  obtain ⟨p,hp,hfam,-⟩ := ((hf.steady.lanes isIPv6).allocate ha).1.current ip hi
  cases isIPv6 with
  | true => simp [is4,hfam,ranges.family6 p hp]
  | false => simp [is4,hfam,ranges.family4 p hp]

lemma Ahead.unmapped {lane : Lane} (h : Ahead file isIPv6 s)
    (hf : Filed ranges s) (hw : ¬ (s.lane isIPv6).wraps)
    (ha : (s.lane isIPv6).allocate = some lane) : file.load lane.current = none := by
  obtain ⟨ip,ip',hi,hi',hv⟩ := Lane.allocate_straight hw ha
  rw [hi']
  by_contra hn
  obtain ⟨other,ho⟩ := Option.ne_none_iff_exists'.mp hn
  obtain ⟨current,hc,hle⟩ := h ip' other (hf.is4_current ha hi') ho
  rw [hi] at hc
  cases hc
  omega

lemma Beyond.move {m : Move} (h : Beyond file isIPv6 s)
    (hf : Filed ranges s) (hm : StraightStep isIPv6 s m) :
    Beyond file isIPv6 (s.move m) := by
  refine ⟨h.ahead.move hm,fun d x hx => ?_⟩
  cases m with
  | save =>
    refine h.loads d x ?_
    rw [← s.storage.keeps_fire.loadDomain]
    exact hx
  | create domain isIPv6' =>
    rcases s.move_create_cases domain isIPv6' with ⟨he,-⟩ | ⟨lane,hn,ha,-,he⟩
    · rw [he] at hx
      exact h.loads d x hx
    · rw [he] at hx
      have hx : (CacheFile.saveMetadataAsync _ _).loadDomain d isIPv6 = some x := hx
      rw [((s.storage.store lane.current domain).keeps_saveMetadataAsync _).loadDomain] at hx
      cases hc : lane.current with
      | none =>
        rw [hc] at hx
        exact h.loads d x hx
      | some ip =>
        rcases CacheFile.lawful.loadDomain_store s.storage lane.current domain d isIPv6 x hx with
          ⟨rfl,h6⟩ | ho
        · rw [hc,hf.is4_current ha hc,Bool.not_not] at h6
          subst h6
          exact .inr (h.ahead.unmapped hf (hm domain rfl hn) ha)
        · exact h.loads d x ho

lemma Beyond.moves {l : List Move} (h : Beyond file isIPv6 s)
    (hf : Filed ranges s) (hs : Straight isIPv6 s l) : Beyond file isIPv6 (s.moves l) := by
  induction l generalizing s with
  | nil => exact h
  | cons m rest ih => exact ih (h.move hf hs.1) (hf.move m) hs.2

lemma straight_append {l : List Move} {m : Move} (h : Straight isIPv6 s (l ++ [m])) :
    Straight isIPv6 s l ∧ Straight isIPv6 (s.moves l) [m] := by
  induction l generalizing s with
  | nil => exact ⟨trivial,h⟩
  | cons m' rest ih => exact ⟨⟨h.1,(ih h.2).1⟩,(ih h.2).2⟩

lemma Beyond.create {domain other : String} {address : Addr}
    (h : Beyond file isIPv6 s) (hf : Filed ranges s) (hi : Inverse CacheFile.paired file)
    (hu : file.loadDomain "" isIPv6 = none) (hs : Straight isIPv6 s [.create domain isIPv6])
    (ha : (s.create CacheFile.ops domain isIPv6).1 = .ok address)
    (ho : file.load address = some other) : other = domain := by
  have hc := s.create_cases CacheFile.ops domain isIPv6
  generalize s.create CacheFile.ops domain isIPv6 = answer at hc ha
  cases hc with
  | loaded hl =>
    cases ha
    rcases h.loads domain address hl with hd | hn
    · have hne : domain ≠ "" := by
        rintro rfl
        rw [hu] at hd
        cases hd
      exact Option.some.inj (ho.symm.trans ((hi domain isIPv6 address hne).mp hd).1)
    · rw [hn] at ho
      cases ho
  | missing => cases ha
  | @allocated lane hn hla =>
    cases ha
    rw [h.ahead.unmapped hf (hs.1 domain rfl hn) hla] at ho
    cases ho

lemma filed_fresh (ranges : Ranges) : Filed ranges (fresh CacheFile.lawful ranges) := by
  refine ⟨steady_fresh CacheFile.paired ranges,fun isIPv6 => ?_⟩
  rw [fresh_eq]
  exact CacheFile.lawful.loadDomain_fresh "" isIPv6

lemma load_fresh (ranges : Ranges) (address : Addr) :
    (fresh CacheFile.lawful ranges).storage.load address = none := by
  rw [fresh_eq]
  exact CacheFile.paired.load_fresh address

lemma restart_eq (hf : Filed ranges s) (hm : s.storage.fire.metadata.1 = some s.metadata) :
    ∃ storage,CacheFile.Keeps s.storage.fire storage ∧ restart ranges s.storage.fire =
      ⟨{ Lane.new ranges.inet4 with current := s.inet4.current },
        { Lane.new ranges.inet6 with current := s.inet6.current },storage⟩ := by
  have he : s.storage.fire.ended.metadata.1 = some s.metadata :=
    (CacheFile.metadata_ended _).trans hm
  have h4 : s.metadata.inet4Range = ranges.inet4 := (hf.steady.lanes false).same
  have h6 : s.metadata.inet6Range = ranges.inet6 := (hf.steady.lanes true).same
  refine ⟨s.storage.fire.ended.metadata.2,?_,?_⟩
  · have hk := s.storage.fire.ended.keeps_metadata
    exact ⟨fun ip => hk.domainOf ip,fun isIPv6 => hk.domains isIPv6,hk.address⟩
  · rw [restart,start]
    simp only [CacheFile.ops,he,h4,h6,and_self,if_true]
    rfl

lemma restart_beyond (hf : Filed ranges s) (hm : s.storage.fire.metadata.1 = some s.metadata)
    (ha : Ahead s.storage isIPv6 s) :
    Filed ranges (restart ranges s.storage.fire) ∧
      Beyond s.storage.fire isIPv6 (restart ranges s.storage.fire) := by
  obtain ⟨storage,hk,he⟩ := restart_eq hf hm
  have hfire := s.storage.keeps_fire
  have hl : ∀ f,((restart ranges s.storage.fire).lane f).range = ranges.get f ∧
      ((restart ranges s.storage.fire).lane f).current = (s.lane f).current := by
    intro f
    rw [he]
    cases f <;> exact ⟨rfl,rfl⟩
  have hst : (restart ranges s.storage.fire).storage = storage := by rw [he]
  refine ⟨⟨⟨fun f => ⟨(hl f).1,fun ip hip => ?_⟩,?_⟩,fun f => ?_⟩,fun ip other h4 ho => ?_,
    fun domain address hd => ?_⟩
  · rw [(hl f).2] at hip
    exact (hf.steady.lanes f).current ip hip
  · rw [hst]
    exact Inverse.of_keeps (Inverse.of_keeps hf.steady.inverse hfire) hk
  · rw [hst,hk.loadDomain,hfire.loadDomain]
    exact hf.unnamed f
  · rw [hfire.load] at ho
    rw [(hl isIPv6).2]
    exact ha ip other h4 ho
  · rw [hst,hk.loadDomain] at hd
    exact .inl hd

/-- After every run on a new file, the save writes the last position, and so a run that starts on
that file reuses no address, if and only if the last position is the first one. -/
theorem saved_position_iff (ranges : Ranges) (l : List Move) :
    (((fresh CacheFile.lawful ranges).moves l).storage.fire.metadata.1 =
        (positions (fresh CacheFile.lawful ranges) l).getLast? ∧
      NoneReused ranges l ((fresh CacheFile.lawful ranges).moves l).storage.fire) ↔
    (positions (fresh CacheFile.lawful ranges) l).head? =
      (positions (fresh CacheFile.lawful ranges) l).getLast? := by
  have hf := (filed_fresh ranges).moves l
  have hid : Idle (fresh CacheFile.lawful ranges) := by
    intro _
    refine ⟨?_,load_fresh ranges⟩
    rw [fresh_eq]
    rfl
  have ht : ((fresh CacheFile.lawful ranges).moves l).storage.fire.metadata.1 =
      (positions (fresh CacheFile.lawful ranges) l).head? := by
    rw [(hid.moves l).metadata_fire,timer_moves,fresh_eq]
    rfl
  rw [ht]
  refine ⟨And.left,fun he => ⟨he,?_⟩⟩
  intro isIPv6 l' domain address hs hs' ha other ho
  cases hp : (positions (fresh CacheFile.lawful ranges) l).getLast? with
  | none =>
    -- nothing was allocated, so the file maps nothing
    have hn : ((fresh CacheFile.lawful ranges).moves l).storage.timer = none := by
      rw [← (hid.moves l).metadata_fire,ht,he,hp]
    rw [CacheFile.keeps_fire _ |>.load,((hid.moves l) hn).2] at ho
    cases ho
  | some m =>
    have hm : m = ((fresh CacheFile.lawful ranges).moves l).metadata := by
      rw [← metadata_moves,hp]
      rfl
    have hah : Ahead ((fresh CacheFile.lawful ranges).moves l).storage isIPv6
        ((fresh CacheFile.lawful ranges).moves l) := by
      refine Ahead.own_moves (filed_fresh ranges) (fun ip d _ hl => ?_) hs
      rw [load_fresh] at hl
      cases hl
    obtain ⟨hf2,hb⟩ := restart_beyond hf (by rw [ht,he,hp,hm]) hah
    obtain ⟨h1,h2⟩ := straight_append hs'
    refine (hb.moves hf2 h1).create (hf2.moves l') ?_ ?_ h2 ha ho
    · exact Inverse.of_keeps hf.steady.inverse (CacheFile.keeps_fire _)
    · rw [(CacheFile.keeps_fire _).loadDomain]
      exact hf.unnamed isIPv6

/-- A range of 16 addresses and two domains: the save writes the position of the first one, and the
next run gives the address of the second one to a third. -/
def sixteen : Prefix := ⟨⟨.inet4,167772160,ten_fits⟩,28,by decide⟩

theorem first_position_saved :
    let s := (fresh CacheFile.lawful (onlyInet4 sixteen rfl)).moves
      [.create "a" false,.create "b" false]
    s.storage.fire.metadata.1 ≠ some s.metadata ∧
    ((restart (onlyInet4 sixteen rfl) s.storage.fire).create CacheFile.ops "c" false).1 =
      .ok (some ⟨.inet4,167772163,by decide⟩) ∧
    s.storage.fire.load (some ⟨.inet4,167772163,by decide⟩) = some "b" := by
  refine ⟨?_,rfl,rfl⟩
  intro h
  cases h

end Store

end SingBoxAuth.FakeIP
